import Mathlib
import InfernoAutoscaler.Analyzer.Solve

/-!
# What a solve remembers

A model is reused across calls of `Solve`.  An admitted solve overwrites every statistic, so it can
depend on the previous state only through the fields it reads.  The state-dependent model reads two
of them: `ComputeRho` reads `p[0]` of the previous solve, and the balance loop writes into the
previous `p`.

* `balanceLoop_of_gt`, `computeStatistics_congr` — the state-dependent balance loop leaves the slots
  beyond `K` as they are, so `computeStatistics` reads the old probabilities only there;
* `forgets_solve` — one call of `Solve`, admitted or rejected, keeps the property `Forgets` of a
  state: every admitted solve from it returns what it returns on a fresh model;
* `solveRun_append_solve` — **a run of the state-dependent model forgets**: after any calls from a
  fresh `NewMD1ModelStateDependent(K, servRate)`, a solve with `λ ≥ 0` and `μ > 0` returns what the
  same solve on the fresh model returns.
-/

namespace InfernoAutoscaler.Analyzer

open Finset

variable {α : Type} [LinearOrderedField α]

/-! ## The state-dependent balance loop -/

theorem balanceLoop_of_gt (lambda : α) (servRate : List α) (p : ℕ → α) :
    ∀ {n i : ℕ}, n < i → balanceLoop lambda servRate p n i = p i
  | 0, i, h => Function.update_noteq h.ne' _ _
  | n + 1, i, h => by
    rw [balanceLoop, Function.update_noteq h.ne', balanceLoop_of_gt lambda servRate p (by omega)]

lemma balanceLoop_congr {lambda : α} {servRate : List α} {p p' : ℕ → α} {n : ℕ}
    (hp : ∀ i, n < i → p i = p' i) :
    balanceLoop lambda servRate p n = balanceLoop lambda servRate p' n := by
  funext i
  rcases le_or_lt i n with h | h
  · rw [balanceLoop_of_le _ _ _ h, balanceLoop_of_le _ _ _ h]
  · rw [balanceLoop_of_gt _ _ _ h, balanceLoop_of_gt _ _ _ h, hp i h]

/-- Beyond `K` the normalised probabilities are the old ones divided by `sumP`. -/
lemma computeProbabilitiesApprox_p_of_gt (m : MD1ModelStateDependent α) {n : ℕ} (h : m.K < n) :
    m.computeProbabilitiesApprox.p n =
      m.p n / ∑ i in range (m.K + 1), balanceLoop m.lambda m.servRate m.p m.K i := by
  show balanceLoop m.lambda m.servRate m.p m.K n / _ = _
  rw [balanceLoop_of_gt _ _ _ h]

/-- `computeStatistics` of a valid model reads `K`, `λ`, `μ`, `servRate` and `p` beyond `K`. -/
lemma computeStatistics_congr {m m' : MD1ModelStateDependent α} (hK : m.K = m'.K)
    (hl : m.lambda = m'.lambda) (hmu : m.mu = m'.mu) (hs : m.servRate = m'.servRate)
    (hv : m.isValid = true) (hv' : m'.isValid = true) (hp : ∀ n, m.K < n → m.p n = m'.p n) :
    m.computeStatistics = m'.computeStatistics := by
  obtain ⟨⟨⟨lambda, mu, rho, isValid, N, R, S, W, L⟩, K, p, sumP, X⟩, servRate, Ns⟩ := m
  obtain ⟨⟨⟨lambda', mu', rho', isValid', N', R', S', W', L'⟩, K', p', sumP', X'⟩, servRate', Ns'⟩ :=
    m'
  dsimp only at hK hl hmu hs hv hv' hp
  subst hK hl hmu hs hv hv'
  have hb : balanceLoop lambda servRate p K = balanceLoop lambda servRate p' K := balanceLoop_congr hp
  simp only [MD1ModelStateDependent.computeStatistics, MD1ModelStateDependent.computeProbabilitiesApprox,
    Bool.not_true, hb]
  rfl

/-! ## Runs of the state-dependent model -/

/-- A state from which every solve with `λ ≥ 0` and `μ > 0` returns what it returns on a fresh
`NewMD1ModelStateDependent(K, servRate)`. -/
def Forgets (K : ℕ) (servRate : List α) (m : MD1ModelStateDependent α) : Prop :=
  ∀ lambda mu : α, 0 ≤ lambda → 0 < mu →
    m.solve lambda mu = (newMD1ModelStateDependent K servRate).solve lambda mu

section Forgets

variable {K : ℕ} {servRate : List α}

@[simp] lemma MD1ModelStateDependent.prepare_prepare (m : MD1ModelStateDependent α)
    (a b lambda mu : α) : (m.prepare a b).prepare lambda mu = m.prepare lambda mu := rfl

lemma MD1ModelStateDependent.solve_of_not_isValid {m : MD1ModelStateDependent α} {lambda mu : α}
    (h : (m.prepare lambda mu).isValid = false) : m.solve lambda mu = m.prepare lambda mu := by
  simp [MD1ModelStateDependent.solve_eq, MD1ModelStateDependent.computeStatistics, h]

lemma forgets_newMD1ModelStateDependent :
    Forgets K servRate (newMD1ModelStateDependent K servRate) := fun _ _ _ _ => rfl

/-- A rejected call only sets the rates and clears the derived scalars, as the next solve does
again. -/
lemma forgets_solve_of_not {m : MD1ModelStateDependent α} (hm : Forgets K servRate m) {a b : α}
    (h : (m.prepare a b).isValid = false) : Forgets K servRate (m.solve a b) := by
  intro lambda mu hl hmu
  rw [MD1ModelStateDependent.solve_of_not_isValid h, MD1ModelStateDependent.solve_eq,
    MD1ModelStateDependent.prepare_prepare, ← MD1ModelStateDependent.solve_eq]
  exact hm lambda mu hl hmu

variable (hne : servRate ≠ []) (hpos : ∀ r ∈ servRate, 0 < r)
include hne hpos

/-- A valid model whose zeros beyond `K` match the fresh model's forgets after `computeStatistics`:
the stored `p[0] ∈ [0, 1]` lets the next check pass as the fresh model's does, and the slots
beyond `K` stay zero. -/
lemma forgets_computeStatistics {m : MD1ModelStateDependent α} (hK : m.K = K)
    (hs : m.servRate = servRate) (hv : m.isValid = true) (hl : 0 ≤ m.lambda) (h1 : 1 < (K : α))
    (htail : ∀ n, K < n → m.p n = 0) : Forgets K servRate m.computeStatistics := by
  have hp := computeStatistics_p hv
  have hp0 : 0 ≤ m.computeProbabilitiesApprox.p 0 :=
    (computeProbabilitiesApprox_p_zero_pos (hs ▸ hne) (hs ▸ hpos) hl).le
  intro lambda mu hl' hmu
  rw [MD1ModelStateDependent.solve_eq, MD1ModelStateDependent.solve_eq]
  refine computeStatistics_congr (by simp [hK, newMD1ModelStateDependent, newMD1KModel]) rfl rfl
    (by simp [hs, newMD1ModelStateDependent]) ?_ ?_ fun n hn => ?_
  · rw [MD1ModelStateDependent.prepare_isValid, isValidRates_eq_true, computeStatistics_p hv,
      MD1ModelStateDependent.computeStatistics_K, hK]
    exact ⟨(sub_le_self 1 hp0).trans_lt h1, hl', hmu⟩
  · show isValidRates (1 - 0) (K : α) lambda mu = true
    exact isValidRates_eq_true.2 ⟨(sub_zero (1 : α)).symm ▸ h1, hl', hmu⟩
  · simp only [MD1ModelStateDependent.prepare_K, MD1ModelStateDependent.computeStatistics_K, hK] at hn
    show m.computeStatistics.p n = 0
    rw [hp, computeProbabilitiesApprox_p_of_gt m (hK ▸ hn), htail n hn, zero_div]

/-- **One call keeps `Forgets`**, admitted or rejected. -/
theorem forgets_solve {m : MD1ModelStateDependent α} (hm : Forgets K servRate m) (a b : α) :
    Forgets K servRate (m.solve a b) := by
  cases hv : (m.prepare a b).isValid
  case false => exact forgets_solve_of_not hm hv
  case true =>
    rw [MD1ModelStateDependent.prepare_isValid, isValidRates_eq_true] at hv
    rw [hm a b hv.2.1 hv.2.2]
    cases hv₀ : ((newMD1ModelStateDependent K servRate).prepare a b).isValid
    case false => exact forgets_solve_of_not forgets_newMD1ModelStateDependent hv₀
    case true =>
      have h1 : (1 : α) - 0 < K := (isValidRates_eq_true.1 hv₀).1
      exact forgets_computeStatistics hne hpos rfl rfl hv₀ hv.2.1 (sub_zero (1 : α) ▸ h1)
        fun _ _ => rfl

/-- **A run of the state-dependent model forgets**: after any calls from a fresh model, a solve
with `λ ≥ 0` and `μ > 0` returns what the same solve on the fresh model returns. -/
theorem solveRun_append_solve (calls : List (α × α)) {lambda mu : α} (hl : 0 ≤ lambda)
    (hmu : 0 < mu) :
    solveRun (newMD1ModelStateDependent K servRate) (calls ++ [(lambda, mu)]) =
      (newMD1ModelStateDependent K servRate).solve lambda mu := by
  have hrun : ∀ m, Forgets K servRate m → Forgets K servRate (solveRun m calls) := by
    induction calls with
    | nil => exact fun _ hm => hm
    | cons c calls ih => exact fun m hm => ih _ (forgets_solve hne hpos hm c.1 c.2)
  simp only [solveRun, List.foldl_append, List.foldl_cons, List.foldl_nil]
  exact hrun _ forgets_newMD1ModelStateDependent lambda mu hl hmu

end Forgets

theorem solveRun_append_solve_quarter :
    solveRun (newMD1ModelStateDependent 2 [(1 : ℚ)]) ([(1 / 2, 1), (-1, 1)] ++ [(1 / 4, 1)]) =
      (newMD1ModelStateDependent 2 [(1 : ℚ)]).solve (1 / 4) 1 :=
  solveRun_append_solve (by simp) (by simp) _ (by norm_num) (by norm_num)

end InfernoAutoscaler.Analyzer
