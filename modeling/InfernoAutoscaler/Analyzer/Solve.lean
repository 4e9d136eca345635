import Mathlib
import InfernoAutoscaler.Analyzer.EmbeddedChain.Iteration
import InfernoAutoscaler.Analyzer.StateDependent.Statistics

/-!
# `Solve` and the validity check

`Solve(λ, μ)` admits a model when `ρ < ρ_max`, `λ ≥ 0` and `μ > 0`, and only then computes the
statistics.  The state-dependent model reads `ρ = 1 - p[0]` from the probabilities of its previous
solve, so its validity is a property of the whole run:

* `MD1KModel.solve_isValid`, `MD1ModelStateDependent.solve_isValid` — what the check reads;
* `solveRun_isValid` — a fresh state-dependent model with `K ≥ 2` is admitted at every solve with
  `λ ≥ 0` and `μ > 0`, because each solve leaves `p[0] ∈ [0, 1]`;
* `solveRun_not_isValid_of_K_one` — with `K = 1` a fresh one never is: `ρ = 1 - 0` is not `< 1`,
  and an invalid solve leaves `p` at zero;
* `solve_zero_lambda_zero_throughput` — at `λ = 0` both models are admitted, and the throughput
  that `R = N / X` divides by is `0`.
-/

namespace InfernoAutoscaler.Analyzer

open Finset

variable {α : Type} [LinearOrderedField α]

/-! ## What `computeStatistics` keeps -/

section Keep

variable (exp : α → α) (m : MD1KModel α)

@[simp] lemma MD1KModel.computeStatistics_isValid : (m.computeStatistics exp).isValid = m.isValid := by
  unfold MD1KModel.computeStatistics; split <;> rfl

@[simp] lemma MD1KModel.computeStatistics_lambda : (m.computeStatistics exp).lambda = m.lambda := by
  unfold MD1KModel.computeStatistics; split <;> rfl

variable (s : MD1ModelStateDependent α)

@[simp] lemma MD1ModelStateDependent.computeStatistics_isValid :
    s.computeStatistics.isValid = s.isValid := by
  unfold MD1ModelStateDependent.computeStatistics; split <;> rfl

@[simp] lemma MD1ModelStateDependent.computeStatistics_K : s.computeStatistics.K = s.K := by
  unfold MD1ModelStateDependent.computeStatistics; split <;> rfl

@[simp] lemma MD1ModelStateDependent.computeStatistics_servRate :
    s.computeStatistics.servRate = s.servRate := by
  unfold MD1ModelStateDependent.computeStatistics; split <;> rfl

/-- An invalid model keeps its probabilities. -/
lemma MD1ModelStateDependent.computeStatistics_p_of_not (h : s.isValid = false) :
    s.computeStatistics.p = s.p := by
  simp [MD1ModelStateDependent.computeStatistics, h]

end Keep

/-! ## The validity check -/

/-- The state `Solve` hands to `computeStatistics`. -/
abbrev MD1KModel.prepare (exp : α → α) (m : MD1KModel α) (lambda mu : α) : MD1KModel α :=
  (MD1KModel.ops exp).prepare m lambda mu

lemma MD1KModel.prepare_isValid (exp : α → α) (m : MD1KModel α) (lambda mu : α) :
    (m.prepare exp lambda mu).isValid =
      isValidRates (if lambda = mu then 1 else lambda / mu) m.K lambda mu := rfl

@[simp] lemma MD1KModel.prepare_lambda (exp : α → α) (m : MD1KModel α) (lambda mu : α) :
    (m.prepare exp lambda mu).lambda = lambda := rfl

lemma MD1KModel.solve_eq (exp : α → α) (m : MD1KModel α) (lambda mu : α) :
    m.solve exp lambda mu = (m.prepare exp lambda mu).computeStatistics exp := rfl

lemma MD1KModel.solve_isValid (exp : α → α) (m : MD1KModel α) (lambda mu : α) :
    (m.solve exp lambda mu).isValid =
      isValidRates (if lambda = mu then 1 else lambda / mu) m.K lambda mu :=
  MD1KModel.computeStatistics_isValid exp _

/-- The state-dependent `Solve` hands over the model with `ρ = 1 - p[0]` read from the previous
probabilities. -/
abbrev MD1ModelStateDependent.prepare (m : MD1ModelStateDependent α) (lambda mu : α) :
    MD1ModelStateDependent α :=
  MD1ModelStateDependent.ops.prepare m lambda mu

section Prepare

variable (m : MD1ModelStateDependent α) (lambda mu : α)

@[simp] lemma MD1ModelStateDependent.prepare_isValid :
    (m.prepare lambda mu).isValid = isValidRates (1 - m.p 0) m.K lambda mu := rfl
@[simp] lemma MD1ModelStateDependent.prepare_lambda : (m.prepare lambda mu).lambda = lambda := rfl
@[simp] lemma MD1ModelStateDependent.prepare_K : (m.prepare lambda mu).K = m.K := rfl
@[simp] lemma MD1ModelStateDependent.prepare_servRate :
    (m.prepare lambda mu).servRate = m.servRate := rfl

lemma MD1ModelStateDependent.solve_eq :
    m.solve lambda mu = (m.prepare lambda mu).computeStatistics := rfl

lemma MD1ModelStateDependent.solve_isValid :
    (m.solve lambda mu).isValid = isValidRates (1 - m.p 0) m.K lambda mu :=
  MD1ModelStateDependent.computeStatistics_isValid _

end Prepare

/-! ## Runs of the state-dependent model -/

/-- A run: `Solve` applied to each `(λ, μ)` in turn. -/
def solveRun (m : MD1ModelStateDependent α) (calls : List (α × α)) : MD1ModelStateDependent α :=
  calls.foldl (fun m c => m.solve c.1 c.2) m

/-- What a solve keeps of a state-dependent model: its shape, and `p[0] ∈ [0, 1]`. -/
structure SolveInv (K : ℕ) (servRate : List α) (m : MD1ModelStateDependent α) : Prop where
  K_eq : m.K = K
  servRate_eq : m.servRate = servRate
  p_zero_nonneg : 0 ≤ m.p 0
  p_zero_le_one : m.p 0 ≤ 1

lemma newMD1ModelStateDependent_inv (K : ℕ) (servRate : List α) :
    SolveInv K servRate (newMD1ModelStateDependent K servRate) :=
  ⟨rfl, rfl, le_rfl, zero_le_one⟩

section Runs

variable {K : ℕ} {servRate : List α} (hne : servRate ≠ []) (hpos : ∀ r ∈ servRate, 0 < r)
include hne hpos

/-- **One solve keeps the invariant and is admitted** when `K ≥ 2`, `λ ≥ 0` and `μ > 0`. -/
theorem solve_inv (hK : 2 ≤ K) {m : MD1ModelStateDependent α} (hm : SolveInv K servRate m)
    {lambda mu : α} (hl : 0 ≤ lambda) (hmu : 0 < mu) :
    (m.solve lambda mu).isValid = true ∧ SolveInv K servRate (m.solve lambda mu) := by
  have hK' : (2 : α) ≤ K := by exact_mod_cast hK
  have hrho : 1 - m.p 0 < (m.K : α) := by rw [hm.K_eq]; linarith [hm.p_zero_nonneg]
  have hs : (m.prepare lambda mu).isValid = true := by
    simp [isValidRates, hrho, hl, hmu]
  have hne' : (m.prepare lambda mu).servRate ≠ [] := by simpa [hm.servRate_eq] using hne
  have hpos' : ∀ r ∈ (m.prepare lambda mu).servRate, 0 < r := by simpa [hm.servRate_eq] using hpos
  have hl' : 0 ≤ (m.prepare lambda mu).lambda := hl
  rw [MD1ModelStateDependent.solve_eq]
  refine ⟨by simpa using hs, ⟨by simp [hm.K_eq], by simp [hm.servRate_eq], ?_, ?_⟩⟩ <;>
    rw [computeStatistics_p hs]
  · exact (computeProbabilitiesApprox_p_zero_pos hne' hpos' hl').le
  · exact computeProbabilitiesApprox_p_zero_le_one hne' hpos' hl'

/-- **Every solve of a run is admitted**: from a fresh model with `K ≥ 2`, a run whose calls all
have `λ ≥ 0` and `μ > 0` leaves a valid model at every step. -/
theorem solveRun_isValid (hK : 2 ≤ K) :
    ∀ (calls : List (α × α)), (∀ c ∈ calls, 0 ≤ c.1 ∧ 0 < c.2) → calls ≠ [] →
      (solveRun (newMD1ModelStateDependent K servRate) calls).isValid = true := by
  suffices h : ∀ (calls : List (α × α)) (m : MD1ModelStateDependent α), SolveInv K servRate m →
      (∀ c ∈ calls, 0 ≤ c.1 ∧ 0 < c.2) →
        SolveInv K servRate (solveRun m calls) ∧ (calls ≠ [] → (solveRun m calls).isValid = true) from
    fun calls hc hne' => (h calls _ (newMD1ModelStateDependent_inv K servRate) hc).2 hne'
  intro calls
  induction calls with
  | nil => exact fun m hm _ => ⟨hm, fun h => absurd rfl h⟩
  | cons c calls ih =>
    intro m hm hc
    obtain ⟨hv, hm'⟩ := solve_inv hne hpos hK hm (hc c (List.mem_cons_self _ _)).1
      (hc c (List.mem_cons_self _ _)).2
    obtain ⟨hinv, hval⟩ := ih _ hm' fun c' h => hc c' (List.mem_cons_of_mem _ h)
    refine ⟨hinv, fun _ => ?_⟩
    rcases calls with _ | ⟨c', calls⟩
    · exact hv
    · exact hval (List.cons_ne_nil _ _)

end Runs

theorem solveRun_isValid_half :
    (solveRun (newMD1ModelStateDependent 2 [(1 : ℚ)]) [(1 / 2, 1), (0, 2)]).isValid = true :=
  solveRun_isValid (by simp) (by simp) le_rfl _ (by norm_num) (by simp)

/-- An invalid solve of a model with `K = 1` and `p[0] = 0` leaves it so. -/
lemma solve_of_K_one {m : MD1ModelStateDependent α} (hK : m.K = 1) (hp : m.p 0 = 0)
    (lambda mu : α) : (m.solve lambda mu).K = 1 ∧ (m.solve lambda mu).p 0 = 0 ∧
      (m.solve lambda mu).isValid = false := by
  have hv : (m.prepare lambda mu).isValid = false := by simp [isValidRates, hK, hp]
  rw [MD1ModelStateDependent.solve_eq, MD1ModelStateDependent.computeStatistics_p_of_not _ hv]
  exact ⟨by simpa using hK, hp, by simpa using hv⟩

/-- **A fresh state-dependent model with `K = 1` is never admitted**: its first check reads
`ρ = 1 - p[0] = 1`, which is not `< ρ_max = 1`, and an invalid solve leaves `p[0] = 0`. -/
theorem solveRun_not_isValid_of_K_one (servRate : List α) (calls : List (α × α)) :
    (solveRun (newMD1ModelStateDependent 1 servRate) calls).isValid = false := by
  suffices h : ∀ (m : MD1ModelStateDependent α), m.K = 1 → m.p 0 = 0 → m.isValid = false →
      (solveRun m calls).isValid = false from h _ rfl rfl rfl
  induction calls with
  | nil => exact fun _ _ _ h => h
  | cons c calls ih =>
    intro m hK hp _
    obtain ⟨hK', hp', hv'⟩ := solve_of_K_one hK hp c.1 c.2
    exact ih _ hK' hp' hv'

/-! ## An idle workload -/

/-- **At `λ = 0` both models pass the check and then divide by a zero throughput**: `R = N / X`
in `MD1KModel`, `R = N / X` and `S = N_s / X` in the state-dependent model. -/
theorem solve_zero_lambda_zero_throughput :
    ((newMD1KModel 1).solve Real.exp 0 1).isValid = true ∧
    ((newMD1KModel 1).solve Real.exp 0 1).throughput = 0 ∧
    ((newMD1ModelStateDependent 2 [(1 : ℝ)]).solve 0 1).isValid = true ∧
    ((newMD1ModelStateDependent 2 [(1 : ℝ)]).solve 0 1).throughput = 0 := by
  have h₁ : ((newMD1KModel 1).prepare Real.exp (0 : ℝ) 1).isValid = true := by
    norm_num [MD1KModel.prepare_isValid, isValidRates, newMD1KModel]
  have h₂ : ((newMD1ModelStateDependent 2 [(1 : ℝ)]).prepare 0 1).isValid = true := by
    norm_num [isValidRates, newMD1ModelStateDependent, newMD1KModel]
  refine ⟨by rwa [MD1KModel.solve_eq, MD1KModel.computeStatistics_isValid], ?_,
    by rwa [MD1ModelStateDependent.solve_eq, MD1ModelStateDependent.computeStatistics_isValid], ?_⟩
  · rw [MD1KModel.solve_eq, MD1KModel.computeStatistics_throughput h₁, MD1KModel.prepare_lambda,
      zero_mul]
  · rw [MD1ModelStateDependent.solve_eq, computeStatistics_throughput h₂,
      MD1ModelStateDependent.prepare_lambda, zero_mul]

end InfernoAutoscaler.Analyzer
