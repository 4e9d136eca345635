import Mathlib
import InfernoAutoscaler.Analyzer.MD1ModelStateDependent
import InfernoAutoscaler.Analyzer.ProductForm

/-!
# The state probabilities of the state-dependent model

`computeProbabilitiesApprox` computes the stationary distribution of the birth-death chain whose
rate out of state `n + 1` is `servRate[min(n, num-1)]`:

* `balanceLoop_of_le` — after `i` rounds the balance loop holds `weight` at `0, …, i`;
* `computeProbabilitiesApprox_p` — the stored `p[n]`, `n ≤ K`, is `stationary … n`;
* `computeProbabilitiesApprox_stationary` — `p` is a distribution, positive when `λ > 0`, solves
  the balance equations in their recurrence and product forms, and `ρ = 1 - p[0] ∈ [0, 1)`.
-/

namespace InfernoAutoscaler.Analyzer

open Finset

variable {α : Type} [LinearOrderedField α]

/-! ## Service rates -/

section ServiceRate

variable {servRate : List α}

lemma serviceRate_mem (hne : servRate ≠ []) (i : ℕ) : serviceRate servRate i ∈ servRate := by
  have h : min i (servRate.length - 1) < servRate.length :=
    (min_le_right _ _).trans_lt (Nat.sub_lt (List.length_pos.2 hne) one_pos)
  rw [serviceRate, List.getD_eq_getElem _ _ h]
  exact List.getElem_mem h

lemma serviceRate_pos (hne : servRate ≠ []) (hpos : ∀ r ∈ servRate, 0 < r) (i : ℕ) :
    0 < serviceRate servRate i :=
  hpos _ (serviceRate_mem hne i)

/-- Past the last batch size the rate is the last one. -/
lemma serviceRate_of_le {i : ℕ} (h : servRate.length - 1 ≤ i) :
    serviceRate servRate i = serviceRate servRate (servRate.length - 1) := by
  simp only [serviceRate, min_eq_right h, min_self]

end ServiceRate

/-! ## The balance loop -/

theorem balanceLoop_of_le (lambda : α) (servRate : List α) (p : ℕ → α) :
    ∀ {n i : ℕ}, i ≤ n → balanceLoop lambda servRate p n i = weight lambda (serviceRate servRate) i
  | 0, i, h => by rw [Nat.le_zero.1 h]; rfl
  | n + 1, i, h => by
    rw [balanceLoop]
    rcases Nat.lt_or_eq_of_le h with h | rfl
    · rw [Function.update_noteq h.ne, balanceLoop_of_le lambda servRate p (Nat.lt_succ_iff.1 h)]
    · rw [Function.update_same, balanceLoop_of_le lambda servRate p le_rfl, weight_succ]

/-! ## `computeProbabilitiesApprox` -/

section Approx

variable (m : MD1ModelStateDependent α)

@[simp] lemma computeProbabilitiesApprox_K : m.computeProbabilitiesApprox.K = m.K := rfl
@[simp] lemma computeProbabilitiesApprox_lambda :
    m.computeProbabilitiesApprox.lambda = m.lambda := rfl
@[simp] lemma computeProbabilitiesApprox_servRate :
    m.computeProbabilitiesApprox.servRate = m.servRate := rfl
@[simp] lemma computeProbabilitiesApprox_isValid :
    m.computeProbabilitiesApprox.isValid = m.isValid := rfl

lemma computeProbabilitiesApprox_rho :
    m.computeProbabilitiesApprox.rho = 1 - m.computeProbabilitiesApprox.p 0 := rfl

/-- The stored probabilities are the stationary distribution of the chain. -/
theorem computeProbabilitiesApprox_p {n : ℕ} (h : n ≤ m.K) :
    m.computeProbabilitiesApprox.p n = stationary m.lambda (serviceRate m.servRate) m.K n := by
  have hsum : ∑ i in range (m.K + 1), balanceLoop m.lambda m.servRate m.p m.K i =
      ∑ i in range (m.K + 1), weight m.lambda (serviceRate m.servRate) i :=
    sum_congr rfl fun i hi => balanceLoop_of_le _ _ _ (Nat.lt_succ_iff.1 (mem_range.1 hi))
  show balanceLoop m.lambda m.servRate m.p m.K n / _ = _
  rw [hsum, balanceLoop_of_le _ _ _ h, stationary]

variable {m}

section Hyps

variable (hne : m.servRate ≠ []) (hpos : ∀ r ∈ m.servRate, 0 < r)
include hne hpos

theorem computeProbabilitiesApprox_isDistribution (hl : 0 ≤ m.lambda) :
    IsDistribution m.K m.computeProbabilitiesApprox.p := by
  have hd := stationary_isDistribution (K := m.K) hl (serviceRate_pos hne hpos)
  refine ⟨fun n h => (computeProbabilitiesApprox_p m h).symm ▸ hd.nonneg n h, ?_⟩
  rw [sum_congr rfl fun n hn => computeProbabilitiesApprox_p m (Nat.lt_succ_iff.1 (mem_range.1 hn)),
    hd.sum_eq_one]

lemma computeProbabilitiesApprox_pos (hl : 0 < m.lambda) {n : ℕ} (h : n ≤ m.K) :
    0 < m.computeProbabilitiesApprox.p n :=
  (computeProbabilitiesApprox_p m h).symm ▸ stationary_pos hl (serviceRate_pos hne hpos) n

lemma computeProbabilitiesApprox_p_zero_pos (hl : 0 ≤ m.lambda) :
    0 < m.computeProbabilitiesApprox.p 0 := by
  rw [computeProbabilitiesApprox_p m (Nat.zero_le _), stationary, weight_zero]
  exact one_div_pos.2 (sum_weight_pos hl (serviceRate_pos hne hpos))

lemma computeProbabilitiesApprox_p_zero_le_one (hl : 0 ≤ m.lambda) :
    m.computeProbabilitiesApprox.p 0 ≤ 1 := by
  have hd := computeProbabilitiesApprox_isDistribution hne hpos hl
  exact hd.sum_eq_one ▸ single_le_sum (fun n hn => hd.nonneg n (Nat.lt_succ_iff.1 (mem_range.1 hn)))
    (mem_range.2 (Nat.succ_pos _))

/-- `p[K] < 1` when `K ≥ 1`: the empty state keeps some mass. -/
lemma computeProbabilitiesApprox_p_K_lt_one (hl : 0 ≤ m.lambda) (hK : 0 < m.K) :
    m.computeProbabilitiesApprox.p m.K < 1 := by
  have hd := computeProbabilitiesApprox_isDistribution hne hpos hl
  have h := add_le_sum (fun n hn => hd.nonneg n (Nat.lt_succ_iff.1 (mem_range.1 hn)))
    (mem_range.2 (Nat.succ_pos m.K)) (self_mem_range_succ m.K) hK.ne
  rw [hd.sum_eq_one] at h
  linarith [computeProbabilitiesApprox_p_zero_pos hne hpos hl]

theorem computeProbabilitiesApprox_isBalanced :
    IsBalanced m.lambda (serviceRate m.servRate) m.K m.computeProbabilitiesApprox.p := by
  intro n h
  rw [computeProbabilitiesApprox_p m h.le, computeProbabilitiesApprox_p m h]
  exact stationary_isBalanced (serviceRate_pos hne hpos) n h

end Hyps

/-- `p[n] = p[0] · Π_{k<n} λ / servRate[min(k, num-1)]`. -/
theorem computeProbabilitiesApprox_eq_mul_prod {n : ℕ} (h : n ≤ m.K) :
    m.computeProbabilitiesApprox.p n =
      m.computeProbabilitiesApprox.p 0 * ∏ k in range n, m.lambda / serviceRate m.servRate k := by
  rw [computeProbabilitiesApprox_p m h, computeProbabilitiesApprox_p m (Nat.zero_le _)]
  exact stationary_eq_mul_prod n

/-- **The state probabilities** (for any `K`, any `λ ≥ 0` and any non-empty positive `servRate`):
a distribution on `0, …, K`, positive when `λ > 0`, solving the balance equations
`λ · p[n] = servRate[min(n, num-1)] · p[n+1]`, equal to `p[0] · Π_{k<n} λ / servRate[min(k, num-1)]`,
and with utilisation `ρ = 1 - p[0]` in `[0, 1)`. -/
theorem computeProbabilitiesApprox_stationary (hl : 0 ≤ m.lambda) (hne : m.servRate ≠ [])
    (hpos : ∀ r ∈ m.servRate, 0 < r) :
    IsDistribution m.K m.computeProbabilitiesApprox.p ∧
    (0 < m.lambda → ∀ n ≤ m.K, 0 < m.computeProbabilitiesApprox.p n) ∧
    IsBalanced m.lambda (serviceRate m.servRate) m.K m.computeProbabilitiesApprox.p ∧
    (∀ n ≤ m.K, m.computeProbabilitiesApprox.p n =
      m.computeProbabilitiesApprox.p 0 * ∏ k in range n, m.lambda / serviceRate m.servRate k) ∧
    0 ≤ m.computeProbabilitiesApprox.rho ∧ m.computeProbabilitiesApprox.rho < 1 := by
  have hd := computeProbabilitiesApprox_isDistribution hne hpos hl
  have hp0 := computeProbabilitiesApprox_p_zero_pos hne hpos hl
  have hp1 := computeProbabilitiesApprox_p_zero_le_one hne hpos hl
  refine ⟨hd, fun hl' _ h => computeProbabilitiesApprox_pos hne hpos hl' h,
    computeProbabilitiesApprox_isBalanced hne hpos, fun _ h => computeProbabilitiesApprox_eq_mul_prod h,
    ?_, ?_⟩ <;> rw [computeProbabilitiesApprox_rho] <;> linarith

end Approx

theorem computeProbabilitiesApprox_stationary_one :
    let m : MD1ModelStateDependent ℚ := { newMD1ModelStateDependent 3 [1, 2] with lambda := 1 }
    IsDistribution m.K m.computeProbabilitiesApprox.p ∧
    (0 < m.lambda → ∀ n ≤ m.K, 0 < m.computeProbabilitiesApprox.p n) ∧
    IsBalanced m.lambda (serviceRate m.servRate) m.K m.computeProbabilitiesApprox.p ∧
    (∀ n ≤ m.K, m.computeProbabilitiesApprox.p n =
      m.computeProbabilitiesApprox.p 0 * ∏ k in range n, m.lambda / serviceRate m.servRate k) ∧
    0 ≤ m.computeProbabilitiesApprox.rho ∧ m.computeProbabilitiesApprox.rho < 1 :=
  computeProbabilitiesApprox_stationary (by norm_num) (by simp [newMD1ModelStateDependent])
    (by simp [newMD1ModelStateDependent])

end InfernoAutoscaler.Analyzer
