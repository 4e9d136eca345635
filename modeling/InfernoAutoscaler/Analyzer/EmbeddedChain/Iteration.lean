import Mathlib
import InfernoAutoscaler.Analyzer.EmbeddedChain.Transition
import InfernoAutoscaler.Analyzer.ProductForm

/-!
# The M/D/1/K iteration with the real exponential

With `exp = Real.exp` the weights the `j` loop reads are the Poisson probabilities, and:

* `factorial_eq` — the table and the running product are `n !`;
* `sum_poissonProb_lt_one` — the weights of `j = 0, …, K` arrivals sum to less than one when
  `a > 0`, so `sum_transition_lt`: a pass loses mass whenever a state `n ≥ 1` holds some, and
  `sum_transition_add_lost`: it loses the Poisson tail `P(J > K)` of the mass of the busy states;
* `iterated_inv` — the iteration keeps the vector non-negative and never lowers `p[0]` below its
  uniform start `1 / (K + 1)`, so the normalisation divides by a positive `sumP` and, for `λ > 0`,
  the throughput is positive (`computeStatistics_divisors_pos`), and the normalised vector is a
  probability distribution (`computeProbabilities_isDistribution`);
* `transition_fixed_iff` — a pass fixes exactly the vectors with no mass on the busy states
  `1, …, K`: the iteration can only settle on the empty system.
-/

namespace InfernoAutoscaler.Analyzer

open Finset Nat

variable {α : Type} [LinearOrderedField α]

/-! ## `factorial` -/

lemma factorialTable_getD {n : ℕ} (h : n ≤ 20) : factorialTable.getD n 0 = n ! := by
  interval_cases n <;> rfl

/-- The running product of `factorial` over `2, …, k + 1`. -/
lemma foldl_mul_range' (k : ℕ) (r : α) :
    (List.range' 2 k).foldl (fun r (i : ℕ) => r * (i : α)) r = r * ((k + 1)! : ℕ) := by
  induction k with
  | zero => simp
  | succ k ih =>
    rw [List.range'_concat, List.foldl_append, ih, List.foldl_cons, List.foldl_nil,
      factorial_succ (k + 1), Nat.cast_mul, one_mul]
    push_cast; ring

theorem factorial_eq (n : ℕ) : (factorial n : α) = n ! := by
  unfold factorial
  split_ifs with h1 h2
  · rcases h1 with rfl | rfl <;> simp
  · rw [factorialTable_getD h2]
  · rw [foldl_mul_range', one_mul, Nat.sub_add_cancel (by omega)]

/-! ## Poisson weights -/

lemma poissonProb_eq (a : ℝ) (j : ℕ) :
    poissonProb Real.exp a j = Real.exp (-a) * (a ^ j / j !) := by
  rw [poissonProb, factorial_eq, mul_div_assoc]

lemma poissonProb_nonneg {a : ℝ} (ha : 0 ≤ a) (j : ℕ) : 0 ≤ poissonProb Real.exp a j := by
  rw [poissonProb_eq]; positivity

/-- The weights of `j = 0, …, K` arrivals miss the tail `j > K`. -/
lemma sum_poissonProb_lt_one {a : ℝ} (ha : 0 < a) (K : ℕ) :
    ∑ j in range (K + 1), poissonProb Real.exp a j < 1 := by
  have h : ∑ j in range (K + 1), a ^ j / (j ! : ℝ) < Real.exp a :=
    calc ∑ j in range (K + 1), a ^ j / (j ! : ℝ)
        < ∑ j in range (K + 2), a ^ j / (j ! : ℝ) := by
          rw [sum_range_succ _ (K + 1)]; exact lt_add_of_pos_right _ (by positivity)
      _ ≤ Real.exp a := Real.sum_le_exp_of_nonneg ha.le _
  simp only [poissonProb_eq, ← mul_sum]
  calc Real.exp (-a) * ∑ j in range (K + 1), a ^ j / (j ! : ℝ)
      < Real.exp (-a) * Real.exp a := mul_lt_mul_of_pos_left h (Real.exp_pos _)
    _ = 1 := by rw [← Real.exp_add, neg_add_cancel, Real.exp_zero]

/-- **A pass loses mass**: with `a > 0`, a non-negative vector that holds mass in some state
`n ≥ 1` has less mass after one pass. -/
theorem sum_transition_lt {K : ℕ} {a : ℝ} (ha : 0 < a) {p : ℕ → ℝ} (hp : ∀ n, 0 ≤ p n)
    {n : ℕ} (hn : n < K) (hpn : 0 < p (n + 1)) :
    ∑ s in range (K + 1), transition K (poissonProb Real.exp a) p s <
      ∑ s in range (K + 1), p s := by
  have hmass : 0 < ∑ n in range K, p (n + 1) :=
    (hpn.trans_le (single_le_sum (fun k _ => hp (k + 1)) (mem_range.2 hn)))
  rw [sum_transition, sum_range_succ' p K, add_comm (∑ n in range K, p (n + 1))]
  exact add_lt_add_left (mul_lt_of_lt_one_left hmass (sum_poissonProb_lt_one ha K)) _

/-- A pass loses mass at a pass `Solve` reaches: `NewMD1KModel(1)` solved at `λ = 1/2`, `μ = 1` is
admitted, and the first pass from its uniform start `[1/2, 1/2]` keeps `1/2 + 3/4·e^(-1/2) < 1`.
Likewise at `K = 1`, `λ = μ = 1`, from all the mass in state `1`, only `2 / e` of it stays. -/
theorem transition_mass_lt_at_one :
    let m : MD1KModel ℝ := (MD1KModel.ops Real.exp).prepare (newMD1KModel 1) (1 / 2) 1
    m.isValid = true ∧
      ∑ s in range (m.K + 1), transition m.K (poissonProb Real.exp (m.lambda * (1 / m.mu)))
          (fun _ => 1 / ((m.K : ℝ) + 1)) s < 1 ∧
      ∑ s in range 2, transition 1 (poissonProb Real.exp (1 * (1 / 1)))
          (fun n => if n = 1 then 1 else 0) s < ∑ s in range 2, (if s = 1 then (1 : ℝ) else 0) := by
  intro m
  have hK : m.K = 1 := rfl
  have ha : m.lambda * (1 / m.mu) = 1 / 2 := show (1 / 2 : ℝ) * (1 / 1) = 1 / 2 by norm_num
  have hv : m.isValid = true :=
    show isValidRates (if (1 / 2 : ℝ) = 1 then 1 else 1 / 2 / 1) ((1 : ℕ) : ℝ) (1 / 2) 1 = true by
      norm_num [isValidRates]
  refine ⟨hv, ?_,
    sum_transition_lt (by norm_num) (fun n => by split_ifs <;> norm_num) zero_lt_one (by norm_num)⟩
  rw [hK, ha]
  refine (sum_transition_lt (by norm_num) (fun _ => by positivity) zero_lt_one (by norm_num)).trans_eq ?_
  norm_num

/-- With `exp = Real.exp` the weights are the Poisson distribution of mean `a`. -/
lemma hasSum_poissonProb {a : ℝ} (ha : 0 ≤ a) : HasSum (poissonProb Real.exp a) 1 := by
  convert ProbabilityTheory.poissonPMFRealSum ⟨a, ha⟩ using 1
  funext j
  simp [poissonProb_eq, ProbabilityTheory.poissonPMFReal, mul_div_assoc]

/-- **The mass a pass loses** is the Poisson tail `P(J > K)` of the mass of the states `1, …, K`:
the arrivals the `j` loop never reaches. -/
theorem sum_transition_add_lost {K : ℕ} {a : ℝ} (ha : 0 ≤ a) (p : ℕ → ℝ) :
    ∑ s in range (K + 1), transition K (poissonProb Real.exp a) p s +
        tsum (fun j => poissonProb Real.exp a (j + (K + 1))) * ∑ n in range K, p (n + 1) =
      ∑ n in range (K + 1), p n := by
  have htail := sum_add_tsum_nat_add (K + 1) (hasSum_poissonProb ha).summable
  rw [(hasSum_poissonProb ha).tsum_eq] at htail
  rw [sum_transition, sum_range_succ' p K]
  linear_combination (∑ n in range K, p (n + 1)) * htail

theorem sum_transition_add_lost_one :
    ∑ s in range 2, transition 1 (poissonProb Real.exp 1) (fun n => if n = 1 then 1 else 0) s +
        tsum (fun j => poissonProb Real.exp 1 (j + 2)) * ∑ n in range 1, (if n + 1 = 1 then (1 : ℝ) else 0) =
      ∑ n in range 2, (if n = 1 then (1 : ℝ) else 0) :=
  sum_transition_add_lost zero_le_one _

/-! ## The fields `computeStatistics` sets -/

section Fields

variable {exp : α → α} {m : MD1KModel α} (hv : m.isValid = true)
include hv

lemma MD1KModel.computeStatistics_p :
    (m.computeStatistics exp).p = fun i => m.iterated exp i / ∑ k in range (m.K + 1), m.iterated exp k := by
  simp only [MD1KModel.computeStatistics, hv, Bool.not_true]; rfl

lemma MD1KModel.computeStatistics_throughput :
    (m.computeStatistics exp).throughput = m.lambda * (1 - (m.computeStatistics exp).p m.K) := by
  simp only [MD1KModel.computeStatistics, hv, Bool.not_true]; rfl

lemma MD1KModel.computeStatistics_avgNumInSystem : (m.computeStatistics exp).avgNumInSystem =
    ∑ i in range (m.K + 1), (i : α) * (m.computeStatistics exp).p i := by
  simp only [MD1KModel.computeStatistics, hv, Bool.not_true]; rfl

lemma MD1KModel.computeStatistics_avgRespTime : (m.computeStatistics exp).avgRespTime =
    (m.computeStatistics exp).avgNumInSystem / (m.computeStatistics exp).throughput := by
  simp only [MD1KModel.computeStatistics, hv, Bool.not_true]; rfl

lemma MD1KModel.computeStatistics_avgServTime : (m.computeStatistics exp).avgServTime = 1 / m.mu := by
  simp only [MD1KModel.computeStatistics, hv, Bool.not_true]; rfl

lemma MD1KModel.computeStatistics_avgWaitTime : (m.computeStatistics exp).avgWaitTime =
    let wait := (m.computeStatistics exp).avgRespTime - (m.computeStatistics exp).avgServTime
    if wait < 0 then 0 else wait := by
  simp only [MD1KModel.computeStatistics, hv, Bool.not_true]; rfl

end Fields

/-! ## Positive divisors -/

section Positive

variable (m : MD1KModel ℝ)

/-- **The invariant of the iteration**: non-negative entries, and `p[0]` at least its uniform
start, since state `0` keeps its mass and receives more. -/
theorem iterated_inv (hl : 0 ≤ m.lambda) (hmu : 0 < m.mu) :
    (∀ n, 0 ≤ m.iterated Real.exp n) ∧ 1 / ((m.K : ℝ) + 1) ≤ m.iterated Real.exp 0 := by
  have hprob := poissonProb_nonneg (mul_nonneg hl (one_div_pos.2 hmu).le)
  exact iterate_inv m.K _ (P := fun q => (∀ n, 0 ≤ q n) ∧ 1 / ((m.K : ℝ) + 1) ≤ q 0)
    (fun q hq => ⟨transition_nonneg _ _ hq.1 hprob, hq.2.trans (le_transition_zero _ _ hq.1 hprob)⟩)
    maxIter _ ⟨fun _ => by positivity, le_rfl⟩

/-- `sumP`, the divisor of the normalisation, is positive. -/
lemma sum_iterated_pos (hl : 0 ≤ m.lambda) (hmu : 0 < m.mu) :
    0 < ∑ i in range (m.K + 1), m.iterated Real.exp i := by
  obtain ⟨hnn, h0⟩ := iterated_inv m hl hmu
  exact (lt_of_lt_of_le (by positivity) h0).trans_le
    (single_le_sum (fun i _ => hnn i) (mem_range.2 (Nat.succ_pos _)))

/-- **`MD1KModel.computeStatistics` divides by positive numbers when `λ > 0`**: the normalisation
divisor `sumP` and the throughput `X` that `R = N / X` divides by. -/
theorem computeStatistics_divisors_pos (hv : m.isValid = true) (hK : 0 < m.K)
    (hl : 0 < m.lambda) (hmu : 0 < m.mu) :
    0 < ∑ i in range (m.K + 1), m.iterated Real.exp i ∧
      0 < (m.computeStatistics Real.exp).throughput := by
  obtain ⟨hnn, h0⟩ := iterated_inv m hl.le hmu
  have hs := sum_iterated_pos m hl.le hmu
  have hlt : m.iterated Real.exp m.K < ∑ i in range (m.K + 1), m.iterated Real.exp i := by
    rw [sum_range_succ]
    exact lt_add_of_pos_left _ ((lt_of_lt_of_le (by positivity) h0).trans_le
      (single_le_sum (fun i _ => hnn i) (mem_range.2 hK)))
  refine ⟨hs, ?_⟩
  rw [MD1KModel.computeStatistics_throughput hv, MD1KModel.computeStatistics_p hv]
  exact mul_pos hl (sub_pos.2 ((div_lt_one hs).2 hlt))

/-- **`computeProbabilities` returns a probability vector** for `λ ≥ 0` and `μ > 0`: the final
normalisation restores the mass the passes lose. -/
theorem computeProbabilities_isDistribution (hl : 0 ≤ m.lambda) (hmu : 0 < m.mu) :
    IsDistribution m.K (m.computeProbabilities Real.exp).p := by
  obtain ⟨hnn, -⟩ := iterated_inv m hl hmu
  have hs := sum_iterated_pos m hl hmu
  refine ⟨fun n _ => div_nonneg (hnn n) hs.le, ?_⟩
  simp only [MD1KModel.computeProbabilities]
  rw [← sum_div, div_self hs.ne']

theorem computeProbabilities_isDistribution_half :
    let m : MD1KModel ℝ := { newMD1KModel 2 with lambda := 1 / 2, mu := 1 }
    IsDistribution m.K (m.computeProbabilities Real.exp).p :=
  computeProbabilities_isDistribution _ (by norm_num [newMD1KModel]) (by norm_num)

theorem computeStatistics_divisors_pos_half :
    let m : MD1KModel ℝ := { newMD1KModel 1 with lambda := 1 / 2, mu := 1, isValid := true }
    0 < ∑ i in range (m.K + 1), m.iterated Real.exp i ∧
      0 < (m.computeStatistics Real.exp).throughput :=
  computeStatistics_divisors_pos _ rfl (by norm_num [newMD1KModel]) (by norm_num) (by norm_num)

end Positive

/-! ## The fixed points of a pass -/

/-- **A pass fixes exactly the vectors with no mass on the busy states.** For `a > 0`, a
non-negative vector is left unchanged on `0, …, K` by a pass of the iteration exactly when
`p[1] = … = p[K] = 0`: a pass keeps `p[0]` and scales the busy mass by `P(J ≤ K) < 1` before
moving it, so the iteration can only settle on the empty system, never on the M/D/1/K
distribution, which is positive on every state. -/
theorem transition_fixed_iff {K : ℕ} {a : ℝ} (ha : 0 < a) {p : ℕ → ℝ} (hp : ∀ n, 0 ≤ p n) :
    (∀ s ≤ K, transition K (poissonProb Real.exp a) p s = p s) ↔ ∀ n, 0 < n → n ≤ K → p n = 0 := by
  constructor
  · intro hfix
    have hsum := sum_transition K (poissonProb Real.exp a) p
    rw [sum_congr rfl fun s hs => hfix s (Nat.lt_succ_iff.1 (mem_range.1 hs)), sum_range_succ'] at hsum
    have hq := sum_poissonProb_lt_one ha K
    have hbusy : (1 - ∑ j in range (K + 1), poissonProb Real.exp a j) *
        ∑ n in range K, p (n + 1) = 0 := by linarith
    have hB := (mul_eq_zero.1 hbusy).resolve_left (by linarith)
    intro n hn hnK
    obtain ⟨k, rfl⟩ : ∃ k, n = k + 1 := ⟨n - 1, by omega⟩
    exact (sum_eq_zero_iff_of_nonneg fun i _ => hp (i + 1)).1 hB k (mem_range.2 (by omega))
  · intro h s hs
    rw [transition_apply, sum_eq_zero fun n hn => sum_eq_zero fun j _ => by
      rw [h (n + 1) n.succ_pos (mem_range.1 hn), zero_mul, ite_self], add_zero]
    rcases Nat.eq_zero_or_pos s with rfl | hs0
    · exact if_pos rfl
    · rw [if_neg hs0.ne', h s hs0 hs]

theorem transition_fixed_iff_one :
    (∀ s ≤ 1, transition 1 (poissonProb Real.exp 1) (fun n => if n = 0 then 1 else 0) s =
      if s = 0 then 1 else 0) ↔ ∀ n : ℕ, 0 < n → n ≤ 1 → (if n = 0 then (1 : ℝ) else 0) = 0 :=
  transition_fixed_iff one_pos fun n => by split_ifs <;> norm_num

end InfernoAutoscaler.Analyzer
