import Mathlib
import InfernoAutoscaler.Analyzer.StateDependent.Probabilities

/-!
# The statistics of the state-dependent model

`computeStatistics` on a valid model with `λ > 0` and `1 ≤ num ≤ K`:

* `statsLoop_avgNumInSystem`, `statsLoop_sumP`, `statsLoop_avgNumInServers` — the loop invariant;
* `snapshot_eq_sum_min` — the snapshot taken at `i == num` is `N_s = Σ min(n, num)·p[n]`, because
  `1 - Σ_{n≤num} p[n]` is the mass above `num`; with `K < num` it is never taken, and
  for `λ > 0` the model reports `S = 0` at a positive throughput (`computeStatistics_of_K_lt_num`);
* `computeStatistics_closedForm` — the stored statistics in closed form: `X = λ(1 - p[K]) ∈ (0, λ]`,
  `W = ½ Σ (n - num)⁺ p[n] / X ≥ 0` (the clamp never fires), `R = W + S`, `N = X R = (N + N_s)/2`.
-/

namespace InfernoAutoscaler.Analyzer

open Finset

variable {α : Type} [LinearOrderedField α]

/-! ## The loop of `computeStatistics` -/

section Loop

variable (p : ℕ → α) (num : ℕ)

lemma statsLoop_avgNumInSystem (n : ℕ) :
    (statsLoop p num n).avgNumInSystem = ∑ i in range (n + 1), (i : α) * p i := by
  induction n with
  | zero => simp [statsLoop]
  | succ n ih => rw [sum_range_succ, ← ih]; rfl

lemma statsLoop_sumP (n : ℕ) : (statsLoop p num n).sumP = ∑ i in range (n + 1), p i := by
  induction n with
  | zero => simp [statsLoop]
  | succ n ih => rw [sum_range_succ, ← ih]; rfl

/-- The snapshot is taken once, in the round `i = num`, and kept after it. -/
lemma statsLoop_avgNumInServers (n : ℕ) :
    (statsLoop p num n).avgNumInServers = if 0 < num ∧ num ≤ n then
      (∑ i in range (num + 1), (i : α) * p i) + (1 - ∑ i in range (num + 1), p i) * num
    else 0 := by
  induction n with
  | zero => rw [if_neg (by omega)]; rfl
  | succ n ih =>
    simp only [statsLoop]
    by_cases h : n + 1 = num
    · subst h
      rw [if_pos rfl, if_pos ⟨n.succ_pos, le_rfl⟩, sum_range_succ _ (n + 1), sum_range_succ _ (n + 1),
        ← statsLoop_avgNumInSystem, ← statsLoop_sumP]
    · rw [if_neg h, ih]
      exact if_congr (and_congr_right fun _ => by omega) rfl rfl

/-- With `Σ_{n≤K} p[n] = 1` and `num ≤ K`, the snapshot is the mean of `min(n, num)`. -/
lemma snapshot_eq_sum_min {K : ℕ} (hsum : ∑ i in range (K + 1), p i = 1) (hnum : num ≤ K) :
    (∑ i in range (num + 1), (i : α) * p i) + (1 - ∑ i in range (num + 1), p i) * num =
      ∑ i in range (K + 1), ((min i num : ℕ) : α) * p i := by
  obtain ⟨d, rfl⟩ := Nat.exists_eq_add_of_le hnum
  rw [show num + d + 1 = num + 1 + d by omega] at hsum ⊢
  rw [sum_range_add] at hsum
  rw [sum_range_add (fun i => ((min i num : ℕ) : α) * p i)]
  have hlow : ∑ i in range (num + 1), ((min i num : ℕ) : α) * p i =
      ∑ i in range (num + 1), (i : α) * p i :=
    sum_congr rfl fun i hi => by rw [min_eq_left (Nat.lt_succ_iff.1 (mem_range.1 hi))]
  have hhigh : ∑ x in range d, ((min (num + 1 + x) num : ℕ) : α) * p (num + 1 + x) =
      num * ∑ x in range d, p (num + 1 + x) := by
    rw [mul_sum]; exact sum_congr rfl fun x _ => by rw [min_eq_right (by omega)]
  rw [hlow, hhigh]
  linear_combination -(num : α) * hsum

/-- `n - min(n, num)` is the truncated `(n - num)⁺`. -/
lemma cast_sub_min (n num : ℕ) : (n : α) - ((min n num : ℕ) : α) = ((n - num : ℕ) : α) := by
  rcases le_total n num with h | h
  · rw [min_eq_left h, Nat.sub_eq_zero_of_le h, sub_self, Nat.cast_zero]
  · rw [min_eq_right h, Nat.cast_sub h]

end Loop

/-! ## The fields `computeStatistics` sets -/

section Fields

variable {m : MD1ModelStateDependent α} (hv : m.isValid = true)
include hv

lemma computeStatistics_p : m.computeStatistics.p = m.computeProbabilitiesApprox.p := by
  simp only [MD1ModelStateDependent.computeStatistics, hv, Bool.not_true]; rfl

lemma computeStatistics_throughput :
    m.computeStatistics.throughput = m.lambda * (1 - m.computeProbabilitiesApprox.p m.K) := by
  simp only [MD1ModelStateDependent.computeStatistics, hv, Bool.not_true]; rfl

lemma computeStatistics_avgNumInServers : m.computeStatistics.avgNumInServers =
    (statsLoop m.computeProbabilitiesApprox.p m.servRate.length m.K).avgNumInServers := by
  simp only [MD1ModelStateDependent.computeStatistics, hv, Bool.not_true]; rfl

lemma computeStatistics_avgServTime :
    m.computeStatistics.avgServTime =
      m.computeStatistics.avgNumInServers / m.computeStatistics.throughput := by
  simp only [MD1ModelStateDependent.computeStatistics, hv, Bool.not_true]; rfl

/-- The waiting time before the recomputations: half of `N / X - N_s / X`, clamped at `0`. -/
lemma computeStatistics_avgWaitTime : m.computeStatistics.avgWaitTime =
    let w := (statsLoop m.computeProbabilitiesApprox.p m.servRate.length m.K).avgNumInSystem /
        m.computeStatistics.throughput - m.computeStatistics.avgServTime
    if 1 / 2 * w < 0 then 0 else 1 / 2 * w := by
  simp only [MD1ModelStateDependent.computeStatistics, hv, Bool.not_true]; rfl

lemma computeStatistics_avgRespTime :
    m.computeStatistics.avgRespTime =
      m.computeStatistics.avgWaitTime + m.computeStatistics.avgServTime := by
  simp only [MD1ModelStateDependent.computeStatistics, hv, Bool.not_true]; rfl

lemma computeStatistics_avgNumInSystem :
    m.computeStatistics.avgNumInSystem =
      m.computeStatistics.throughput * m.computeStatistics.avgRespTime := by
  simp only [MD1ModelStateDependent.computeStatistics, hv, Bool.not_true]; rfl

lemma computeStatistics_avgQueueLength :
    m.computeStatistics.avgQueueLength =
      m.computeStatistics.throughput * m.computeStatistics.avgWaitTime := by
  simp only [MD1ModelStateDependent.computeStatistics, hv, Bool.not_true]; rfl

/-- **More batch sizes than places**: with `K < num` the loop never reaches the round `i = num`,
so the snapshot stays `0`.  For `λ > 0` and `K ≥ 1` the throughput is positive, and
`computeStatistics` reports `N_s = 0`, `S = N_s / X = 0` and `R = W`. -/
theorem computeStatistics_of_K_lt_num (hl : 0 < m.lambda) (hpos : ∀ r ∈ m.servRate, 0 < r)
    (hK0 : 0 < m.K) (hK : m.K < m.servRate.length) :
    0 < m.computeStatistics.throughput ∧ m.computeStatistics.avgNumInServers = 0 ∧
      m.computeStatistics.avgServTime = 0 ∧
      m.computeStatistics.avgRespTime = m.computeStatistics.avgWaitTime := by
  have hne : m.servRate ≠ [] := List.length_pos.1 (hK0.trans hK)
  have hX : 0 < m.computeStatistics.throughput := by
    rw [computeStatistics_throughput hv]
    exact mul_pos hl (sub_pos.2 (computeProbabilitiesApprox_p_K_lt_one hne hpos hl.le hK0))
  have hNs : m.computeStatistics.avgNumInServers = 0 := by
    rw [computeStatistics_avgNumInServers hv, statsLoop_avgNumInServers, if_neg (by omega)]
  have hS : m.computeStatistics.avgServTime = 0 := by
    rw [computeStatistics_avgServTime hv, hNs, zero_div]
  exact ⟨hX, hNs, hS, by rw [computeStatistics_avgRespTime hv, hS, add_zero]⟩

end Fields

theorem computeStatistics_of_K_lt_num_two :
    let m : MD1ModelStateDependent ℚ :=
      { newMD1ModelStateDependent 2 [1, 2, 3] with lambda := 1 / 2, isValid := true }
    0 < m.computeStatistics.throughput ∧ m.computeStatistics.avgNumInServers = 0 ∧
      m.computeStatistics.avgServTime = 0 ∧
      m.computeStatistics.avgRespTime = m.computeStatistics.avgWaitTime :=
  computeStatistics_of_K_lt_num rfl (by norm_num)
    (by simp [newMD1ModelStateDependent]) (by decide) (by decide)

/-! ## Closed forms -/

/-- What `computeStatistics` leaves in a model, in closed form, with `p` the balance probabilities
and `num = len(servRate)`. -/
structure ClosedFormStatistics (m : MD1ModelStateDependent α) : Prop where
  throughput_eq : m.computeStatistics.throughput = m.lambda * (1 - m.computeProbabilitiesApprox.p m.K)
  throughput_pos : 0 < m.computeStatistics.throughput
  throughput_le : m.computeStatistics.throughput ≤ m.lambda
  avgNumInServers_eq : m.computeStatistics.avgNumInServers =
    ∑ n in range (m.K + 1), ((min n m.servRate.length : ℕ) : α) * m.computeProbabilitiesApprox.p n
  avgWaitTime_eq : m.computeStatistics.avgWaitTime = 1 / 2 * ((∑ n in range (m.K + 1),
    ((n - m.servRate.length : ℕ) : α) * m.computeProbabilitiesApprox.p n) /
      m.computeStatistics.throughput)
  avgWaitTime_nonneg : 0 ≤ m.computeStatistics.avgWaitTime
  avgServTime_eq : m.computeStatistics.avgServTime =
    m.computeStatistics.avgNumInServers / m.computeStatistics.throughput
  avgRespTime_eq : m.computeStatistics.avgRespTime =
    m.computeStatistics.avgWaitTime + m.computeStatistics.avgServTime
  avgNumInSystem_eq_mul : m.computeStatistics.avgNumInSystem =
    m.computeStatistics.throughput * m.computeStatistics.avgRespTime
  avgNumInSystem_eq_half : m.computeStatistics.avgNumInSystem = ((∑ n in range (m.K + 1),
    (n : α) * m.computeProbabilitiesApprox.p n) + m.computeStatistics.avgNumInServers) / 2
  avgQueueLength_eq : m.computeStatistics.avgQueueLength =
    m.computeStatistics.throughput * m.computeStatistics.avgWaitTime

section ClosedForm

variable {m : MD1ModelStateDependent α} (hv : m.isValid = true) (hl : 0 < m.lambda)
  (hne : m.servRate ≠ []) (hnum : m.servRate.length ≤ m.K) (hpos : ∀ r ∈ m.servRate, 0 < r)
include hv hl hne hnum hpos

lemma computeStatistics_throughput_pos : 0 < m.computeStatistics.throughput := by
  rw [computeStatistics_throughput hv]
  exact mul_pos hl (sub_pos.2 (computeProbabilitiesApprox_p_K_lt_one hne hpos hl.le
    ((List.length_pos.2 hne).trans_le hnum)))

/-- `N_s = Σ min(n, num)·p[n]`. -/
lemma computeStatistics_avgNumInServers_eq : m.computeStatistics.avgNumInServers =
    ∑ n in range (m.K + 1), ((min n m.servRate.length : ℕ) : α) * m.computeProbabilitiesApprox.p n := by
  rw [computeStatistics_avgNumInServers hv, statsLoop_avgNumInServers,
    if_pos ⟨List.length_pos.2 hne, hnum⟩]
  exact snapshot_eq_sum_min _ _ (computeProbabilitiesApprox_isDistribution hne hpos hl.le).sum_eq_one
    hnum

omit hv hnum in
/-- The mean queue `Σ (n - num)⁺ p[n]` is non-negative. -/
lemma sum_excess_nonneg : 0 ≤ ∑ n in range (m.K + 1), ((n - m.servRate.length : ℕ) : α) *
    m.computeProbabilitiesApprox.p n :=
  sum_nonneg fun n hn => mul_nonneg (Nat.cast_nonneg _)
    ((computeProbabilitiesApprox_isDistribution hne hpos hl.le).nonneg n
      (Nat.lt_succ_iff.1 (mem_range.1 hn)))

/-- The waiting time is half the mean queue `Σ (n - num)⁺ p[n]` over `X`; it is not clamped. -/
lemma computeStatistics_avgWaitTime_eq : m.computeStatistics.avgWaitTime =
    1 / 2 * ((∑ n in range (m.K + 1), ((n - m.servRate.length : ℕ) : α) *
      m.computeProbabilitiesApprox.p n) / m.computeStatistics.throughput) := by
  have hq : (∑ n in range (m.K + 1), ((n - m.servRate.length : ℕ) : α) *
      m.computeProbabilitiesApprox.p n) = (statsLoop m.computeProbabilitiesApprox.p
        m.servRate.length m.K).avgNumInSystem - m.computeStatistics.avgNumInServers := by
    rw [statsLoop_avgNumInSystem, computeStatistics_avgNumInServers_eq hv hl hne hnum hpos,
      ← sum_sub_distrib]
    exact sum_congr rfl fun n _ => by rw [← sub_mul, cast_sub_min]
  have hnn := sum_excess_nonneg hl hne hpos
  have hX := computeStatistics_throughput_pos hv hl hne hnum hpos
  rw [computeStatistics_avgWaitTime hv, computeStatistics_avgServTime hv, ← sub_div, ← hq,
    if_neg (not_lt.2 (mul_nonneg one_half_pos.le (div_nonneg hnn hX.le)))]

/-- **The statistics of the state-dependent model in closed form.** With `p` the balance
probabilities, `N = Σ n·p[n]` and `num = len(servRate)`: `X = λ(1 - p[K])` lies in `(0, λ]`,
`N_s = Σ min(n, num)·p[n]`, `W = ½ Σ (n - num)⁺ p[n] / X ≥ 0`, `S = N_s / X`, `R = W + S`,
`N = X R = (N + N_s) / 2` after the recomputation, and `L_q = X W`. -/
theorem computeStatistics_closedForm : ClosedFormStatistics m := by
  have hd := computeProbabilitiesApprox_isDistribution hne hpos hl.le
  have hX := computeStatistics_throughput_pos hv hl hne hnum hpos
  have hW := computeStatistics_avgWaitTime_eq hv hl hne hnum hpos
  have hS := computeStatistics_avgServTime hv
  have hR := computeStatistics_avgRespTime hv
  have hN := computeStatistics_avgNumInSystem hv
  have hNs := computeStatistics_avgNumInServers_eq hv hl hne hnum hpos
  have hmin : ∀ n ∈ range (m.K + 1), ((n - m.servRate.length : ℕ) : α) *
      m.computeProbabilitiesApprox.p n = (n : α) * m.computeProbabilitiesApprox.p n -
        ((min n m.servRate.length : ℕ) : α) * m.computeProbabilitiesApprox.p n :=
    fun n _ => by rw [← sub_mul, cast_sub_min]
  refine ⟨computeStatistics_throughput hv, hX, ?_, hNs, hW, ?_, hS, hR, hN, ?_,
    computeStatistics_avgQueueLength hv⟩
  · rw [computeStatistics_throughput hv]
    exact mul_le_of_le_one_right hl.le (sub_le_self _ (hd.nonneg _ le_rfl))
  · rw [hW]
    exact mul_nonneg one_half_pos.le (div_nonneg (sum_excess_nonneg hl hne hpos) hX.le)
  · rw [hN, hR, hW, hS, sum_congr rfl hmin, sum_sub_distrib, ← hNs, mul_add, mul_left_comm,
      mul_div_cancel₀ _ hX.ne', mul_div_cancel₀ _ hX.ne']
    ring

end ClosedForm

theorem computeStatistics_closedForm_half :
    ClosedFormStatistics ({ newMD1ModelStateDependent 2 [1] with lambda := 1 / 2, isValid := true } :
      MD1ModelStateDependent ℚ) :=
  computeStatistics_closedForm rfl (by norm_num) (by simp [newMD1ModelStateDependent]) (by decide)
    (by simp [newMD1ModelStateDependent])

end InfernoAutoscaler.Analyzer
