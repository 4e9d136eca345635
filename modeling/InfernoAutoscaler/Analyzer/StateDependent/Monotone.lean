import InfernoAutoscaler.Analyzer.StateDependent.Statistics

/-!
# Monotonicity in the arrival rate

The sizing bisection assumes that the latencies grow with the load.  Each statistic the
state-dependent model reports is a mean of a monotone function under the stationary weights
(`throughput_eq_weightedMean`, `avgNumInServers_eq_weightedMean`, `avgWaitTime_eq_weightedMean`),
and such means grow with `λ` (`weightedMean_mono`):

* `computeStatistics_wait_mono` — `W` and `N_s` do not decrease when `λ` grows;
* `computeStatistics_throughput_mono` — with non-decreasing batch rates, neither does `X`.

The waiting time is a mean over `0, …, K - 1`: shifting `Σ (n - num)⁺ p[n]` down one state turns
it into `λ Σ_{m<K} (m + 1 - num)⁺ / servRate[min(m, num-1)] · w m`, and the rate there is the
last batch rate wherever the numerator is not zero.
-/

namespace InfernoAutoscaler.Analyzer

open Finset

variable {α : Type} [LinearOrderedField α]

/-- With non-decreasing batch rates, the rate out of a state does not decrease with the state. -/
lemma serviceRate_mono {servRate : List α} (hne : servRate ≠ [])
    (hs : servRate.Sorted (· ≤ ·)) : Monotone (serviceRate servRate) := by
  intro i j hij
  have hlt : ∀ k, min k (servRate.length - 1) < servRate.length := fun k =>
    (min_le_right _ _).trans_lt (Nat.sub_lt (List.length_pos.2 hne) one_pos)
  rw [serviceRate, serviceRate, List.getD_eq_getElem _ _ (hlt i), List.getD_eq_getElem _ _ (hlt j)]
  exact hs.rel_get_of_le (a := ⟨_, hlt i⟩) (b := ⟨_, hlt j⟩) (min_le_min_right _ hij)

section Means

variable {m : MD1ModelStateDependent α} (hv : m.isValid = true) (hl : 0 < m.lambda)
  (hne : m.servRate ≠ []) (hnum : m.servRate.length ≤ m.K) (hpos : ∀ r ∈ m.servRate, 0 < r)
include hv hl hne hpos

/-- `X = λ · Σ_{n<K} w n / Σ_{n≤K} w n`: the arrivals that find room. -/
lemma throughput_eq_mul_sum : m.computeStatistics.throughput =
    m.lambda * (∑ n in range m.K, weight m.lambda (serviceRate m.servRate) n) /
      ∑ n in range (m.K + 1), weight m.lambda (serviceRate m.servRate) n := by
  have hZ := sum_weight_pos (K := m.K) hl.le (serviceRate_pos hne hpos)
  rw [computeStatistics_throughput hv, computeProbabilitiesApprox_p m le_rfl, stationary,
    sum_range_succ] at *
  rw [one_sub_div hZ.ne', add_sub_cancel_right, mul_div_assoc]

/-- **The throughput is the mean departure rate** `Σ_{n=1..K} servRate[min(n-1, num-1)] · p[n]`. -/
lemma throughput_eq_weightedMean : m.computeStatistics.throughput = weightedMean m.lambda
    (serviceRate m.servRate) (departureRate (serviceRate m.servRate)) (m.K + 1) := by
  have hμ := serviceRate_pos hne hpos
  rw [throughput_eq_mul_sum hv hl hne hpos, weightedMean, sum_range_succ' (fun n =>
    departureRate _ n * weight m.lambda (serviceRate m.servRate) n), sum_mul_weight_succ]
  simp only [departureRate, zero_mul, add_zero, div_self (hμ _).ne', one_mul]

include hnum in
lemma avgNumInServers_eq_weightedMean : m.computeStatistics.avgNumInServers =
    weightedMean m.lambda (serviceRate m.servRate)
      (fun n => ((min n m.servRate.length : ℕ) : α)) (m.K + 1) := by
  rw [computeStatistics_avgNumInServers_eq hv hl hne hnum hpos, ← sum_mul_stationary]
  exact sum_congr rfl fun n hn => by
    rw [computeProbabilitiesApprox_p m (Nat.lt_succ_iff.1 (mem_range.1 hn))]

include hnum in
/-- **The waiting time is half the mean of `(m + 1 - num)⁺ / servRate[num-1]` over `0, …, K-1`.** -/
lemma avgWaitTime_eq_weightedMean : m.computeStatistics.avgWaitTime =
    1 / 2 * weightedMean m.lambda (serviceRate m.servRate) (fun n =>
      ((n + 1 - m.servRate.length : ℕ) : α) / serviceRate m.servRate (m.servRate.length - 1)) m.K := by
  have hμ := serviceRate_pos hne hpos
  have hZ := sum_weight_pos (K := m.K) hl.le hμ
  have hshift : ∑ n in range (m.K + 1), ((n - m.servRate.length : ℕ) : α) *
      m.computeProbabilitiesApprox.p n = m.lambda * (∑ n in range m.K,
        ((n + 1 - m.servRate.length : ℕ) : α) / serviceRate m.servRate (m.servRate.length - 1) *
          weight m.lambda (serviceRate m.servRate) n) /
        ∑ n in range (m.K + 1), weight m.lambda (serviceRate m.servRate) n := by
    rw [sum_congr rfl fun n hn => by rw [computeProbabilitiesApprox_p m
      (Nat.lt_succ_iff.1 (mem_range.1 hn)), stationary, mul_div_assoc'], ← sum_div,
      sum_range_succ', Nat.zero_sub, Nat.cast_zero, zero_mul, add_zero, sum_mul_weight_succ]
    congr 2
    refine sum_congr rfl fun n _ => ?_
    rcases le_total (n + 1) m.servRate.length with h | h
    · rw [Nat.sub_eq_zero_of_le h, Nat.cast_zero, zero_div, zero_div]
    · rw [serviceRate_of_le (by omega)]
  rw [computeStatistics_avgWaitTime_eq hv hl hne hnum hpos, hshift,
    throughput_eq_mul_sum hv hl hne hpos, weightedMean, div_div_div_cancel_right₀ hZ.ne',
    mul_div_mul_left _ _ hl.ne']

end Means

/-! ## Two runs -/

section TwoRuns

variable {m₁ m₂ : MD1ModelStateDependent α} (hK : m₁.K = m₂.K) (hs : m₁.servRate = m₂.servRate)
  (hv₁ : m₁.isValid = true) (hv₂ : m₂.isValid = true) (hl₁ : 0 < m₁.lambda)
  (hl : m₁.lambda ≤ m₂.lambda) (hne : m₁.servRate ≠ []) (hnum : m₁.servRate.length ≤ m₁.K)
  (hpos : ∀ r ∈ m₁.servRate, 0 < r)
include hK hs hv₁ hv₂ hl₁ hl hne hnum hpos

/-- **`W` and `N_s` grow with `λ`.** Two valid runs of `computeStatistics` with the same capacity
and service rates, at `0 < λ₁ ≤ λ₂`: the second has no smaller waiting time and no smaller mean
batch size. -/
theorem computeStatistics_wait_mono :
    m₁.computeStatistics.avgWaitTime ≤ m₂.computeStatistics.avgWaitTime ∧
    m₁.computeStatistics.avgNumInServers ≤ m₂.computeStatistics.avgNumInServers := by
  have hl₂ := hl₁.trans_le hl
  have hμ := serviceRate_pos hne hpos
  have hK0 : 0 < m₁.K := (List.length_pos.2 hne).trans_le hnum
  rw [avgWaitTime_eq_weightedMean hv₁ hl₁ hne hnum hpos, avgNumInServers_eq_weightedMean hv₁ hl₁ hne
    hnum hpos, avgWaitTime_eq_weightedMean hv₂ hl₂ (hs ▸ hne) (hs ▸ hK ▸ hnum) (hs ▸ hpos),
    avgNumInServers_eq_weightedMean hv₂ hl₂ (hs ▸ hne) (hs ▸ hK ▸ hnum) (hs ▸ hpos), ← hs, ← hK]
  refine ⟨mul_le_mul_of_nonneg_left (weightedMean_mono hμ ?_ hl₁ hl hK0) (by norm_num),
    weightedMean_mono hμ (fun a b hab => Nat.cast_le.2 (min_le_min_right _ hab)) hl₁ hl
      (Nat.succ_pos _)⟩
  exact fun a b hab => div_le_div_of_nonneg_right (Nat.cast_le.2 (by omega)) (hμ _).le

omit hnum in
/-- **`X` grows with `λ`** when the batch rates are non-decreasing. -/
theorem computeStatistics_throughput_mono (hsorted : m₁.servRate.Sorted (· ≤ ·)) :
    m₁.computeStatistics.throughput ≤ m₂.computeStatistics.throughput := by
  have hμ := serviceRate_pos hne hpos
  rw [throughput_eq_weightedMean hv₁ hl₁ hne hpos, throughput_eq_weightedMean hv₂
    (hl₁.trans_le hl) (hs ▸ hne) (hs ▸ hpos), ← hs, ← hK]
  exact weightedMean_mono hμ (departureRate_mono (serviceRate_mono hne hsorted) (hμ 0).le) hl₁ hl
    (Nat.succ_pos _)

end TwoRuns

theorem computeStatistics_wait_mono_half_one :
    ({ newMD1ModelStateDependent 3 [1, 2] with lambda := 1 / 2, isValid := true } :
      MD1ModelStateDependent ℚ).computeStatistics.avgWaitTime ≤
    ({ newMD1ModelStateDependent 3 [1, 2] with lambda := 1, isValid := true } :
      MD1ModelStateDependent ℚ).computeStatistics.avgWaitTime ∧
    ({ newMD1ModelStateDependent 3 [1, 2] with lambda := 1 / 2, isValid := true } :
      MD1ModelStateDependent ℚ).computeStatistics.avgNumInServers ≤
    ({ newMD1ModelStateDependent 3 [1, 2] with lambda := 1, isValid := true } :
      MD1ModelStateDependent ℚ).computeStatistics.avgNumInServers :=
  computeStatistics_wait_mono rfl rfl rfl rfl (by norm_num) (by norm_num)
    (by simp [newMD1ModelStateDependent]) (by decide) (by simp [newMD1ModelStateDependent])

theorem computeStatistics_throughput_mono_half_one :
    ({ newMD1ModelStateDependent 3 [1, 2] with lambda := 1 / 2, isValid := true } :
      MD1ModelStateDependent ℚ).computeStatistics.throughput ≤
    ({ newMD1ModelStateDependent 3 [1, 2] with lambda := 1, isValid := true } :
      MD1ModelStateDependent ℚ).computeStatistics.throughput :=
  computeStatistics_throughput_mono rfl rfl rfl rfl (by norm_num) (by norm_num)
    (by simp [newMD1ModelStateDependent]) (by simp [newMD1ModelStateDependent])
    (by simp [newMD1ModelStateDependent])

end InfernoAutoscaler.Analyzer
