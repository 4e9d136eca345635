import Mathlib
import InfernoAutoscaler.Analyzer.EmbeddedChain.Iteration

/-!
# The response time of the M/D/1/K model

State `0` of the embedded chain keeps its mass (`pNew[0] += p[0]`) while every other state sends
some of its mass down, so the iteration drains the vector into the empty state and the mean number
in system it reports is small against the throughput.  With `K = 1` a pass multiplies `p[1]` by
`r = a·e^{-a}` and does not lower `p[0]`, so after any pass `p[1] ≤ r · p[0]`
(`transition_one_inv`, `iterated_one_le`);
then `R = N / X = p[1] / (λ p[0]) ≤ e^{-a} / μ < 1 / μ = S` (`respTime_lt_servTime_of_K_one`),
and the clamp of `W = R - S` at `0` fires.
-/

namespace InfernoAutoscaler.Analyzer

open Finset

variable {α : Type} [LinearOrderedField α]

/-- One pass on two states: `pNew[0] = p[0] + p[1]·prob(0)`, `pNew[1] = p[1]·prob(1)`. -/
lemma transition_one (prob p : ℕ → α) :
    transition 1 prob p 0 = p 0 + p 1 * prob 0 ∧ transition 1 prob p 1 = p 1 * prob 1 := by
  simp [transition_apply, sum_range_succ]

lemma poissonProb_zero_one (a : ℝ) :
    poissonProb Real.exp a 0 = Real.exp (-a) ∧ poissonProb Real.exp a 1 = a * Real.exp (-a) := by
  simp [poissonProb, factorial, mul_comm]

/-- `a·e^{-a} ≤ 1`. -/
lemma mul_exp_neg_le_one (a : ℝ) : a * Real.exp (-a) ≤ 1 := by
  rw [Real.exp_neg, ← div_eq_mul_inv, div_le_one (Real.exp_pos a)]
  linarith [Real.add_one_le_exp a]

section Two

variable {a : ℝ} (ha : 0 ≤ a)
include ha

/-- **One pass on two states keeps `0 < p[0]` and `0 ≤ p[1] ≤ a·e^{-a}·p[0]`**: `p[1]` is
multiplied by `a·e^{-a} ≤ 1`, and `p[0]` only grows. -/
lemma transition_one_inv {q : ℕ → ℝ} (hq : 0 < q 0 ∧ 0 ≤ q 1 ∧ q 1 ≤ a * Real.exp (-a) * q 0) :
    let q' := transition 1 (poissonProb Real.exp a) q
    0 < q' 0 ∧ 0 ≤ q' 1 ∧ q' 1 ≤ a * Real.exp (-a) * q' 0 := by
  obtain ⟨hq0, hq1, hq⟩ := hq
  have hr0 : 0 ≤ a * Real.exp (-a) := mul_nonneg ha (Real.exp_pos _).le
  obtain ⟨h0, h1⟩ := transition_one (poissonProb Real.exp a) q
  obtain ⟨hp0, hp1⟩ := poissonProb_zero_one a
  simp only [h0, h1, hp0, hp1]
  refine ⟨by positivity, mul_nonneg hq1 hr0, ?_⟩
  calc q 1 * (a * Real.exp (-a)) ≤ a * Real.exp (-a) * q 0 * 1 :=
        mul_le_mul hq (mul_exp_neg_le_one a) hr0 (mul_nonneg hr0 hq0.le)
    _ ≤ a * Real.exp (-a) * (q 0 + q 1 * Real.exp (-a)) := by
        rw [mul_one]; exact mul_le_mul_of_nonneg_left (le_add_of_nonneg_right (by positivity)) hr0

/-- The first pass, from the uniform vector `(1/2, 1/2)`, establishes the invariant. -/
lemma transition_one_uniform :
    let q' := transition 1 (poissonProb Real.exp a) (fun _ => 1 / 2)
    0 < q' 0 ∧ 0 ≤ q' 1 ∧ q' 1 ≤ a * Real.exp (-a) * q' 0 := by
  obtain ⟨h0, h1⟩ := transition_one (poissonProb Real.exp a) (fun _ => (1 : ℝ) / 2)
  obtain ⟨hp0, hp1⟩ := poissonProb_zero_one a
  simp only [h0, h1, hp0, hp1]
  have hr0 : 0 ≤ a * Real.exp (-a) := mul_nonneg ha (Real.exp_pos _).le
  refine ⟨by positivity, by positivity, ?_⟩
  rw [mul_comm]
  exact mul_le_mul_of_nonneg_left (le_add_of_nonneg_right (by positivity)) hr0

end Two

section One

variable (m : MD1KModel ℝ)

/-- **The invariant on two states**: after any pass, `0 < p[0]` and `0 ≤ p[1] ≤ a·e^{-a}·p[0]`. -/
theorem iterated_one_le (hK : m.K = 1) (hl : 0 < m.lambda) (hmu : 0 < m.mu) :
    0 < m.iterated Real.exp 0 ∧ 0 ≤ m.iterated Real.exp 1 ∧
      m.iterated Real.exp 1 ≤ m.lambda * (1 / m.mu) * Real.exp (-(m.lambda * (1 / m.mu))) *
        m.iterated Real.exp 0 := by
  set a := m.lambda * (1 / m.mu)
  have ha : 0 ≤ a := (mul_pos hl (one_div_pos.2 hmu)).le
  have hiter : m.iterated Real.exp = iterate 1 (poissonProb Real.exp a) (9999 + 1) (fun _ => 1 / 2) := by
    rw [MD1KModel.iterated, hK, Nat.cast_one, one_add_one_eq_two]; rfl
  rw [hiter]
  exact iterate_succ_inv 1 _ (P := fun q => 0 < q 0 ∧ 0 ≤ q 1 ∧ q 1 ≤ a * Real.exp (-a) * q 0)
    (fun _ hq => transition_one_inv ha hq) 9999 _ (transition_one_uniform ha)

/-- With one place in the system, the response time `N / X` is below the service time `1 / μ`. -/
theorem respTime_lt_servTime_of_K_one (hv : m.isValid = true) (hK : m.K = 1)
    (hl : 0 < m.lambda) (hlm : m.lambda < m.mu) :
    (m.computeStatistics Real.exp).avgRespTime < (m.computeStatistics Real.exp).avgServTime := by
  have hmu := hl.trans hlm
  obtain ⟨hq0, hq1, hq⟩ := iterated_one_le m hK hl hmu
  set q := m.iterated Real.exp
  have hs : 0 < q 0 + q 1 := by linarith
  have hsum : ∑ k in range (m.K + 1), q k = q 0 + q 1 := by rw [hK]; simp [sum_range_succ]
  have he : Real.exp (-(m.lambda * (1 / m.mu))) < 1 :=
    Real.exp_lt_one_iff.2 (neg_lt_zero.2 (mul_pos hl (one_div_pos.2 hmu)))
  rw [MD1KModel.computeStatistics_avgRespTime hv, MD1KModel.computeStatistics_avgNumInSystem hv,
    MD1KModel.computeStatistics_throughput hv, MD1KModel.computeStatistics_avgServTime hv,
    MD1KModel.computeStatistics_p hv, hsum, hK]
  simp only [sum_range_succ, sum_range_zero, Nat.cast_zero, Nat.cast_one, zero_mul, zero_add, one_mul]
  rw [one_sub_div hs.ne', add_sub_cancel_right, ← mul_div_assoc, div_div_div_cancel_right₀ hs.ne']
  calc q 1 / (m.lambda * q 0)
      ≤ m.lambda * (1 / m.mu) * Real.exp (-(m.lambda * (1 / m.mu))) * q 0 / (m.lambda * q 0) :=
        div_le_div_of_nonneg_right hq (mul_pos hl hq0).le
    _ = 1 / m.mu * Real.exp (-(m.lambda * (1 / m.mu))) := by
        rw [show m.lambda * (1 / m.mu) * Real.exp (-(m.lambda * (1 / m.mu))) * q 0 =
          1 / m.mu * Real.exp (-(m.lambda * (1 / m.mu))) * (m.lambda * q 0) by ring,
          mul_div_cancel_right₀ _ (mul_pos hl hq0).ne']
    _ < 1 / m.mu * 1 := mul_lt_mul_of_pos_left he (one_div_pos.2 hmu)
    _ = 1 / m.mu := mul_one _

/-- **The response time falls below the service time.** With `K = 1`, for every admissible
`0 < λ < μ`: `R < S`, so the clamp sets `W = 0` and `R = W + S` fails, `R < W + S`. -/
theorem computeStatistics_respTime_lt_servTime (hv : m.isValid = true) (hK : m.K = 1)
    (hl : 0 < m.lambda) (hlm : m.lambda < m.mu) :
    (m.computeStatistics Real.exp).avgRespTime < (m.computeStatistics Real.exp).avgServTime ∧
    (m.computeStatistics Real.exp).avgWaitTime = 0 ∧
    (m.computeStatistics Real.exp).avgRespTime <
      (m.computeStatistics Real.exp).avgWaitTime + (m.computeStatistics Real.exp).avgServTime := by
  have h := respTime_lt_servTime_of_K_one m hv hK hl hlm
  have hW : (m.computeStatistics Real.exp).avgWaitTime = 0 := by
    rw [MD1KModel.computeStatistics_avgWaitTime hv]; exact if_pos (sub_neg.2 h)
  exact ⟨h, hW, by rw [hW, zero_add]; exact h⟩

end One

theorem computeStatistics_respTime_lt_servTime_half :
    let m : MD1KModel ℝ := { newMD1KModel 1 with lambda := 1 / 2, mu := 1, isValid := true }
    (m.computeStatistics Real.exp).avgRespTime < (m.computeStatistics Real.exp).avgServTime ∧
    (m.computeStatistics Real.exp).avgWaitTime = 0 ∧
    (m.computeStatistics Real.exp).avgRespTime <
      (m.computeStatistics Real.exp).avgWaitTime + (m.computeStatistics Real.exp).avgServTime :=
  computeStatistics_respTime_lt_servTime _ rfl rfl (by norm_num) (by norm_num)

/-- `S ≤ R` fails at `K = 1`, `λ = 1/2`, `μ = 1`. -/
theorem servTime_le_respTime_fails :
    let m : MD1KModel ℝ := { newMD1KModel 1 with lambda := 1 / 2, mu := 1, isValid := true }
    ¬ (m.computeStatistics Real.exp).avgServTime ≤ (m.computeStatistics Real.exp).avgRespTime :=
  not_le.2 (respTime_lt_servTime_of_K_one _ rfl rfl (by norm_num) (by norm_num))

end InfernoAutoscaler.Analyzer
