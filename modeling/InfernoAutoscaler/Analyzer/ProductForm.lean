import Mathlib

/-!
# Product-form distributions of a birth-death chain

A birth-death chain on `0, …, K` with arrival rate `λ` and rate `μ k` from state `k + 1` down to
`k` solves its balance equations `λ · π n = μ n · π (n + 1)` with the weights
`weight λ μ n = Π_{k<n} λ / μ k`, normalised.  This is what the state-dependent solver computes,
and the statistics it reports are means under these weights.

* `weight_eq_pow_mul`: `weight λ μ n = λ ^ n · coeff μ n`, so the family is an exponential tilt of
  the fixed weights `coeff μ`;
* `tiltSum`, `mass` — `Σ_{n<M} f n · c n · λ ^ n` and `Σ_{n<M} c n · λ ^ n`;
* `tiltedMean_mono`: **the mean of a monotone `f` under `c n · λ ^ n` is monotone in `λ`**
  (the likelihood ratio `(λ₂ / λ₁) ^ n` of two members increases in `n`).
-/

namespace InfernoAutoscaler.Analyzer

open Finset

variable {α : Type} [LinearOrderedField α]

/-! ## Weights -/

/-- `weight λ μ n = Π_{k<n} λ / μ k`, the unnormalised balance solution. -/
def weight (lambda : α) (μ : ℕ → α) : ℕ → α
  | 0 => 1
  | n + 1 => weight lambda μ n * lambda / μ n

/-- `coeff μ n = Π_{k<n} (μ k)⁻¹`, the part of the weight that does not depend on `λ`. -/
def coeff (μ : ℕ → α) (n : ℕ) : α := ∏ k in range n, (μ k)⁻¹

section Weight

variable {lambda : α} {μ : ℕ → α}

@[simp] lemma weight_zero : weight lambda μ 0 = 1 := rfl

lemma weight_succ (n : ℕ) : weight lambda μ (n + 1) = weight lambda μ n * lambda / μ n := rfl

theorem weight_eq_pow_mul (n : ℕ) : weight lambda μ n = lambda ^ n * coeff μ n := by
  induction n with
  | zero => simp [coeff]
  | succ n ih => rw [weight_succ, ih, coeff, coeff, prod_range_succ, pow_succ, div_eq_mul_inv]; ring

lemma coeff_pos (hμ : ∀ k, 0 < μ k) (n : ℕ) : 0 < coeff μ n :=
  prod_pos fun k _ => inv_pos.2 (hμ k)

lemma weight_nonneg (hl : 0 ≤ lambda) (hμ : ∀ k, 0 < μ k) (n : ℕ) : 0 ≤ weight lambda μ n := by
  rw [weight_eq_pow_mul]; exact mul_nonneg (pow_nonneg hl n) (coeff_pos hμ n).le

lemma weight_pos (hl : 0 < lambda) (hμ : ∀ k, 0 < μ k) (n : ℕ) : 0 < weight lambda μ n := by
  rw [weight_eq_pow_mul]; exact mul_pos (pow_pos hl n) (coeff_pos hμ n)

theorem weight_eq_prod (n : ℕ) : weight lambda μ n = ∏ k in range n, lambda / μ k := by
  induction n with
  | zero => rfl
  | succ n ih => rw [weight_succ, ih, prod_range_succ, mul_div_assoc]

/-- The weights sum to at least `weight 0 = 1`. -/
lemma one_le_sum_weight (hl : 0 ≤ lambda) (hμ : ∀ k, 0 < μ k) (M : ℕ) :
    1 ≤ ∑ n in range (M + 1), weight lambda μ n := by
  rw [sum_range_succ']
  exact le_add_of_nonneg_left (sum_nonneg fun n _ => weight_nonneg hl hμ (n + 1))

end Weight

/-! ## The normalised distribution -/

/-- The stationary distribution `π n = weight n / Σ_{k≤K} weight k` of the chain on `0, …, K`. -/
def stationary (lambda : α) (μ : ℕ → α) (K n : ℕ) : α :=
  weight lambda μ n / ∑ k in range (K + 1), weight lambda μ k

/-- `p` is a probability vector on `0, …, K`. -/
structure IsDistribution (K : ℕ) (p : ℕ → α) : Prop where
  nonneg : ∀ n ≤ K, 0 ≤ p n
  sum_eq_one : ∑ n in range (K + 1), p n = 1

/-- `p` solves the balance equations `λ · p n = μ n · p (n + 1)` of the chain on `0, …, K`. -/
def IsBalanced (lambda : α) (μ : ℕ → α) (K : ℕ) (p : ℕ → α) : Prop :=
  ∀ n < K, lambda * p n = μ n * p (n + 1)

section Stationary

variable {lambda : α} {μ : ℕ → α} {K : ℕ}

lemma sum_weight_pos (hl : 0 ≤ lambda) (hμ : ∀ k, 0 < μ k) :
    0 < ∑ k in range (K + 1), weight lambda μ k :=
  zero_lt_one.trans_le (one_le_sum_weight hl hμ K)

theorem stationary_isDistribution (hl : 0 ≤ lambda) (hμ : ∀ k, 0 < μ k) :
    IsDistribution K (stationary lambda μ K) where
  nonneg n _ := div_nonneg (weight_nonneg hl hμ n) (sum_weight_pos hl hμ).le
  sum_eq_one := by simp only [stationary]; rw [← sum_div, div_self (sum_weight_pos hl hμ).ne']

lemma stationary_pos (hl : 0 < lambda) (hμ : ∀ k, 0 < μ k) (n : ℕ) :
    0 < stationary lambda μ K n :=
  div_pos (weight_pos hl hμ n) (sum_weight_pos hl.le hμ)

theorem stationary_isBalanced (hμ : ∀ k, 0 < μ k) :
    IsBalanced lambda μ K (stationary lambda μ K) := by
  intro n _
  rw [stationary, stationary, weight_succ, mul_div_assoc', mul_div_assoc', mul_div_cancel₀ _ (hμ n).ne',
    mul_comm]

theorem stationary_eq_mul_prod (n : ℕ) :
    stationary lambda μ K n = stationary lambda μ K 0 * ∏ k in range n, lambda / μ k := by
  rw [stationary, stationary, weight_zero, weight_eq_prod, one_div, inv_mul_eq_div]

end Stationary

/-! ## Tilted sums -/

/-- `Σ_{n<M} f n · (c n · λ ^ n)`. -/
def tiltSum (c f : ℕ → α) (M : ℕ) (lambda : α) : α := ∑ n in range M, f n * (c n * lambda ^ n)

/-- `Σ_{n<M} c n · λ ^ n`. -/
def mass (c : ℕ → α) (M : ℕ) (lambda : α) : α := ∑ n in range M, c n * lambda ^ n

section Tilt

variable {c f : ℕ → α} {l₁ l₂ : α}

/-- For `n ≤ m` the weight pair `(n, m)` gains on `(m, n)` when `λ` grows. -/
lemma tilt_cross_le (hc : ∀ n, 0 ≤ c n) (h₁ : 0 ≤ l₁) (h : l₁ ≤ l₂) {n m : ℕ} (hnm : n ≤ m) :
    c m * l₁ ^ m * (c n * l₂ ^ n) ≤ c n * l₁ ^ n * (c m * l₂ ^ m) := by
  obtain ⟨d, rfl⟩ := Nat.exists_eq_add_of_le hnm
  have hd : l₁ ^ d ≤ l₂ ^ d := pow_le_pow_left₀ h₁ h d
  have hcc : 0 ≤ c n * c (n + d) * (l₁ ^ n * l₂ ^ n) :=
    mul_nonneg (mul_nonneg (hc n) (hc _)) (mul_nonneg (pow_nonneg h₁ n) (pow_nonneg (h₁.trans h) n))
  calc c (n + d) * l₁ ^ (n + d) * (c n * l₂ ^ n)
      = c n * c (n + d) * (l₁ ^ n * l₂ ^ n) * l₁ ^ d := by ring
    _ ≤ c n * c (n + d) * (l₁ ^ n * l₂ ^ n) * l₂ ^ d := mul_le_mul_of_nonneg_left hd hcc
    _ = c n * l₁ ^ n * (c (n + d) * l₂ ^ (n + d)) := by ring

/-- A monotone `f` weighs more under `b` than under `a` when the ratio `b / a` grows along the
index: twice the difference of the two sides is `Σ_{n,m} (f n - f m)(a n b m - a m b n)`, a sum
of non-positive terms. -/
theorem sum_mul_sum_le_of_ratio_mono {a b : ℕ → α} (hf : Monotone f)
    (hab : ∀ n m, n ≤ m → a m * b n ≤ a n * b m) (M : ℕ) :
    (∑ n in range M, f n * a n) * ∑ n in range M, b n ≤
      (∑ n in range M, f n * b n) * ∑ n in range M, a n := by
  have hD : (∑ n in range M, f n * a n) * (∑ n in range M, b n) -
      (∑ n in range M, f n * b n) * ∑ n in range M, a n =
      ∑ n in range M, ∑ m in range M, (f n - f m) * a n * b m := by
    rw [sum_mul_sum, sum_mul_sum, sum_comm (s := range M) (f := fun n m => f n * b n * a m),
      ← sum_sub_distrib]
    exact sum_congr rfl fun n _ => by rw [← sum_sub_distrib]; exact sum_congr rfl fun m _ => by ring
  have h2 : 2 * ∑ n in range M, ∑ m in range M, (f n - f m) * a n * b m =
      ∑ n in range M, ∑ m in range M, (f n - f m) * (a n * b m - a m * b n) := by
    rw [two_mul]
    nth_rewrite 2 [sum_comm]
    rw [← sum_add_distrib]
    exact sum_congr rfl fun n _ => by rw [← sum_add_distrib]; exact sum_congr rfl fun m _ => by ring
  have hterm : ∀ n m, (f n - f m) * (a n * b m - a m * b n) ≤ 0 := by
    intro n m
    rcases le_total n m with hnm | hmn
    · exact mul_nonpos_of_nonpos_of_nonneg (sub_nonpos.2 (hf hnm)) (sub_nonneg.2 (hab n m hnm))
    · exact mul_nonpos_of_nonneg_of_nonpos (sub_nonneg.2 (hf hmn))
        (sub_nonpos.2 (hab m n hmn))
  have hsum : ∑ n in range M, ∑ m in range M, (f n - f m) * (a n * b m - a m * b n) ≤ 0 :=
    sum_nonpos fun n _ => sum_nonpos fun m _ => hterm n m
  rw [← sub_nonpos, hD]
  linarith only [h2, hsum]

/-- The cross-multiplied form of `tiltedMean_mono`. -/
theorem tiltSum_mul_mass_le (hc : ∀ n, 0 ≤ c n) (hf : Monotone f) (h₁ : 0 ≤ l₁) (h : l₁ ≤ l₂)
    (M : ℕ) : tiltSum c f M l₁ * mass c M l₂ ≤ tiltSum c f M l₂ * mass c M l₁ :=
  sum_mul_sum_le_of_ratio_mono hf (fun _ _ hnm => tilt_cross_le hc h₁ h hnm) M

lemma mass_le_mass (hc : ∀ n, 0 ≤ c n) (h₁ : 0 ≤ l₁) (h : l₁ ≤ l₂) (M : ℕ) :
    mass c M l₁ ≤ mass c M l₂ :=
  sum_le_sum fun n _ => mul_le_mul_of_nonneg_left (pow_le_pow_left₀ h₁ h n) (hc n)

/-- **Monotone likelihood ratio.** The mean of a monotone `f` under the weights `c n · λ ^ n`
does not decrease when `λ` grows. -/
theorem tiltedMean_mono (hc : ∀ n, 0 ≤ c n) (hf : Monotone f) (h₁ : 0 ≤ l₁) (h : l₁ ≤ l₂)
    {M : ℕ} (hpos : 0 < mass c M l₁) :
    tiltSum c f M l₁ / mass c M l₁ ≤ tiltSum c f M l₂ / mass c M l₂ := by
  rw [div_le_div_iff₀ hpos (hpos.trans_le (mass_le_mass hc h₁ h M))]
  exact tiltSum_mul_mass_le hc hf h₁ h M

end Tilt

/-! ## Means under the stationary distribution -/

/-- The mean of `f` over `0, …, M - 1` under the weights `weight λ μ`. -/
def weightedMean (lambda : α) (μ : ℕ → α) (f : ℕ → α) (M : ℕ) : α :=
  (∑ n in range M, f n * weight lambda μ n) / ∑ n in range M, weight lambda μ n

/-- The rate at which the chain leaves state `n` downwards: `0` in the empty state, `μ (n - 1)`
above it. -/
def departureRate (μ : ℕ → α) : ℕ → α
  | 0 => 0
  | n + 1 => μ n

section Mean

variable {lambda l₁ l₂ : α} {μ f : ℕ → α} {K M : ℕ}

lemma sum_mul_stationary : ∑ n in range (K + 1), f n * stationary lambda μ K n =
    weightedMean lambda μ f (K + 1) := by
  simp only [stationary, mul_div_assoc']; rw [← sum_div, weightedMean]

/-- Shifting a sum by one state multiplies each weight by `λ / μ n`. -/
lemma sum_mul_weight_succ (g : ℕ → α) (M : ℕ) :
    ∑ n in range M, g n * weight lambda μ (n + 1) =
      lambda * ∑ n in range M, g n / μ n * weight lambda μ n := by
  rw [mul_sum]
  exact sum_congr rfl fun n _ => by rw [weight_succ]; ring

/-- **The mean of a monotone function under the stationary weights is monotone in `λ`.** -/
theorem weightedMean_mono (hμ : ∀ k, 0 < μ k) (hf : Monotone f) (h₁ : 0 < l₁) (h : l₁ ≤ l₂)
    (hM : 0 < M) : weightedMean l₁ μ f M ≤ weightedMean l₂ μ f M := by
  have hc : ∀ n, 0 ≤ coeff μ n := fun n => (coeff_pos hμ n).le
  have hw : ∀ l : α, ∀ g : ℕ → α, ∑ n in range M, g n * weight l μ n = tiltSum (coeff μ) g M l :=
    fun l g => sum_congr rfl fun n _ => by rw [weight_eq_pow_mul, mul_comm (l ^ n)]
  have hm : ∀ l : α, ∑ n in range M, weight l μ n = mass (coeff μ) M l :=
    fun l => sum_congr rfl fun n _ => by rw [weight_eq_pow_mul, mul_comm]
  have hpos : 0 < mass (coeff μ) M l₁ := by
    rw [← hm]; obtain ⟨M, rfl⟩ := Nat.exists_eq_add_of_lt hM
    exact sum_weight_pos h₁.le hμ
  rw [weightedMean, weightedMean, hm, hm, hw, hw]
  exact tiltedMean_mono hc hf h₁.le h hpos

lemma departureRate_mono (hμ : Monotone μ) (h0 : 0 ≤ μ 0) : Monotone (departureRate μ) := by
  intro a b hab
  cases a with
  | zero => cases b with
    | zero => exact le_rfl
    | succ b => exact h0.trans (hμ (Nat.zero_le b))
  | succ a => cases b with
    | zero => omega
    | succ b => exact hμ (Nat.succ_le_succ_iff.1 hab)

end Mean

end InfernoAutoscaler.Analyzer
