import Mathlib
import InfernoAutoscaler.Analyzer.MD1KModel

/-!
# One pass of the embedded-chain iteration

The body of the iteration loop of `MD1KModel.computeProbabilities`, read loop by loop:

* `transition_apply` — `pNew[s] = [s = 0]·p[0] + Σ_{n=1..K} Σ_{j=0..K} [min(n-1+j, K) = s]·p[n]·prob(j)`:
  the transition from `n ≥ 1` to `min(K, n-1+j)`, but only for `j ≤ K` arrivals;
* `sum_transition` — the mass of `pNew` is `p[0] + (Σ_{j≤K} prob j)·Σ_{n≥1} p[n]`, so the mass of
  `j > K` arrivals leaves the vector;
* `iterate_inv`, `iterate_succ_inv` — a property kept by one pass is kept by the iteration,
  whatever pass the convergence test stops at.
-/

namespace InfernoAutoscaler.Analyzer

open Finset

variable {α : Type} [LinearOrderedField α]

/-! ## `pNew[i] += v` -/

lemma addAt_apply (q : ℕ → α) (i : ℕ) (v : α) (s : ℕ) :
    addAt q i v s = q s + if i = s then v else 0 := by
  by_cases h : i = s
  · subst h; simp [addAt]
  · simp [addAt, Ne.symm h, h]

/-- Adding at an index of the slice adds to its mass. -/
lemma sum_addAt {M i : ℕ} (h : i < M) (q : ℕ → α) (v : α) :
    ∑ s in range M, addAt q i v s = ∑ s in range M, q s + v := by
  simp only [addAt_apply, sum_add_distrib, sum_ite_eq, mem_range, h, if_true]

/-! ## The loops, entry by entry -/

section Loops

variable (K : ℕ) (prob : ℕ → α)

lemma arrivalsLoop_apply (n : ℕ) (pn : α) (q : ℕ → α) (j s : ℕ) :
    arrivalsLoop K prob n pn q j s =
      q s + ∑ i in range j, if min (n - 1 + i) K = s then pn * prob i else 0 := by
  induction j with
  | zero => simp [arrivalsLoop]
  | succ j ih => rw [arrivalsLoop, addAt_apply, ih, sum_range_succ, add_assoc]

lemma transitionLoop_apply (p : ℕ → α) (n s : ℕ) :
    transitionLoop K prob p n s = ∑ k in range n, if k = 0 then (if s = 0 then p 0 else 0) else
      ∑ j in range (K + 1), if min (k - 1 + j) K = s then p k * prob j else 0 := by
  induction n with
  | zero => simp [transitionLoop]
  | succ n ih =>
    rw [transitionLoop, sum_range_succ, ← ih]
    by_cases h : n = 0
    · subst h; rw [if_pos rfl, if_pos rfl, addAt_apply]; simp only [@eq_comm _ 0 s]
    · rw [if_neg h, if_neg h, arrivalsLoop_apply]

/-- **The entries of one pass.** State `0` keeps its mass; the mass of a state `n ≥ 1` moves to
`min(n - 1 + j, K)` with weight `prob j`, for `j = 0, …, K`. -/
theorem transition_apply (p : ℕ → α) (s : ℕ) :
    transition K prob p s = (if s = 0 then p 0 else 0) + ∑ n in range K,
      ∑ j in range (K + 1), if min (n + j) K = s then p (n + 1) * prob j else 0 := by
  rw [transition, transitionLoop_apply, sum_range_succ', if_pos rfl, add_comm]
  simp only [Nat.succ_ne_zero, if_false, Nat.add_sub_cancel]

lemma sum_arrivalsLoop (n : ℕ) (pn : α) (q : ℕ → α) (j : ℕ) :
    ∑ s in range (K + 1), arrivalsLoop K prob n pn q j s =
      ∑ s in range (K + 1), q s + pn * ∑ i in range j, prob i := by
  induction j with
  | zero => simp [arrivalsLoop]
  | succ j ih => rw [arrivalsLoop, sum_addAt (Nat.lt_succ_of_le (min_le_right _ _)), ih,
      sum_range_succ prob j, mul_add, add_assoc]

lemma sum_transitionLoop (p : ℕ → α) (n : ℕ) :
    ∑ s in range (K + 1), transitionLoop K prob p n s =
      ∑ k in range n, if k = 0 then p k else p k * ∑ j in range (K + 1), prob j := by
  induction n with
  | zero => simp [transitionLoop]
  | succ n ih =>
    rw [sum_range_succ (fun k => if k = 0 then p k else p k * ∑ j in range (K + 1), prob j), ← ih,
      transitionLoop]
    by_cases h : n = 0
    · subst h; rw [if_pos rfl, if_pos rfl, sum_addAt (Nat.succ_pos K)]
    · rw [if_neg h, if_neg h, sum_arrivalsLoop]

/-- **The mass of one pass**: `Σ pNew = p[0] + (Σ_{j≤K} prob j) · Σ_{n=1..K} p[n]`. -/
theorem sum_transition (p : ℕ → α) :
    ∑ s in range (K + 1), transition K prob p s =
      p 0 + (∑ j in range (K + 1), prob j) * ∑ n in range K, p (n + 1) := by
  rw [transition, sum_transitionLoop, sum_range_succ', if_pos rfl, add_comm, mul_sum]
  simp only [Nat.succ_ne_zero, if_false, mul_comm]

/-- With non-negative `p` and weights, one pass keeps the entries non-negative and does not
lower `p[0]`. -/
lemma transition_nonneg {p : ℕ → α} (hp : ∀ n, 0 ≤ p n) (hprob : ∀ j, 0 ≤ prob j) (s : ℕ) :
    0 ≤ transition K prob p s := by
  rw [transition_apply]
  refine add_nonneg (by split_ifs <;> simp [hp]) (sum_nonneg fun n _ => sum_nonneg fun j _ => ?_)
  split_ifs
  · exact mul_nonneg (hp _) (hprob j)
  · exact le_rfl

lemma le_transition_zero {p : ℕ → α} (hp : ∀ n, 0 ≤ p n) (hprob : ∀ j, 0 ≤ prob j) :
    p 0 ≤ transition K prob p 0 := by
  rw [transition_apply, if_pos rfl]
  refine le_add_of_nonneg_right (sum_nonneg fun n _ => sum_nonneg fun j _ => ?_)
  split_ifs
  · exact mul_nonneg (hp _) (hprob j)
  · exact le_rfl

/-! ## The iteration -/

/-- A property one pass keeps is kept by the iteration, at whatever pass it stops. -/
theorem iterate_inv {P : (ℕ → α) → Prop} (hP : ∀ q, P q → P (transition K prob q)) :
    ∀ (fuel : ℕ) (p : ℕ → α), P p → P (iterate K prob fuel p)
  | 0, _, h => h
  | fuel + 1, p, h => by
    rw [iterate]
    split_ifs
    · exact hP p h
    · exact iterate_inv hP fuel _ (hP p h)

/-- With fuel left the iteration makes at least one pass: a property that holds after the first
pass and that each pass keeps holds of the result. -/
theorem iterate_succ_inv {P : (ℕ → α) → Prop} (hP : ∀ q, P q → P (transition K prob q))
    (fuel : ℕ) (p : ℕ → α) (h : P (transition K prob p)) : P (iterate K prob (fuel + 1) p) := by
  rw [iterate]
  split_ifs
  · exact h
  · exact iterate_inv K prob hP fuel _ h

end Loops

end InfernoAutoscaler.Analyzer
