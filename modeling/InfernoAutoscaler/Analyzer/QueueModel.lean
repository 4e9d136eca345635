import Mathlib

/-!
# The queue-model base class

`QueueModel` holds what every solver shares: the two rates, the utilisation, the validity flag
and the derived statistics.  The Go base class calls three function fields that each concrete
model sets in its constructor (`ComputeRho`, `GetRhoMax`, `computeStatistics`); here they are the
fields of `QueueModelOps`, and `QueueModelOps.solve` is the template method that calls them.

Floating-point numbers (`float32`, `float64`) are an ordered field `α` throughout: the conversions
between the two widths are the identity, and rounding, overflow to `±Inf` (a `factorial(171)`, a long
product of the balance loop), underflow (a Poisson weight `e^(-a)` for a large `a`) and `NaN` are
outside the model.  Lean's division reads `x / 0 = 0` where Go gives `NaN` or `±Inf`: a theorem that
reads a quotient carries hypotheses under which its divisor is positive, and
`solve_zero_lambda_zero_throughput` exhibits the zero divisor of an admitted `λ = 0`.
-/

namespace InfernoAutoscaler.Analyzer

/-- Modelled from the spec: the fields of the base class `QueueModel` (its file is not among the
sources), as the concrete models read and set them. -/
structure QueueModel (α : Type) where
  lambda : α
  mu : α
  rho : α
  isValid : Bool
  avgNumInSystem : α
  avgRespTime : α
  avgServTime : α
  avgWaitTime : α
  avgQueueLength : α

variable {σ α : Type} [LinearOrderedField α]

/-- The zero value `QueueModel{}` a constructor starts from. -/
def QueueModel.zero : QueueModel α := ⟨0, 0, 0, false, 0, 0, 0, 0, 0⟩

/-- The capability set a concrete model hands to its base class: its base-class fields, and the
three methods the base class calls back. -/
structure QueueModelOps (σ α : Type) where
  base : σ → QueueModel α
  setBase : σ → QueueModel α → σ
  computeRho : σ → α
  getRhoMax : σ → α
  computeStatistics : σ → σ

/-- Modelled from the spec: the validity check of `QueueModel.Solve`, `ρ < ρ_max ∧ λ ≥ 0 ∧ μ > 0`. -/
def isValidRates (rho rhoMax lambda mu : α) : Bool :=
  decide (rho < rhoMax) && decide (0 ≤ lambda) && decide (0 < mu)

lemma isValidRates_eq_true {rho rhoMax lambda mu : α} :
    isValidRates rho rhoMax lambda mu = true ↔ rho < rhoMax ∧ 0 ≤ lambda ∧ 0 < mu := by
  simp [isValidRates, and_assoc]

/-- Modelled from the spec: the first half of `QueueModel.Solve` (the base class's file is not
among the sources).  It sets the rates, recomputes `ρ`, sets `isValid` by `isValidRates` and clears
the derived scalars, which the spec has zero after an invalid solve (§3, §4.1); on a valid model
`computeStatistics` sets each of them again. -/
def QueueModelOps.prepare (ops : QueueModelOps σ α) (m : σ) (lambda mu : α) : σ :=
  let m := ops.setBase m { ops.base m with lambda := lambda, mu := mu }
  let rho := ops.computeRho m
  ops.setBase m { ops.base m with
    rho := rho, isValid := isValidRates rho (ops.getRhoMax m) lambda mu,
    avgNumInSystem := 0, avgRespTime := 0, avgServTime := 0, avgWaitTime := 0, avgQueueLength := 0 }

/-- Modelled from the spec: `QueueModel.Solve`, which then calls the concrete model's
`computeStatistics`. -/
def QueueModelOps.solve (ops : QueueModelOps σ α) (m : σ) (lambda mu : α) : σ :=
  ops.computeStatistics (ops.prepare m lambda mu)

end InfernoAutoscaler.Analyzer
