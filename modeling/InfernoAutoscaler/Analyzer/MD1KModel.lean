import Mathlib
import InfernoAutoscaler.Analyzer.QueueModel

/-!
# The M/D/1/K model

`MD1KModel` observes the queue at service-completion epochs.  From a uniform start it applies the
transition of the embedded chain until two successive vectors differ by less than `tolerance` in
every entry, or `maxIter` times, and then normalises.

* `factorial`, `poissonProb` — the weight of `j` arrivals during one service time;
* `arrivalsLoop`, `transitionLoop`, `transition` — one pass of the iteration body, loop by loop;
* `maxDiff`, `iterate` — the convergence test and the iteration;
* `MD1KModel.computeProbabilities`, `MD1KModel.computeStatistics`, `MD1KModel.solve`.

`exp` stands for `math.Exp`; the theorems that need the real exponential take `Real.exp`.
The state probabilities `p` are the slice `p[0..K]`, a function on `ℕ` read at `0, …, K` only.
-/

namespace InfernoAutoscaler.Analyzer

open Finset

/-- The fields of `MD1KModel`. -/
structure MD1KModel (α : Type) extends QueueModel α where
  K : ℕ
  p : ℕ → α
  sumP : α
  throughput : α

variable {α : Type} [LinearOrderedField α]

/-- `NewMD1KModel(K)`: every field zero, `p` a zero slice. -/
def newMD1KModel (K : ℕ) : MD1KModel α :=
  { toQueueModel := QueueModel.zero, K := K, p := fun _ => 0, sumP := 0, throughput := 0 }

/-- `ComputeRho`: `λ / μ`, with `λ = μ` answered by `1`. -/
def MD1KModel.computeRho (m : MD1KModel α) : α :=
  if m.lambda = m.mu then 1 else m.lambda / m.mu

/-- `GetRhoMax`: the capacity `K`. -/
def MD1KModel.getRhoMax (m : MD1KModel α) : α := m.K

/-! ## Poisson weights -/

/-- The lookup table of `factorial` for `n ≤ 20`. -/
def factorialTable : List ℕ :=
  [1, 1, 2, 6, 24, 120, 720, 5040, 40320, 362880, 3628800,
    39916800, 479001600, 6227020800, 87178291200, 1307674368000,
    20922789888000, 355687428096000, 6402373705728000,
    121645100408832000, 2432902008176640000]

/-- `factorial(n)` for the `n ≥ 0` it is called with: the table up to `20`, the running product
beyond.  The Stirling fallback runs only when the product overflows a `float64`, which an exact
product never does. -/
def factorial (n : ℕ) : α :=
  if n = 0 ∨ n = 1 then 1
  else if n ≤ 20 then (factorialTable.getD n 0 : α)
  else (List.range' 2 (n - 1)).foldl (fun r (i : ℕ) => r * (i : α)) 1

/-- The weight of `j` arrivals during a service of mean `a` arrivals:
`math.Exp(-a) * math.Pow(a, j) / factorial(j)`. -/
def poissonProb (exp : α → α) (a : α) (j : ℕ) : α := exp (-a) * a ^ j / factorial j

/-! ## One pass of the iteration body -/

/-- `pNew[i] += v`. -/
def addAt (q : ℕ → α) (i : ℕ) (v : α) : ℕ → α := Function.update q i (q i + v)

/-- The `j` loop of a state `n ≥ 1`, after `j` rounds: `pNew[min(n-1+j, K)] += p[n] * prob(j)`. -/
def arrivalsLoop (K : ℕ) (prob : ℕ → α) (n : ℕ) (pn : α) (q : ℕ → α) : ℕ → ℕ → α
  | 0 => q
  | j + 1 => addAt (arrivalsLoop K prob n pn q j) (min (n - 1 + j) K) (pn * prob j)

/-- The `n` loop after `n` rounds, from a zero `pNew`: state `0` keeps its mass, a state `n ≥ 1`
runs its `j` loop over `j = 0, …, K`. -/
def transitionLoop (K : ℕ) (prob : ℕ → α) (p : ℕ → α) : ℕ → ℕ → α
  | 0 => fun _ => 0
  | n + 1 =>
    let q := transitionLoop K prob p n
    if n = 0 then addAt q 0 (p 0) else arrivalsLoop K prob n (p n) q (K + 1)

/-- The vector `pNew` one pass of the iteration body computes from `p`. -/
def transition (K : ℕ) (prob : ℕ → α) (p : ℕ → α) : ℕ → α := transitionLoop K prob p (K + 1)

/-- `maxDiff`: the largest `|pNew[i] - p[i]|`, from `0`. -/
def maxDiff (K : ℕ) (pNew p : ℕ → α) : α :=
  (List.range (K + 1)).foldl (fun d i => if |pNew i - p i| > d then |pNew i - p i| else d) 0

/-- `tolerance := 1e-8`. -/
def tolerance : α := 1 / 10 ^ 8

/-- `maxIter := 10000`. -/
def maxIter : ℕ := 10000

/-- The iteration with `fuel` passes left: a pass replaces `p` by `pNew`, and stops the loop when
`maxDiff < tolerance`. -/
def iterate (K : ℕ) (prob : ℕ → α) : ℕ → (ℕ → α) → ℕ → α
  | 0, p => p
  | fuel + 1, p =>
    let pNew := transition K prob p
    if maxDiff K pNew p < tolerance then pNew else iterate K prob fuel pNew

/-! ## The model -/

/-- The vector the iteration of `computeProbabilities` leaves: from the uniform vector, with
`a = λ · (1/μ)` arrivals per service. -/
def MD1KModel.iterated (exp : α → α) (m : MD1KModel α) : ℕ → α :=
  let serviceTime := 1 / m.mu
  let arrivalRate := m.lambda * serviceTime
  iterate m.K (poissonProb exp arrivalRate) maxIter (fun _ => 1 / ((m.K : α) + 1))

/-- `computeProbabilities`: the iteration, then the normalisation by `sumP`. -/
def MD1KModel.computeProbabilities (exp : α → α) (m : MD1KModel α) : MD1KModel α :=
  let p := m.iterated exp
  let sumP := ∑ i in range (m.K + 1), p i
  { m with p := fun i => p i / sumP, sumP := 1 }

/-- `computeStatistics`: nothing on an invalid model; otherwise `N = Σ i·p[i]`, `X = λ(1 - p[K])`,
`R = N / X`, `S = 1/μ`, `W = R - S` clamped at `0`, `L_q = X · W`.  At `X = 0` (an admitted `λ = 0`)
Go's `N / X` is `NaN` where Lean's is `0`. -/
def MD1KModel.computeStatistics (exp : α → α) (m : MD1KModel α) : MD1KModel α :=
  if !m.isValid then m else
  let m := m.computeProbabilities exp
  let avgNumInSystem := ∑ i in range (m.K + 1), (i : α) * m.p i
  let throughput := m.lambda * (1 - m.p m.K)
  let avgRespTime := avgNumInSystem / throughput
  let avgServTime := 1 / m.mu
  let wait := avgRespTime - avgServTime
  let avgWaitTime := if wait < 0 then 0 else wait
  { m with avgNumInSystem := avgNumInSystem, throughput := throughput, avgRespTime := avgRespTime,
           avgServTime := avgServTime, avgWaitTime := avgWaitTime,
           avgQueueLength := throughput * avgWaitTime }

/-- The capability set `NewMD1KModel` installs. -/
def MD1KModel.ops (exp : α → α) : QueueModelOps (MD1KModel α) α where
  base m := m.toQueueModel
  setBase m b := { m with toQueueModel := b }
  computeRho := MD1KModel.computeRho
  getRhoMax := MD1KModel.getRhoMax
  computeStatistics := MD1KModel.computeStatistics exp

/-- `MD1KModel.Solve`. -/
def MD1KModel.solve (exp : α → α) (m : MD1KModel α) (lambda mu : α) : MD1KModel α :=
  (MD1KModel.ops exp).solve m lambda mu

end InfernoAutoscaler.Analyzer
