import InfernoAutoscaler.Analyzer.MD1KModel

/-!
# The M/D/1 model with state-dependent service rates

`MD1ModelStateDependent` serves at rate `servRate[min(n, num-1)]` in state `n`, `num` the length of
`servRate`: batching raises the rate up to the largest batch.  Its state probabilities solve the
balance equations of the birth-death chain (`computeProbabilitiesApprox`); its waiting time is half
the M/M/1/K waiting time those probabilities give (`computeStatistics`).

* `serviceRate`, `balanceLoop` — the recurrence `p[i] = p[i-1] · λ / servRate[min(i-1, num-1)]`;
* `StatsAcc`, `statsLoop` — the accumulators of the loop of `computeStatistics`, with the snapshot
  `avgNumInServers` taken when the loop counter reaches `num`;
* `MD1ModelStateDependent.solve` — `Solve` through the capability set.
-/

namespace InfernoAutoscaler.Analyzer

open Finset

/-- The fields of `MD1ModelStateDependent`. -/
structure MD1ModelStateDependent (α : Type) extends MD1KModel α where
  servRate : List α
  avgNumInServers : α

variable {α : Type} [LinearOrderedField α]

/-- `NewMD1ModelStateDependent(K, servRate)`. -/
def newMD1ModelStateDependent (K : ℕ) (servRate : List α) : MD1ModelStateDependent α :=
  { toMD1KModel := newMD1KModel K, servRate := servRate, avgNumInServers := 0 }

/-- `servRate[min(i, num-1)]`, the service rate out of state `i + 1` towards state `i`.  The Go
index `-1` of an empty `servRate` panics; it reads `0` here, and every theorem assumes `num ≥ 1`. -/
def serviceRate (servRate : List α) (i : ℕ) : α := servRate.getD (min i (servRate.length - 1)) 0

/-- `ComputeRho`: the server utilisation `1 - p[0]`. -/
def MD1ModelStateDependent.computeRho (m : MD1ModelStateDependent α) : α := 1 - m.p 0

/-! ## State probabilities -/

/-- The balance loop after `p[0] = 1` and `i` rounds: `p[i] = p[i-1] · λ / servRate[min(i-1, num-1)]`. -/
def balanceLoop (lambda : α) (servRate : List α) (p : ℕ → α) : ℕ → ℕ → α
  | 0 => Function.update p 0 1
  | i + 1 =>
    let q := balanceLoop lambda servRate p i
    Function.update q (i + 1) (q i * lambda / serviceRate servRate i)

/-- `computeProbabilitiesApprox`: the balance loop up to `K`, normalisation by `sumP`, then
`rho = ComputeRho()`. -/
def MD1ModelStateDependent.computeProbabilitiesApprox (m : MD1ModelStateDependent α) :
    MD1ModelStateDependent α :=
  let p := balanceLoop m.lambda m.servRate m.p m.K
  let sumP := ∑ i in range (m.K + 1), p i
  let m := { m with p := fun i => p i / sumP, sumP := 1 }
  { m with rho := m.computeRho }

/-! ## Statistics -/

/-- The accumulators of the loop of `computeStatistics`. -/
structure StatsAcc (α : Type) where
  avgNumInServers : α
  avgNumInSystem : α
  sumP : α

/-- The loop of `computeStatistics` after the rounds `i = 1, …, n`, from `sumP = p[0]`:
`avgNumInSystem += i·p[i]`, `sumP += p[i]`, and at `i == num` the snapshot
`avgNumInServers = avgNumInSystem + (1 - sumP)·num`. -/
def statsLoop (p : ℕ → α) (num : ℕ) : ℕ → StatsAcc α
  | 0 => ⟨0, 0, p 0⟩
  | i + 1 =>
    let acc := statsLoop p num i
    let avgNumInSystem := acc.avgNumInSystem + ((i + 1 : ℕ) : α) * p (i + 1)
    let sumP := acc.sumP + p (i + 1)
    { avgNumInServers :=
        if i + 1 = num then avgNumInSystem + (1 - sumP) * num else acc.avgNumInServers
      avgNumInSystem := avgNumInSystem
      sumP := sumP }

/-- `computeStatistics`: nothing on an invalid model; otherwise the balance probabilities, the
loop, `X = λ(1 - p[K])`, `R = N / X`, `S = N_s / X`, `W = 0.5 · (R - S)` clamped at `0`, and then
`R = W + S`, `N = X · R`, `L_q = X · W`.  At `X = 0` (an admitted `λ = 0`) Go's `N / X` and
`N_s / X` are `NaN` where Lean's are `0`. -/
def MD1ModelStateDependent.computeStatistics (m : MD1ModelStateDependent α) :
    MD1ModelStateDependent α :=
  if !m.isValid then m else
  let m := m.computeProbabilitiesApprox
  let acc := statsLoop m.p m.servRate.length m.K
  let throughput := m.lambda * (1 - m.p m.K)
  let avgRespTime := acc.avgNumInSystem / throughput
  let avgServTime := acc.avgNumInServers / throughput
  let waitTimeAsIfMM1K := avgRespTime - avgServTime
  let avgWaitTime := if 1 / 2 * waitTimeAsIfMM1K < 0 then 0 else 1 / 2 * waitTimeAsIfMM1K
  let avgRespTime := avgWaitTime + avgServTime
  { m with avgNumInServers := acc.avgNumInServers, throughput := throughput,
           avgServTime := avgServTime, avgWaitTime := avgWaitTime, avgRespTime := avgRespTime,
           avgNumInSystem := throughput * avgRespTime,
           avgQueueLength := throughput * avgWaitTime }

/-- The capability set `NewMD1ModelStateDependent` installs: its own `ComputeRho` and
`computeStatistics`, and the `GetRhoMax` of the embedded `MD1KModel`. -/
def MD1ModelStateDependent.ops : QueueModelOps (MD1ModelStateDependent α) α where
  base m := m.toQueueModel
  setBase m b := { m with toQueueModel := b }
  computeRho := MD1ModelStateDependent.computeRho
  getRhoMax m := m.toMD1KModel.getRhoMax
  computeStatistics := MD1ModelStateDependent.computeStatistics

/-- `MD1ModelStateDependent.Solve`. -/
def MD1ModelStateDependent.solve (m : MD1ModelStateDependent α) (lambda mu : α) :
    MD1ModelStateDependent α :=
  MD1ModelStateDependent.ops.solve m lambda mu

end InfernoAutoscaler.Analyzer
