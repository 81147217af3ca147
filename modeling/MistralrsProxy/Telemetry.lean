import Mathlib.Data.Rat.Defs
import Mathlib.Algebra.Order.Field.Rat
import Mathlib.Order.Lattice

/-! Backend telemetry and the `least-pressure-v1` score. Floating point is taken as exact rational
arithmetic; the one value that is not a rational, the ratio of an empty cache of size zero, is `none`. -/

namespace MistralrsProxy

structure KvCacheMetrics where
  used : Nat
  total : Nat
  deriving DecidableEq, Repr

/-- A value in `[0, 1]`; an overcommitted cache counts as full. `0 / 0` is not a number. -/
def KvCacheMetrics.ratio (kv : KvCacheMetrics) : Option ℚ :=
  if kv.total = 0 then (if kv.used = 0 then none else some 1)
  else some (max 0 (min 1 (kv.used / kv.total)))

/-- The gauges and counters of one scrape that routing and drains read. -/
structure MistralRsMetrics where
  sequencesRunning : Nat
  sequencesWaiting : Nat
  sequencesCapacity : Option Nat
  kvCache : Option KvCacheMetrics
  tokensProcessedTotal : Option ℚ
  prefillTokensProcessedTotal : Option ℚ
  decodeTokensProcessedTotal : Option ℚ
  deriving DecidableEq

structure LeastPressureV1Inputs where
  running : Nat
  waiting : Nat
  capacity : Nat
  newSequences : Nat
  kvRatio : Option (Option ℚ)
  deriving DecidableEq

structure LeastPressureV1Score where
  occupancy : ℚ
  kvPenalty : ℚ
  pressure : ℚ
  deriving DecidableEq

inductive PressureInputError where
  | zeroCapacity
  | nonFiniteKvRatio
  | kvRatioOutOfRange
  deriving DecidableEq, Repr

namespace MistralRsMetrics

def kvCacheRatio (metrics : MistralRsMetrics) : Option (Option ℚ) := metrics.kvCache.map KvCacheMetrics.ratio

def pressureInputs (newSequences effectiveCapacity : Nat) (metrics : MistralRsMetrics) :
    LeastPressureV1Inputs where
  running := metrics.sequencesRunning
  waiting := metrics.sequencesWaiting
  capacity := effectiveCapacity
  newSequences := newSequences
  kvRatio := metrics.kvCacheRatio

/-- Neither a running nor a waiting sequence. -/
def engineIdle (metrics : MistralRsMetrics) : Bool :=
  metrics.sequencesRunning == 0 && metrics.sequencesWaiting == 0

end MistralRsMetrics

def kvPenalty (kvSoftLimit : ℚ) : Option (Option ℚ) → Except PressureInputError ℚ
  | none => .ok 0
  | some none => .error .nonFiniteKvRatio
  | some (some ratio) =>
      if 0 ≤ ratio ∧ ratio ≤ 1 then .ok (max ((ratio - kvSoftLimit) / (1 - kvSoftLimit)) 0)
      else .error .kvRatioOutOfRange

def leastPressureV1WithSoftLimit (kvSoftLimit : ℚ) (inputs : LeastPressureV1Inputs) :
    Except PressureInputError LeastPressureV1Score :=
  if inputs.capacity = 0 then .error .zeroCapacity
  else
    match kvPenalty kvSoftLimit inputs.kvRatio with
    | .error error => .error error
    | .ok penalty =>
        let occupancy : ℚ := (inputs.running + inputs.waiting + inputs.newSequences) / inputs.capacity
        .ok ⟨occupancy, penalty, occupancy + penalty⟩

end MistralrsProxy
