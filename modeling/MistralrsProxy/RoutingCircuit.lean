import MistralrsProxy.TransitionSystem
import MistralrsProxy.Backend

/-! The request circuit of one backend: the breaker fields of its live state, the permits and body
observers that report back to it, and the functions that run under the routing mutex. Instants count
nanoseconds. -/

open Transition

namespace MistralrsProxy

/-- `u32::MAX`. -/
def u32Max : Nat := 2 ^ 32 - 1

def circuitFailureThreshold : Nat := 3

/-- Ten seconds. -/
def circuitOpenFor : Nat := 10 * 1000000000

inductive Circuit where
  | closed
  | opened (deadline : Nat)
  | halfOpen (trialInFlight : Bool)
  deriving DecidableEq, Repr

inductive CircuitState where
  | closed
  | opened
  | halfOpen
  deriving DecidableEq, Repr

/-- An open circuit whose deadline has passed counts as half-open. -/
def Circuit.state (now : Nat) : Circuit → CircuitState
  | .closed => .closed
  | .opened deadline => if deadline ≤ now then .halfOpen else .opened
  | .halfOpen _ => .halfOpen

/-- The fields of a live backend that the circuit functions read and write. -/
structure Breaker where
  circuit : Circuit
  circuitEpoch : Nat
  consecutiveRequestFailures : Nat
  deriving DecidableEq, Repr

/-- A permit to dispatch one request; it reports one outcome at most. -/
structure CircuitPermit where
  backendId : BackendId
  circuitEpoch : Nat
  trial : Bool
  resolved : Bool
  deriving DecidableEq, Repr

structure BodyFailureObserver where
  backendId : BackendId
  circuitEpoch : Nat
  openImmediately : Bool
  deriving DecidableEq, Repr

inductive CircuitOutcome where
  | failure
  | neutral
  deriving DecidableEq, Repr

namespace Breaker

def new : Breaker := ⟨.closed, 0, 0⟩

def bumpCircuitEpoch (breaker : Breaker) : Breaker :=
  { breaker with circuitEpoch := breaker.circuitEpoch + 1 }

/-- The transition into an open circuit, under a new epoch. -/
def trip (now : Nat) (breaker : Breaker) : Breaker :=
  { breaker.bumpCircuitEpoch with circuit := .opened (now + circuitOpenFor) }

def tryCircuitPermit (id : BackendId) (now : Nat) (breaker : Breaker) : Option (Breaker × CircuitPermit) :=
  match breaker.circuit with
  | .closed => some (breaker, ⟨id, breaker.circuitEpoch, false, false⟩)
  | .opened deadline =>
      if deadline ≤ now then
        some ({ breaker with circuit := .halfOpen true }, ⟨id, breaker.circuitEpoch, true, false⟩)
      else none
  | .halfOpen false =>
      some ({ breaker with circuit := .halfOpen true }, ⟨id, breaker.circuitEpoch, true, false⟩)
  | .halfOpen true => none

def recordCircuitOutcome (circuitEpoch : Nat) (trial : Bool) (outcome : CircuitOutcome) (now : Nat)
    (breaker : Breaker) : Breaker :=
  if breaker.circuitEpoch ≠ circuitEpoch then breaker
  else
    match outcome, trial with
    | .failure, true => trip now { breaker with consecutiveRequestFailures := circuitFailureThreshold }
    | .failure, false =>
        let counted : Breaker :=
          { breaker with consecutiveRequestFailures := min (breaker.consecutiveRequestFailures + 1) u32Max }
        if circuitFailureThreshold ≤ counted.consecutiveRequestFailures then counted.trip now else counted
    | .neutral, true => { breaker with circuit := .halfOpen false }
    | .neutral, false => breaker

def recordSuccessAndObserver (id : BackendId) (circuitEpoch : Nat) (trial : Bool) (breaker : Breaker) :
    Breaker × Option BodyFailureObserver :=
  if breaker.circuitEpoch ≠ circuitEpoch then (breaker, none)
  else
    let reset : Breaker := { breaker with consecutiveRequestFailures := 0 }
    let bumped := if trial then reset.bumpCircuitEpoch else reset
    ({ bumped with circuit := .closed }, some ⟨id, bumped.circuitEpoch, trial⟩)

def recordBodyFailure (circuitEpoch : Nat) (openImmediately : Bool) (now : Nat) (breaker : Breaker) :
    Breaker :=
  if breaker.circuitEpoch ≠ circuitEpoch then breaker
  else
    let counted : Breaker := { breaker with
      consecutiveRequestFailures :=
        if openImmediately then circuitFailureThreshold
        else min (breaker.consecutiveRequestFailures + 1) u32Max }
    if circuitFailureThreshold ≤ counted.consecutiveRequestFailures then counted.trip now else counted

end Breaker

namespace CircuitPermit

/-- The permit once it has reported. -/
def settled (permit : CircuitPermit) : CircuitPermit := { permit with resolved := true }

def resolve (outcome : CircuitOutcome) (now : Nat) (permit : CircuitPermit) (breaker : Breaker) :
    CircuitPermit × Breaker :=
  if permit.resolved then (permit, breaker)
  else (permit.settled,
    breaker.recordCircuitOutcome permit.circuitEpoch permit.trial outcome now)

def failure (now : Nat) (permit : CircuitPermit) (breaker : Breaker) : CircuitPermit × Breaker :=
  permit.resolve .failure now breaker

def neutral (now : Nat) (permit : CircuitPermit) (breaker : Breaker) : CircuitPermit × Breaker :=
  permit.resolve .neutral now breaker

def successWithBodyObserver (permit : CircuitPermit) (breaker : Breaker) :
    CircuitPermit × Breaker × Option BodyFailureObserver :=
  if permit.resolved then (permit, breaker, none)
  else (permit.settled,
    breaker.recordSuccessAndObserver permit.backendId permit.circuitEpoch permit.trial)

/-- A permit dropped without an outcome counts as neutral. -/
def drop (now : Nat) (permit : CircuitPermit) (breaker : Breaker) : Breaker :=
  if permit.resolved then breaker else (permit.neutral now breaker).2

end CircuitPermit

def BodyFailureObserver.failure (now : Nat) (observer : BodyFailureObserver) (breaker : Breaker) : Breaker :=
  breaker.recordBodyFailure observer.circuitEpoch observer.openImmediately now

namespace Breaker

variable {id : BackendId} {now : Nat} {breaker next : Breaker} {permit : CircuitPermit}

/-- A permit is issued either by a closed circuit, which it leaves alone, or as the trial of an open
circuit past its deadline or of an idle half-open one. -/
theorem tryCircuitPermit_some (h : breaker.tryCircuitPermit id now = some (next, permit)) :
    permit.circuitEpoch = breaker.circuitEpoch ∧ permit.resolved = false ∧
    (breaker.circuit = .closed ∧ permit.trial = false ∧ next = breaker ∨
      permit.trial = true ∧ next = { breaker with circuit := .halfOpen true } ∧
        (breaker.circuit = .halfOpen false ∨
          ∃ deadline, breaker.circuit = .opened deadline ∧ deadline ≤ now)) := by
  unfold tryCircuitPermit at h
  split at h
  · rename_i hcircuit
    cases h
    exact ⟨rfl, rfl, Or.inl ⟨hcircuit, rfl, rfl⟩⟩
  · rename_i deadline hcircuit
    split at h
    · rename_i hdeadline
      cases h
      exact ⟨rfl, rfl, Or.inr ⟨rfl, rfl, Or.inr ⟨deadline, hcircuit, hdeadline⟩⟩⟩
    · cases h
  · rename_i hcircuit
    cases h
    exact ⟨rfl, rfl, Or.inr ⟨rfl, rfl, Or.inl hcircuit⟩⟩
  · cases h

theorem recordCircuitOutcome_of_ne {circuitEpoch : Nat} (h : breaker.circuitEpoch ≠ circuitEpoch)
    (trial : Bool) (outcome : CircuitOutcome) (now : Nat) :
    breaker.recordCircuitOutcome circuitEpoch trial outcome now = breaker := if_pos h

theorem recordSuccessAndObserver_of_ne {circuitEpoch : Nat} (h : breaker.circuitEpoch ≠ circuitEpoch)
    (id : BackendId) (trial : Bool) :
    breaker.recordSuccessAndObserver id circuitEpoch trial = (breaker, none) := if_pos h

theorem recordBodyFailure_of_ne {circuitEpoch : Nat} (h : breaker.circuitEpoch ≠ circuitEpoch)
    (openImmediately : Bool) (now : Nat) :
    breaker.recordBodyFailure circuitEpoch openImmediately now = breaker := if_pos h

/-- One more counted failure: the circuit opens under a new epoch at the threshold. -/
def countFailure (failures now : Nat) (breaker : Breaker) : Breaker :=
  if circuitFailureThreshold ≤ failures then
    trip now { breaker with consecutiveRequestFailures := failures }
  else { breaker with consecutiveRequestFailures := failures }

theorem recordCircuitOutcome_failure (trial : Bool) (now : Nat) :
    breaker.recordCircuitOutcome breaker.circuitEpoch trial .failure now =
      breaker.countFailure (if trial then circuitFailureThreshold
        else min (breaker.consecutiveRequestFailures + 1) u32Max) now := by
  cases trial
  · simp [recordCircuitOutcome, countFailure]
  · simp [recordCircuitOutcome, countFailure]

theorem recordCircuitOutcome_neutral_trial (now : Nat) :
    breaker.recordCircuitOutcome breaker.circuitEpoch true .neutral now =
      { breaker with circuit := .halfOpen false } := by
  simp [recordCircuitOutcome]

theorem recordCircuitOutcome_neutral_plain (circuitEpoch now : Nat) :
    breaker.recordCircuitOutcome circuitEpoch false .neutral now = breaker := by
  simp [recordCircuitOutcome]

theorem recordBodyFailure_self (openImmediately : Bool) (now : Nat) :
    breaker.recordBodyFailure breaker.circuitEpoch openImmediately now =
      breaker.countFailure (if openImmediately then circuitFailureThreshold
        else min (breaker.consecutiveRequestFailures + 1) u32Max) now := by
  simp [recordBodyFailure, countFailure]

theorem countFailure_opens {failures : Nat} (h : circuitFailureThreshold ≤ failures) (now : Nat) :
    breaker.countFailure failures now =
      ⟨.opened (now + circuitOpenFor), breaker.circuitEpoch + 1, failures⟩ := by
  simp [countFailure, h, trip, bumpCircuitEpoch]

theorem countFailure_keeps {failures : Nat} (h : failures < circuitFailureThreshold) (now : Nat) :
    breaker.countFailure failures now = { breaker with consecutiveRequestFailures := failures } := by
  simp [countFailure, Nat.not_le.mpr h]

end Breaker

end MistralrsProxy
