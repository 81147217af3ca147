import Mathlib.Data.Finset.Card
import Mathlib.Data.Finset.Lattice.Fold
import Mathlib.Data.Finset.Image
import Mathlib.Order.Lattice.Nat

/-! The local lifecycle core of one backend: the operator gate, lease accounting and drain tokens of a
`BackendSlot`. Every function below is the body of one critical section of the slot's mutex. The counters
are `u64` values advanced by `checked_add`, whose exhaustion panics; they are natural numbers here. An
`Instant` is a natural number and a difference of instants saturates at zero. -/

namespace MistralrsProxy

/-- Stable identity of one logical backend. -/
abbrev BackendId := String

/-- Specification captured by a lease; the endpoint is opaque to this layer. -/
structure BackendSpec where
  id : BackendId
  endpoint : String
  deriving DecidableEq, Repr

/-- Operator gate of a backend. -/
inductive BackendMode where
  | active
  | draining
  | disabled
  deriving DecidableEq, Repr

structure LeaseKey where
  startedAt : Nat
  serial : Nat
  deriving DecidableEq, Repr

/-- A held lease: the key it is accounted under and the specification it captured. The slot it belongs
to is the one of `spec.id`. -/
structure BackendLease where
  key : LeaseKey
  spec : BackendSpec
  deriving DecidableEq, Repr

/-- Identifies one transition into `draining`. -/
structure DrainToken where
  backendId : BackendId
  modeEpoch : Nat
  deriving DecidableEq, Repr

inductive AcquireError where
  | retired (backendId : BackendId)
  | notActive (backendId : BackendId) (mode : BackendMode)
  deriving DecidableEq, Repr

inductive ModeChangeError where
  | retired (backendId : BackendId)
  deriving DecidableEq, Repr

inductive DrainWaitError where
  | wrongBackend (tokenBackendId slotBackendId : BackendId)
  | superseded (backendId : BackendId) (expectedEpoch currentEpoch : Nat) (currentMode : BackendMode)
  deriving DecidableEq, Repr

structure SlotState where
  spec : BackendSpec
  registered : Bool
  mode : BackendMode
  modeEpoch : Nat
  sequence : Nat
  specRevision : Nat
  nextLeaseSerial : Nat
  totalAcquired : Nat
  leases : Finset LeaseKey
  deriving DecidableEq

/-- Point-in-time local state of one backend. -/
structure BackendSnapshot where
  spec : BackendSpec
  registered : Bool
  mode : BackendMode
  modeEpoch : Nat
  sequence : Nat
  specRevision : Nat
  totalAcquired : Nat
  localActive : Nat
  oldestActiveAge : Option Nat
  deriving DecidableEq

structure ReconciledSlot where
  revived : Bool
  updated : Bool
  deriving DecidableEq, Repr

namespace SlotState

/-- `BackendSlot::new`. -/
def new (spec : BackendSpec) (mode : BackendMode) : SlotState where
  spec := spec
  registered := true
  mode := mode
  modeEpoch := 0
  sequence := 0
  specRevision := 0
  nextLeaseSerial := 0
  totalAcquired := 0
  leases := ∅

/-- `publish_locked`: every observable change advances the sequence its watchers see. -/
def publish (slot : SlotState) : SlotState := { slot with sequence := slot.sequence + 1 }

/-- The lease map is ordered by start, so its first key carries the earliest one. -/
def oldestActiveAge (now : Nat) (slot : SlotState) : Option Nat :=
  if h : slot.leases.Nonempty then some (now - slot.leases.inf' h LeaseKey.startedAt) else none

def snapshot (now : Nat) (slot : SlotState) : BackendSnapshot where
  spec := slot.spec
  registered := slot.registered
  mode := slot.mode
  modeEpoch := slot.modeEpoch
  sequence := slot.sequence
  specRevision := slot.specRevision
  totalAcquired := slot.totalAcquired
  localActive := slot.leases.card
  oldestActiveAge := slot.oldestActiveAge now

/-- Acquire a lease if and only if the slot is registered and active. -/
def tryAcquire (now : Nat) (slot : SlotState) : Except AcquireError (SlotState × BackendLease) :=
  if slot.registered = false then
    .error (.retired slot.spec.id)
  else if slot.mode ≠ .active then
    .error (.notActive slot.spec.id slot.mode)
  else
    let key : LeaseKey := ⟨now, slot.nextLeaseSerial⟩
    .ok (publish { slot with
      nextLeaseSerial := slot.nextLeaseSerial + 1
      totalAcquired := slot.totalAcquired + 1
      leases := insert key slot.leases }, ⟨key, slot.spec⟩)

/-- `release`; `none` is the assertion `backend lease released more than once`. -/
def release (key : LeaseKey) (slot : SlotState) : Option SlotState :=
  if key ∈ slot.leases then some (publish { slot with leases := slot.leases.erase key }) else none

/-- The body `set_mode` and `begin_drain` share: a repeated mode keeps its epoch. -/
def switchMode (mode : BackendMode) (slot : SlotState) : SlotState :=
  if slot.mode = mode then slot
  else publish { slot with mode := mode, modeEpoch := slot.modeEpoch + 1 }

def setMode (mode : BackendMode) (requireRegistered : Bool) (slot : SlotState) :
    Except ModeChangeError SlotState :=
  if requireRegistered && !slot.registered then .error (.retired slot.spec.id)
  else .ok (slot.switchMode mode)

def activate (slot : SlotState) : Except ModeChangeError SlotState := slot.setMode .active true

/-- A retired slot may be disabled, so `set_mode` cannot fail here. -/
def disable (slot : SlotState) : SlotState := slot.switchMode .disabled

/-- Close the gate and return a token for this drain epoch. -/
def beginDrain (slot : SlotState) : SlotState × DrainToken :=
  let next := slot.switchMode .draining
  (next, ⟨next.spec.id, next.modeEpoch⟩)

/-- One turn of the loop of `wait_for_local_zero`: `none` goes back to awaiting a change. -/
def waitForLocalZero (token : DrainToken) (now : Nat) (slot : SlotState) :
    Option (Except DrainWaitError BackendSnapshot) :=
  if token.backendId ≠ slot.spec.id then
    some (.error (.wrongBackend token.backendId slot.spec.id))
  else if slot.mode ≠ .draining ∨ slot.modeEpoch ≠ token.modeEpoch then
    some (.error (.superseded slot.spec.id token.modeEpoch slot.modeEpoch slot.mode))
  else if slot.leases.card = 0 then some (.ok (slot.snapshot now))
  else none

def reconcilePresent (spec : BackendSpec) (slot : SlotState) : SlotState × ReconciledSlot :=
  let changedSpec : Bool := decide (slot.spec ≠ spec)
  let updated : SlotState :=
    if changedSpec then { slot with registered := true, spec := spec, specRevision := slot.specRevision + 1 }
    else { slot with registered := true }
  (if !slot.registered || changedSpec then updated.publish else updated,
    ⟨!slot.registered, changedSpec⟩)

/-- An active backend that disappears becomes disabled; a drain epoch survives the removal. -/
def reconcileAbsent (slot : SlotState) : SlotState × Bool :=
  if slot.registered = false then (slot, false)
  else
    let retired : SlotState := { slot with registered := false }
    (publish (if slot.mode = .active then
      { retired with mode := .disabled, modeEpoch := slot.modeEpoch + 1 } else retired), true)

section Fields

variable (slot : SlotState)

@[simp] theorem publish_spec : slot.publish.spec = slot.spec := rfl
@[simp] theorem publish_registered : slot.publish.registered = slot.registered := rfl
@[simp] theorem publish_mode : slot.publish.mode = slot.mode := rfl
@[simp] theorem publish_modeEpoch : slot.publish.modeEpoch = slot.modeEpoch := rfl
@[simp] theorem publish_nextLeaseSerial : slot.publish.nextLeaseSerial = slot.nextLeaseSerial := rfl
@[simp] theorem publish_totalAcquired : slot.publish.totalAcquired = slot.totalAcquired := rfl
@[simp] theorem publish_leases : slot.publish.leases = slot.leases := rfl

variable (mode : BackendMode)

@[simp] theorem switchMode_mode : (slot.switchMode mode).mode = mode := by
  unfold switchMode
  split
  · assumption
  · rfl

@[simp] theorem switchMode_modeEpoch :
    (slot.switchMode mode).modeEpoch = if slot.mode = mode then slot.modeEpoch else slot.modeEpoch + 1 := by
  unfold switchMode
  split <;> rfl

@[simp] theorem switchMode_spec : (slot.switchMode mode).spec = slot.spec := by
  unfold switchMode
  split <;> rfl

@[simp] theorem switchMode_registered : (slot.switchMode mode).registered = slot.registered := by
  unfold switchMode
  split <;> rfl

@[simp] theorem switchMode_nextLeaseSerial :
    (slot.switchMode mode).nextLeaseSerial = slot.nextLeaseSerial := by
  unfold switchMode
  split <;> rfl

@[simp] theorem switchMode_totalAcquired : (slot.switchMode mode).totalAcquired = slot.totalAcquired := by
  unfold switchMode
  split <;> rfl

@[simp] theorem switchMode_leases : (slot.switchMode mode).leases = slot.leases := by
  unfold switchMode
  split <;> rfl

theorem switchMode_of_mode (h : slot.mode = mode) : slot.switchMode mode = slot := if_pos h

variable (spec : BackendSpec)

@[simp] theorem reconcilePresent_mode : (slot.reconcilePresent spec).1.mode = slot.mode := by
  unfold reconcilePresent
  dsimp only
  split_ifs <;> rfl

@[simp] theorem reconcilePresent_modeEpoch :
    (slot.reconcilePresent spec).1.modeEpoch = slot.modeEpoch := by
  unfold reconcilePresent
  dsimp only
  split_ifs <;> rfl

@[simp] theorem reconcilePresent_registered : (slot.reconcilePresent spec).1.registered = true := by
  unfold reconcilePresent
  dsimp only
  split_ifs <;> rfl

@[simp] theorem reconcilePresent_spec : (slot.reconcilePresent spec).1.spec = spec := by
  unfold reconcilePresent
  by_cases h : slot.spec = spec
  · subst h
    simp only [ne_eq, not_true_eq_false, decide_false, Bool.false_eq_true, if_false, Bool.or_false]
    split_ifs <;> rfl
  · simp only [ne_eq, h, not_false_eq_true, decide_true, if_true, Bool.or_true]
    rfl

@[simp] theorem reconcilePresent_nextLeaseSerial :
    (slot.reconcilePresent spec).1.nextLeaseSerial = slot.nextLeaseSerial := by
  unfold reconcilePresent
  dsimp only
  split_ifs <;> rfl

@[simp] theorem reconcilePresent_totalAcquired :
    (slot.reconcilePresent spec).1.totalAcquired = slot.totalAcquired := by
  unfold reconcilePresent
  dsimp only
  split_ifs <;> rfl

@[simp] theorem reconcilePresent_leases : (slot.reconcilePresent spec).1.leases = slot.leases := by
  unfold reconcilePresent
  dsimp only
  split_ifs <;> rfl

@[simp] theorem reconcileAbsent_registered : slot.reconcileAbsent.1.registered = false := by
  unfold reconcileAbsent
  split
  · assumption
  · dsimp only
    split <;> rfl

@[simp] theorem reconcileAbsent_spec : slot.reconcileAbsent.1.spec = slot.spec := by
  unfold reconcileAbsent
  split
  · rfl
  · dsimp only
    split <;> rfl

@[simp] theorem reconcileAbsent_nextLeaseSerial :
    slot.reconcileAbsent.1.nextLeaseSerial = slot.nextLeaseSerial := by
  unfold reconcileAbsent
  split
  · rfl
  · dsimp only
    split <;> rfl

@[simp] theorem reconcileAbsent_totalAcquired :
    slot.reconcileAbsent.1.totalAcquired = slot.totalAcquired := by
  unfold reconcileAbsent
  split
  · rfl
  · dsimp only
    split <;> rfl

@[simp] theorem reconcileAbsent_leases : slot.reconcileAbsent.1.leases = slot.leases := by
  unfold reconcileAbsent
  split
  · rfl
  · dsimp only
    split <;> rfl

/-- A removal leaves the gate closed and touches the epoch only when it closes an active gate. -/
theorem reconcileAbsent_mode :
    slot.reconcileAbsent.1.mode = (if slot.registered = true ∧ slot.mode = .active then .disabled else slot.mode) ∧
      slot.reconcileAbsent.1.modeEpoch =
        (if slot.registered = true ∧ slot.mode = .active then slot.modeEpoch + 1 else slot.modeEpoch) := by
  unfold reconcileAbsent
  cases hregistered : slot.registered with
  | false => simp
  | true =>
      by_cases hmode : slot.mode = .active
      · simp [hmode, publish]
      · simp [hmode, publish]

end Fields

variable {slot next : SlotState} {lease : BackendLease} {key : LeaseKey} {now : Nat}

/-- What a successful acquisition requires and does. -/
theorem tryAcquire_ok (h : slot.tryAcquire now = .ok (next, lease)) :
    slot.registered = true ∧ slot.mode = .active ∧ lease = ⟨⟨now, slot.nextLeaseSerial⟩, slot.spec⟩ ∧
      next = publish { slot with
        nextLeaseSerial := slot.nextLeaseSerial + 1
        totalAcquired := slot.totalAcquired + 1
        leases := insert ⟨now, slot.nextLeaseSerial⟩ slot.leases } := by
  unfold tryAcquire at h
  split at h
  · cases h
  · split at h
    · cases h
    · rename_i hregistered hmode
      simp only [Except.ok.injEq, Prod.mk.injEq] at h
      exact ⟨by simpa using hregistered, by simpa using hmode, h.2.symm, h.1.symm⟩

theorem tryAcquire_of_active (hregistered : slot.registered = true) (hmode : slot.mode = .active) (now : Nat) :
    ∃ next, slot.tryAcquire now = .ok (next, ⟨⟨now, slot.nextLeaseSerial⟩, slot.spec⟩) := by
  simp [tryAcquire, hregistered, hmode]

theorem release_some (h : slot.release key = some next) :
    key ∈ slot.leases ∧ next = publish { slot with leases := slot.leases.erase key } := by
  unfold release at h
  split at h
  · rename_i hmem
    exact ⟨hmem, (Option.some.inj h).symm⟩
  · cases h

theorem waitForLocalZero_ok {token : DrainToken} {result : BackendSnapshot}
    (h : slot.waitForLocalZero token now = some (.ok result)) :
    token.backendId = slot.spec.id ∧ slot.mode = .draining ∧ slot.modeEpoch = token.modeEpoch ∧
      slot.leases = ∅ ∧ result = slot.snapshot now := by
  unfold waitForLocalZero at h
  split at h
  · cases h
  · rename_i hid
    split at h
    · cases h
    · rename_i hgate
      split at h
      · rename_i hcard
        simp only [not_or, ne_eq, not_not] at hid hgate
        simp only [Option.some.injEq, Except.ok.injEq] at h
        exact ⟨hid, hgate.1, hgate.2, Finset.card_eq_zero.mp hcard, h.symm⟩
      · cases h

end SlotState

end MistralrsProxy
