import MistralrsProxy.Backend
import MistralrsProxy.KeyedTable
import Mathlib.Data.List.Sort

/-! The registry of stable backend slots. A slot whose backend leaves the desired set is kept as a
tombstone, so that its leases and its drain stay attached to one counter should the identity come back.
Reconciliation holds the registry's write lock throughout and is one step. -/

open Keyed

namespace MistralrsProxy

def slotId (slot : SlotState) : BackendId := slot.spec.id

/-- Slots by identity, registered or retired. -/
abbrev BackendRegistry := Table slotId

/-- The identities of a reconciliation by what happened to them, each list sorted. -/
structure ReconcileReport where
  added : List BackendId
  revived : List BackendId
  updated : List BackendId
  retired : List BackendId
  deriving DecidableEq, Repr

inductive ReconcileError where
  | duplicateBackendId (id : BackendId)
  deriving DecidableEq, Repr

inductive RegistryAcquireError where
  | unknownBackend (id : BackendId)
  | unavailable (error : AcquireError)
  deriving DecidableEq, Repr

/-- The specifications a configuration asks for, by identity. -/
abbrev DesiredSpecs := Table BackendSpec.id

namespace BackendRegistry

/-- A slot even if reconciliation retired it. -/
def getRetained (id : BackendId) (registry : BackendRegistry) : Option SlotState := registry.find? id

/-- A registered slot; tombstones are hidden from ordinary lookups. -/
def get (id : BackendId) (registry : BackendRegistry) : Option SlotState :=
  (getRetained id registry).filter SlotState.registered

def tryAcquire (id : BackendId) (now : Nat) (registry : BackendRegistry) :
    Except RegistryAcquireError (BackendRegistry × BackendLease) :=
  match getRetained id registry with
  | none => .error (.unknownBackend id)
  | some slot =>
      match slot.tryAcquire now with
      | .error error => .error (.unavailable error)
      | .ok (slot, lease) => .ok (registry.put slot, lease)

/-- Snapshots of the registered backends, sorted by identity. -/
def snapshots (now : Nat) (registry : BackendRegistry) : List BackendSnapshot :=
  ((registry.entries.filter SlotState.registered).map (SlotState.snapshot now)).insertionSort
    (fun left right => left.spec.id ≤ right.spec.id)

/-- What reconciliation makes of a slot that is already there. -/
def reconcileSlot (desired : DesiredSpecs) (slot : SlotState) : SlotState :=
  match desired.find? slot.spec.id with
  | some spec => (slot.reconcilePresent spec).1
  | none => slot.reconcileAbsent.1

theorem reconcileSlot_id (desired : DesiredSpecs) (slot : SlotState) :
    slotId (reconcileSlot desired slot) = slotId slot := by
  unfold reconcileSlot slotId
  split
  · rename_i spec hfind
    rw [SlotState.reconcilePresent_spec, Table.key_of_find? hfind]
  · rw [SlotState.reconcileAbsent_spec]

theorem newSlot_id (spec : BackendSpec) : slotId (SlotState.new spec .disabled) = spec.id := rfl

/-- The slots created for identities without one; they start disabled. -/
def newSlots (desired : DesiredSpecs) (registry : BackendRegistry) : BackendRegistry :=
  (desired.filter fun spec => (registry.find? spec.id).isNone).mapEntries
    (fun spec => SlotState.new spec .disabled) newSlot_id

/-- The registry after a reconciliation. -/
def reconciled (desired : DesiredSpecs) (registry : BackendRegistry) : BackendRegistry :=
  (registry.mapEntries (reconcileSlot desired) (reconcileSlot_id desired)).union
    (newSlots desired registry) (by
      intro entry hentry new hnew
      simp only [Table.mapEntries, List.mem_map] at hentry
      simp only [newSlots, Table.mapEntries, Table.filter, List.mem_map, List.mem_filter] at hnew
      obtain ⟨slot, hslot, rfl⟩ := hentry
      obtain ⟨spec, ⟨-, hnone⟩, rfl⟩ := hnew
      rw [reconcileSlot_id]
      intro hid
      change slotId slot = spec.id at hid
      rw [← hid, Table.find?_key hslot] at hnone
      cases hnone)

def sortIds (ids : List BackendId) : List BackendId := ids.insertionSort (· ≤ ·)

/-- Existing slots that `desired` names, with the outcome of `reconcile_present` on them. -/
def reconcileOutcomes (desired : DesiredSpecs) (registry : BackendRegistry) :
    List (BackendId × ReconciledSlot) :=
  desired.entries.filterMap fun spec =>
    (registry.find? spec.id).map fun slot => (spec.id, (slot.reconcilePresent spec).2)

def reconcileReport (desired : DesiredSpecs) (registry : BackendRegistry) : ReconcileReport where
  added := sortIds ((desired.entries.filter fun spec => (registry.find? spec.id).isNone).map BackendSpec.id)
  revived := sortIds (((reconcileOutcomes desired registry).filter (·.2.revived)).map (·.1))
  updated := sortIds (((reconcileOutcomes desired registry).filter (·.2.updated)).map (·.1))
  retired := sortIds
    ((registry.entries.filter fun slot => (desired.find? slot.spec.id).isNone && slot.reconcileAbsent.2).map slotId)

/-- Reconcile the registry with the desired specifications. Duplicates are refused before any change. -/
def reconcile (specs : List BackendSpec) (registry : BackendRegistry) :
    Except ReconcileError (BackendRegistry × ReconcileReport) :=
  match Table.collect specs with
  | .error id => .error (.duplicateBackendId id)
  | .ok desired => .ok (reconciled desired registry, reconcileReport desired registry)

variable {registry next : BackendRegistry} {id : BackendId} {slot : SlotState} {now : Nat}

theorem get_eq_some_iff :
    get id registry = some slot ↔ registry.find? id = some slot ∧ slot.registered = true := by
  simp only [get, getRetained, Option.filter_eq_some_iff]

theorem slot_id (h : registry.find? id = some slot) : slot.spec.id = id := (Table.find?_eq_some_iff.mp h).2

theorem tryAcquire_ok {lease : BackendLease} (h : tryAcquire id now registry = .ok (next, lease)) :
    ∃ slot after, registry.find? id = some slot ∧ slot.tryAcquire now = .ok (after, lease) ∧
      next = registry.put after := by
  unfold tryAcquire getRetained at h
  split at h
  · cases h
  · rename_i slot hslot
    split at h
    · cases h
    · rename_i after found hacquire
      simp only [Except.ok.injEq, Prod.mk.injEq] at h
      obtain ⟨rfl, rfl⟩ := h
      exact ⟨slot, after, hslot, hacquire, rfl⟩

theorem mem_snapshots {snapshot : BackendSnapshot} :
    snapshot ∈ snapshots now registry ↔
      ∃ slot, registry.find? snapshot.spec.id = some slot ∧ slot.registered = true ∧
        snapshot = slot.snapshot now := by
  simp only [snapshots, List.mem_insertionSort, List.mem_map, List.mem_filter]
  constructor
  · rintro ⟨slot, ⟨hmem, hregistered⟩, rfl⟩
    exact ⟨slot, Table.find?_key hmem, hregistered, rfl⟩
  · rintro ⟨slot, hfind, hregistered, hsnapshot⟩
    exact ⟨slot, ⟨Table.mem_of_find? hfind, hregistered⟩, hsnapshot.symm⟩

/-- Every slot that was there is reconciled in place; every other desired identity gets a new slot. -/
theorem find?_reconciled (desired : DesiredSpecs) (registry : BackendRegistry) (id : BackendId) :
    (reconciled desired registry).find? id =
      match registry.find? id with
      | some slot => some (reconcileSlot desired slot)
      | none => (desired.find? id).map fun spec => SlotState.new spec .disabled := by
  rw [reconciled, Table.find?_union, Table.find?_mapEntries]
  cases hfind : registry.find? id with
  | some slot => rfl
  | none =>
      rw [newSlots, Table.find?_mapEntries, Table.find?_filter]
      cases hdesired : desired.find? id with
      | none => rfl
      | some spec =>
          have hid := Table.key_of_find? hdesired
          simp [hid, hfind]

theorem reconcile_ok {specs : List BackendSpec} {report : ReconcileReport}
    (h : reconcile specs registry = .ok (next, report)) :
    ∃ desired : DesiredSpecs, desired.entries = specs ∧ next = reconciled desired registry ∧
      report = reconcileReport desired registry := by
  unfold reconcile at h
  split at h
  · cases h
  · rename_i desired hcollect
    cases h
    exact ⟨desired, Table.collect_ok hcollect, rfl, rfl⟩

theorem mem_sortIds {ids : List BackendId} : id ∈ sortIds ids ↔ id ∈ ids := List.mem_insertionSort _

theorem mem_added {desired : DesiredSpecs} :
    id ∈ (reconcileReport desired registry).added ↔
      registry.find? id = none ∧ ∃ spec, desired.find? id = some spec := by
  simp only [reconcileReport, mem_sortIds, List.mem_map, List.mem_filter, Option.isNone_iff_eq_none]
  constructor
  · rintro ⟨spec, ⟨hmem, hnone⟩, rfl⟩
    exact ⟨hnone, spec, Table.find?_key hmem⟩
  · rintro ⟨hnone, spec, hspec⟩
    obtain ⟨hmem, rfl⟩ := Table.find?_eq_some_iff.mp hspec
    exact ⟨spec, ⟨hmem, hnone⟩, rfl⟩

theorem mem_revived {desired : DesiredSpecs} :
    id ∈ (reconcileReport desired registry).revived ↔
      (∃ slot, registry.find? id = some slot ∧ slot.registered = false) ∧
        ∃ spec, desired.find? id = some spec := by
  simp only [reconcileReport, mem_sortIds, List.mem_map, List.mem_filter, reconcileOutcomes,
    List.mem_filterMap, Option.map_eq_some_iff]
  constructor
  · rintro ⟨_, ⟨⟨spec, hmem, slot, hslot, rfl⟩, hrevived⟩, rfl⟩
    exact ⟨⟨slot, hslot, by simpa [SlotState.reconcilePresent] using hrevived⟩, spec, Table.find?_key hmem⟩
  · rintro ⟨⟨slot, hslot, hretired⟩, spec, hspec⟩
    obtain ⟨hmem, rfl⟩ := Table.find?_eq_some_iff.mp hspec
    exact ⟨_, ⟨⟨spec, hmem, slot, hslot, rfl⟩, by simp [SlotState.reconcilePresent, hretired]⟩, rfl⟩

theorem find?_modify {f : SlotState → SlotState} (hf : ∀ slot, (f slot).spec = slot.spec) (registry : BackendRegistry)
    (id other : BackendId) :
    (registry.update id f).find? other = if other = id then (registry.find? id).map f else registry.find? other := by
  refine Table.find?_update ?_ other
  intro entry hentry
  rw [slotId, hf entry]
  exact slot_id hentry

theorem find?_modify_of_find {f : SlotState → SlotState} (hf : ∀ slot, (f slot).spec = slot.spec)
    (hslot : registry.find? id = some slot) (other : BackendId) :
    (registry.update id f).find? other = if other = id then some (f slot) else registry.find? other := by
  rw [find?_modify hf, hslot]
  rfl

/-- Replace the slot of an identity by one with the same identity. -/
theorem find?_replace {new : SlotState} (hslot : registry.find? id = some slot) (hnew : new.spec.id = id)
    (other : BackendId) :
    (registry.put new).find? other = if other = id then some new else registry.find? other := by
  rw [Table.find?_put]
  by_cases hother : other = id
  · subst hother
    rw [if_pos rfl, hslot, slotId, if_pos hnew.symm]
    rfl
  · rw [if_neg hother, slotId, hnew, if_neg hother]

end BackendRegistry

end MistralrsProxy
