import Mathlib.Data.String.Basic
import MistralrsProxy.BackendRegistry

/-! What a reconciliation makes of a registry: the desired set is registered, and whatever drains in progress rely
on, leases, modes and their epochs, stays with the slots. -/

open Keyed

namespace MistralrsProxy

namespace BackendRegistry

/-- Reconcile in place: a refused list leaves the slots as they are. -/
def reconcileInPlace (specs : List BackendSpec) (registry : BackendRegistry) :
    BackendRegistry × Except ReconcileError ReconcileReport :=
  match reconcile specs registry with
  | .error error => (registry, .error error)
  | .ok (next, report) => (next, .ok report)

/-- The list asks for this backend. -/
def Listed (specs : List BackendSpec) (id : BackendId) : Prop := ∃ spec ∈ specs, spec.id = id

/-- What a reconciliation may change of a slot that was there. -/
structure Kept (specs : List BackendSpec) (id : BackendId) (slot next : SlotState) : Prop where
  identity : next.spec.id = slot.spec.id
  leases : next.leases = slot.leases
  totalAcquired : next.totalAcquired = slot.totalAcquired
  retired : slot.registered = true → slot.mode = .active → ¬Listed specs id →
    next.mode = .disabled ∧ slot.modeEpoch < next.modeEpoch
  mode : ¬(slot.registered = true ∧ slot.mode = .active ∧ ¬Listed specs id) →
    next.mode = slot.mode ∧ next.modeEpoch = slot.modeEpoch

/-- The registry realises the list, and the report says how it came to. -/
structure Realises (specs : List BackendSpec) (registry next : BackendRegistry) (report : ReconcileReport) : Prop where
  registered : ∀ id, (∃ slot, get id next = some slot) ↔ Listed specs id
  listed : ∀ id slot, get id next = some slot → slot.spec ∈ specs
  kept : ∀ id slot, registry.find? id = some slot → ∃ after, next.find? id = some after ∧ Kept specs id slot after
  created : ∀ id slot, registry.find? id = none → next.find? id = some slot → slot.mode = .disabled
  added : ∀ id, id ∈ report.added ↔ Listed specs id ∧ registry.find? id = none
  revived : ∀ id, id ∈ report.revived ↔ Listed specs id ∧ ∃ slot, registry.find? id = some slot ∧
    slot.registered = false
  updated : ∀ id, id ∈ report.updated ↔ ∃ spec ∈ specs, spec.id = id ∧ ∃ slot, registry.find? id = some slot ∧
    slot.spec ≠ spec
  retired : ∀ id, id ∈ report.retired ↔ (∃ slot, get id registry = some slot) ∧ ¬Listed specs id
  sorted : report.added.Pairwise (· < ·) ∧ report.revived.Pairwise (· < ·) ∧ report.updated.Pairwise (· < ·) ∧
    report.retired.Pairwise (· < ·)

variable {desired : DesiredSpecs} {registry : BackendRegistry} {id : BackendId} {slot : SlotState}

theorem listed_iff : Listed desired.entries id ↔ ∃ spec, desired.find? id = some spec := by
  constructor
  · rintro ⟨spec, hmem, rfl⟩
    exact ⟨spec, Table.find?_key hmem⟩
  · rintro ⟨spec, hspec⟩
    exact ⟨spec, Table.find?_eq_some_iff.mp hspec⟩

theorem not_listed_iff : ¬Listed desired.entries id ↔ desired.find? id = none := by
  rw [listed_iff, Option.eq_none_iff_forall_ne_some]
  push Not
  rfl

theorem kept_reconcileSlot (hid : slot.spec.id = id) : Kept desired.entries id slot (reconcileSlot desired slot) := by
  have hsame : (reconcileSlot desired slot).spec.id = slot.spec.id := reconcileSlot_id desired slot
  cases hfind : desired.find? id with
  | some spec =>
      have hlisted : Listed desired.entries id := listed_iff.mpr ⟨spec, hfind⟩
      have hslot : reconcileSlot desired slot = (slot.reconcilePresent spec).1 := by
        rw [reconcileSlot, hid, hfind]
      rw [hslot] at hsame ⊢
      exact ⟨hsame, by simp, by simp, fun _ _ hnot => absurd hlisted hnot, fun _ => by simp⟩
  | none =>
      have hnot : ¬Listed desired.entries id := not_listed_iff.mpr hfind
      have hslot : reconcileSlot desired slot = slot.reconcileAbsent.1 := by
        rw [reconcileSlot, hid, hfind]
      rw [hslot] at hsame ⊢
      obtain ⟨hmode, hepoch⟩ := slot.reconcileAbsent_mode
      refine ⟨hsame, by simp, by simp, ?_, ?_⟩
      · intro hregistered hactive _
        rw [hmode, hepoch, if_pos ⟨hregistered, hactive⟩, if_pos ⟨hregistered, hactive⟩]
        exact ⟨rfl, Nat.lt_succ_self _⟩
      · intro hother
        have hcond : ¬(slot.registered = true ∧ slot.mode = .active) := fun h => hother ⟨h.1, h.2, hnot⟩
        rw [hmode, hepoch, if_neg hcond, if_neg hcond]
        exact ⟨rfl, rfl⟩

theorem get_reconciled_iff (id : BackendId) :
    (∃ slot, get id (reconciled desired registry) = some slot) ↔ Listed desired.entries id := by
  rw [listed_iff]
  simp only [get_eq_some_iff, find?_reconciled]
  cases hslot : registry.find? id with
  | some slot =>
      have hid := slot_id hslot
      simp only [Option.some.injEq, exists_eq_left']
      rw [reconcileSlot, hid]
      cases hfind : desired.find? id with
      | some spec => simp
      | none => simp
  | none =>
      cases hfind : desired.find? id with
      | some spec => simp [SlotState.new]
      | none => simp

theorem spec_of_get_reconciled (h : get id (reconciled desired registry) = some slot) :
    slot.spec ∈ desired.entries := by
  obtain ⟨hfind, hregistered⟩ := get_eq_some_iff.mp h
  obtain ⟨spec, hspec⟩ := listed_iff.mp ((get_reconciled_iff id).mp ⟨slot, h⟩)
  have hslot : slot.spec = spec := by
    rw [find?_reconciled] at hfind
    cases hold : registry.find? id with
    | some old =>
        have hid := slot_id hold
        rw [hold] at hfind
        simp only [reconcileSlot, hid, hspec, Option.some.injEq] at hfind
        rw [← hfind, SlotState.reconcilePresent_spec]
    | none =>
        rw [hold, hspec] at hfind
        cases hfind
        rfl
  rw [hslot]
  exact Table.mem_of_find? hspec

theorem mem_updated : id ∈ (reconcileReport desired registry).updated ↔
    ∃ spec ∈ desired.entries, spec.id = id ∧ ∃ slot, registry.find? id = some slot ∧ slot.spec ≠ spec := by
  simp only [reconcileReport, mem_sortIds, List.mem_map, List.mem_filter, reconcileOutcomes, List.mem_filterMap,
    Option.map_eq_some_iff]
  constructor
  · rintro ⟨_, ⟨⟨spec, hmem, slot, hslot, rfl⟩, hupdated⟩, rfl⟩
    exact ⟨spec, hmem, rfl, slot, hslot, by simpa [SlotState.reconcilePresent] using hupdated⟩
  · rintro ⟨spec, hmem, rfl, slot, hslot, hne⟩
    exact ⟨_, ⟨⟨spec, hmem, slot, hslot, rfl⟩, by simpa [SlotState.reconcilePresent] using hne⟩, rfl⟩

theorem mem_retired : id ∈ (reconcileReport desired registry).retired ↔
    (∃ slot, get id registry = some slot) ∧ ¬Listed desired.entries id := by
  rw [not_listed_iff]
  simp only [reconcileReport, mem_sortIds, List.mem_map, List.mem_filter, Bool.and_eq_true, Option.isNone_iff_eq_none,
    get_eq_some_iff]
  constructor
  · rintro ⟨slot, ⟨hmem, hnone, hretired⟩, rfl⟩
    refine ⟨⟨slot, Table.find?_key hmem, ?_⟩, hnone⟩
    cases hregistered : slot.registered with
    | true => rfl
    | false => simp [SlotState.reconcileAbsent, hregistered] at hretired
  · rintro ⟨⟨slot, hslot, hregistered⟩, hnone⟩
    obtain ⟨hmem, rfl⟩ := Table.find?_eq_some_iff.mp hslot
    exact ⟨slot, ⟨hmem, hnone, by simp [SlotState.reconcileAbsent, hregistered]⟩, rfl⟩

theorem sortIds_pairwise {ids : List BackendId} (h : ids.Nodup) : (sortIds ids).Pairwise (· < ·) := by
  have hnodup : (sortIds ids).Nodup := (List.perm_insertionSort _ ids).nodup_iff.mpr h
  have hsorted : (sortIds ids).Pairwise (· ≤ ·) := List.pairwise_insertionSort (· ≤ ·) ids
  exact (hsorted.and hnodup).imp fun ⟨hle, hne⟩ => lt_of_le_of_ne hle hne

theorem nodup_outcomes : ((reconcileOutcomes desired registry).map (·.1)).Nodup := by
  have hsublist : ∀ specs : List BackendSpec, ((specs.filterMap fun spec =>
      (registry.find? spec.id).map fun slot => (spec.id, (slot.reconcilePresent spec).2)).map (·.1)).Sublist
        (specs.map BackendSpec.id) := by
    intro specs
    induction specs with
    | nil => exact List.Sublist.refl _
    | cons spec specs ih =>
        rw [List.map_cons, List.filterMap_cons]
        cases registry.find? spec.id with
        | none => exact ih.cons _
        | some slot => exact ih.cons_cons _
  exact desired.nodup.sublist (hsublist desired.entries)

theorem reconcileReport_sorted (desired : DesiredSpecs) (registry : BackendRegistry) :
    (reconcileReport desired registry).added.Pairwise (· < ·) ∧
    (reconcileReport desired registry).revived.Pairwise (· < ·) ∧
      (reconcileReport desired registry).updated.Pairwise (· < ·) ∧
      (reconcileReport desired registry).retired.Pairwise (· < ·) :=
  ⟨sortIds_pairwise (desired.nodup.sublist (List.filter_sublist.map _)),
    sortIds_pairwise (nodup_outcomes.sublist (List.filter_sublist.map _)),
    sortIds_pairwise (nodup_outcomes.sublist (List.filter_sublist.map _)),
    sortIds_pairwise (registry.nodup.sublist (List.filter_sublist.map _))⟩

theorem realises_reconciled (desired : DesiredSpecs) (registry : BackendRegistry) :
    Realises desired.entries registry (reconciled desired registry) (reconcileReport desired registry) where
  registered := get_reconciled_iff
  listed := fun _ _ => spec_of_get_reconciled
  kept := by
    intro id slot hslot
    refine ⟨reconcileSlot desired slot, ?_, kept_reconcileSlot (slot_id hslot)⟩
    rw [find?_reconciled, hslot]
  created := by
    intro id slot hnone hslot
    rw [find?_reconciled, hnone] at hslot
    obtain ⟨spec, _, rfl⟩ := Option.map_eq_some_iff.mp hslot
    rfl
  added := by
    intro id
    rw [mem_added, listed_iff, and_comm]
  revived := by
    intro id
    rw [mem_revived, listed_iff, and_comm]
  updated := fun _ => mem_updated
  retired := fun _ => mem_retired
  sorted := reconcileReport_sorted desired registry

/-- A slot that the list has been applied to stays as it is. -/
theorem reconcileSlot_reconciled (h : (reconciled desired registry).find? id = some slot) :
    reconcileSlot desired slot = slot := by
  have hid := slot_id h
  cases hfind : desired.find? id with
  | some spec =>
      obtain ⟨found, hget⟩ := (get_reconciled_iff id).mpr (listed_iff.mpr ⟨spec, hfind⟩)
      obtain ⟨hfound, hregistered⟩ := get_eq_some_iff.mp hget
      have hmem := spec_of_get_reconciled hget
      rw [h] at hfound
      cases hfound
      have hspec : slot.spec = spec :=
        desired.eq_of_key hmem (Table.mem_of_find? hfind) (hid.trans (Table.key_of_find? hfind).symm)
      rw [reconcileSlot, hid, hfind]
      simp only [SlotState.reconcilePresent, hspec, ne_eq, not_true_eq_false, decide_false, Bool.false_eq_true,
        if_false, hregistered, Bool.not_true, Bool.or_false]
      rw [← hregistered, ← hspec]
  | none =>
      have hretired : slot.registered = false := by
        cases hregistered : slot.registered with
        | false => rfl
        | true =>
            have hlisted := (get_reconciled_iff id).mp ⟨slot, get_eq_some_iff.mpr ⟨h, hregistered⟩⟩
            exact absurd hlisted (not_listed_iff.mpr hfind)
      rw [reconcileSlot, hid, hfind]
      simp only [SlotState.reconcileAbsent, hretired, if_true]

theorem reconciled_reconciled (desired : DesiredSpecs) (registry : BackendRegistry) :
    reconciled desired (reconciled desired registry) = reconciled desired registry := by
  have hslots : (reconciled desired registry).entries.map (reconcileSlot desired) =
      (reconciled desired registry).entries := by
    refine (List.map_congr_left ?_).trans (List.map_id _)
    intro slot hmem
    exact reconcileSlot_reconciled (Table.find?_key hmem)
  have hnew : (newSlots desired (reconciled desired registry)).entries = [] := by
    simp only [newSlots, Table.mapEntries, Table.filter, List.map_eq_nil_iff, List.filter_eq_nil_iff]
    intro spec hmem hnone
    obtain ⟨slot, hget⟩ := (get_reconciled_iff spec.id).mpr ⟨spec, hmem, rfl⟩
    rw [(get_eq_some_iff.mp hget).1] at hnone
    cases hnone
  apply Table.ext
  change (reconciled desired registry).entries.map (reconcileSlot desired) ++ _ = _
  rw [hslots, hnew, List.append_nil]

theorem reconcileReport_reconciled (desired : DesiredSpecs) (registry : BackendRegistry) :
    reconcileReport desired (reconciled desired registry) = ⟨[], [], [], []⟩ := by
  have hreport := realises_reconciled desired (reconciled desired registry)
  have hlisted : ∀ id, Listed desired.entries id → ∃ slot, (reconciled desired registry).find? id = some slot ∧
      slot.registered = true := by
    intro id hlisted
    obtain ⟨slot, hget⟩ := (get_reconciled_iff id).mpr hlisted
    exact ⟨slot, get_eq_some_iff.mp hget⟩
  have hadded : (reconcileReport desired (reconciled desired registry)).added = [] := by
    refine List.eq_nil_iff_forall_not_mem.mpr fun id hmem => ?_
    obtain ⟨hid, hnone⟩ := (hreport.added id).mp hmem
    obtain ⟨slot, hslot, _⟩ := hlisted id hid
    rw [hnone] at hslot
    cases hslot
  have hrevived : (reconcileReport desired (reconciled desired registry)).revived = [] := by
    refine List.eq_nil_iff_forall_not_mem.mpr fun id hmem => ?_
    obtain ⟨hid, slot, hslot, hretired⟩ := (hreport.revived id).mp hmem
    obtain ⟨other, hother, hregistered⟩ := hlisted id hid
    rw [hslot] at hother
    cases hother
    rw [hretired] at hregistered
    cases hregistered
  have hupdated : (reconcileReport desired (reconciled desired registry)).updated = [] := by
    refine List.eq_nil_iff_forall_not_mem.mpr fun id hmem => ?_
    obtain ⟨spec, hspec, hid, slot, hslot, hne⟩ := (hreport.updated id).mp hmem
    obtain ⟨other, hother, hregistered⟩ := hlisted id ⟨spec, hspec, hid⟩
    rw [hslot] at hother
    cases hother
    have hmem := spec_of_get_reconciled (get_eq_some_iff.mpr ⟨hslot, hregistered⟩)
    exact hne (desired.eq_of_key hmem hspec ((slot_id hslot).trans hid.symm))
  have hretired : (reconcileReport desired (reconciled desired registry)).retired = [] := by
    refine List.eq_nil_iff_forall_not_mem.mpr fun id hmem => ?_
    obtain ⟨hget, hnot⟩ := (hreport.retired id).mp hmem
    exact hnot ((get_reconciled_iff id).mp hget)
  generalize reconcileReport desired (reconciled desired registry) = report at *
  cases report
  simp only at hadded hrevived hupdated hretired
  rw [hadded, hrevived, hupdated, hretired]

/-- A list with a repeated identity changes nothing. Any other is realised, with what happened to each backend in the
report, and asking for it again changes and reports nothing. -/
theorem reconcile_realises_the_list (specs : List BackendSpec) (registry : BackendRegistry) :
    (¬(specs.map BackendSpec.id).Nodup →
        ∃ id, reconcileInPlace specs registry = (registry, .error (.duplicateBackendId id))) ∧
      ((specs.map BackendSpec.id).Nodup →
        ∃ next report, reconcileInPlace specs registry = (next, .ok report) ∧ Realises specs registry next report ∧
          reconcileInPlace specs next = (next, .ok ⟨[], [], [], []⟩)) := by
  constructor
  · intro hdup
    cases hcollect : (Table.collect specs : Except BackendId DesiredSpecs) with
    | ok desired =>
        have hentries := Table.collect_ok hcollect
        have hnodup := desired.nodup
        rw [hentries] at hnodup
        exact absurd hnodup hdup
    | error id =>
        refine ⟨id, ?_⟩
        simp only [reconcileInPlace, reconcile, hcollect]
  · intro hnodup
    have hcollect : (Table.collect specs : Except BackendId DesiredSpecs) = .ok ⟨specs, hnodup⟩ :=
      Table.collect_of_nodup hnodup
    refine ⟨reconciled ⟨specs, hnodup⟩ registry, reconcileReport ⟨specs, hnodup⟩ registry, ?_,
      realises_reconciled ⟨specs, hnodup⟩ registry, ?_⟩
    · simp only [reconcileInPlace, reconcile, hcollect]
    · simp only [reconcileInPlace, reconcile, hcollect, reconciled_reconciled, reconcileReport_reconciled]

end BackendRegistry

end MistralrsProxy
