import MistralrsProxy.ControlOperations

/-! When a backend starts to drain, and the invariant of the drain operations: their tasks are sound, at most
one of a backend is in phase `draining`, and a reload puts a backend into draining only if it has none. -/

open Transition Keyed

namespace MistralrsProxy

namespace ControlWorld

variable {world next : ControlWorld} {id target : BackendId}

theorem draining_of_ages (h : BackendRegistry.Ages world.registry next.registry) :
    next.draining id = world.draining id := by
  rw [Bool.eq_iff_iff, draining_iff, draining_iff]
  constructor
  · rintro ⟨slot, hslot, hregistered, hmode⟩
    obtain ⟨before, hbefore, haged⟩ := h.find hslot
    exact ⟨before, hbefore, haged.registered.symm.trans hregistered, haged.mode.symm.trans hmode⟩
  · rintro ⟨slot, hslot, hregistered, hmode⟩
    obtain ⟨after, hafter, haged⟩ := h.kept hslot
    exact ⟨after, hafter, haged.registered.trans hregistered, haged.mode.trans hmode⟩

theorem draining_of_find (hnext : next.draining id = true) (h : next.registry.find? id = world.registry.find? id) :
    world.draining id = true := by
  rwa [draining, BackendRegistry.get, BackendRegistry.getRetained, h] at hnext

theorem draining_of_registry (hnext : next.draining id = true) (h : next.registry = world.registry) :
    world.draining id = true := draining_of_find hnext (congrArg (Table.find? id) h)

/-- A change of one slot makes no other backend draining. -/
theorem draining_of_update {f : SlotState → SlotState} (hf : ∀ slot, (f slot).spec = slot.spec)
    (hregistry : next.registry = world.registry.update target f) (hnext : next.draining id = true) :
    world.draining id = true ∨ id = target ∧
      ∃ slot, world.registry.find? id = some slot ∧ (f slot).registered = true ∧ (f slot).mode = .draining := by
  by_cases hid : id = target
  · subst hid
    obtain ⟨slot, hslot, hregistered, hmode⟩ := draining_iff.mp hnext
    rw [hregistry, BackendRegistry.find?_modify hf, if_pos rfl] at hslot
    obtain ⟨before, hbefore, rfl⟩ := Option.map_eq_some_iff.mp hslot
    exact .inr ⟨rfl, before, hbefore, hregistered, hmode⟩
  · refine .inl (draining_of_find hnext ?_)
    rw [hregistry, BackendRegistry.find?_modify hf, if_neg hid]

theorem draining_of_disable (hregistry : next.registry = world.registry.update target SlotState.disable)
    (hnext : next.draining id = true) : world.draining id = true := by
  rcases draining_of_update (fun slot => SlotState.switchMode_spec slot .disabled) hregistry hnext with
    hdraining | ⟨_, slot, _, _, hmode⟩
  · exact hdraining
  · rw [SlotState.switchMode_mode] at hmode
    cases hmode

theorem draining_of_restore {mode : BackendMode} (hregistry : next.registry = world.registry.update target
    (SlotState.restore mode)) (hnext : next.draining id = true) :
    world.draining id = true ∨ id = target ∧ mode = .draining ∧
      ∃ slot, world.registry.find? id = some slot ∧ slot.registered = true := by
  rcases draining_of_update (fun slot => SlotState.restore_spec slot mode) hregistry hnext with
    hdraining | ⟨hid, slot, hslot, hregistered, hmode⟩
  · exact .inl hdraining
  · rw [SlotState.restore_registered] at hregistered
    rw [SlotState.restore_of_registered hregistered, SlotState.switchMode_mode] at hmode
    exact .inr ⟨hid, hmode, slot, hslot, hregistered⟩

theorem draining_of_reconcile (hcoherent : Coherent world) {config : ValidConfig} {report : ReconcileReport}
    (hreconcile : BackendRegistry.reconcile (config.val.backends.map Backend.registrySpec) world.registry =
      .ok (next.registry, report)) (hnext : next.draining id = true) : world.draining id = true := by
  obtain ⟨slot, hslot, hregistered, hmode⟩ := draining_iff.mp hnext
  rcases BackendRegistry.reconcile_cases hreconcile hslot with
    ⟨_, _, _, _, _, ⟨old, hold, hsame, _⟩ | ⟨_, _, hdisabled, _⟩⟩ | ⟨_, hretired, _⟩
  · rw [hmode] at hsame
    cases holdRegistered : old.registered with
    | true => exact draining_iff.mpr ⟨old, hold, holdRegistered, hsame.symm⟩
    | false =>
        rw [(hcoherent.retired id old hold holdRegistered).1] at hsame
        cases hsame
  · rw [hmode] at hdisabled
    cases hdisabled
  · rw [hregistered] at hretired
    cases hretired

theorem proceed_draining (hcoherent : Coherent world) {failure : Option String} (h : world.proceed failure = some next)
    (hnext : next.draining id = true) :
    world.draining id = true ∨ ∃ config report pending slot,
      world.lifecycle = .reloadRestore config report ((id, .draining) :: pending) ∧
        next.lifecycle = .reloadRestore config report pending ∧ world.registry.find? id = some slot ∧
        slot.registered = true := by
  unfold proceed at h
  split at h
  · cases h
  · split at h <;> cases h <;> exact .inl hnext
  · rename_i target before error hlife
    cases h
    rcases draining_of_restore rfl hnext with hdraining | ⟨rfl, rfl, slot, hslot, hregistered⟩
    · exact .inl hdraining
    · have hgate := (hcoherent.registered id slot hslot hregistered).2
      simp only [hlife, Lifecycle.Gate, if_true] at hgate
      exact absurd rfl hgate.2.2
  · cases h
    exact .inl (draining_of_registry hnext (ensureDrainOperation_some _ world).2.1)
  · split at h <;> cases h <;> exact .inl hnext
  · rename_i target hlife
    obtain ⟨slot, hslot, rfl⟩ := Option.map_eq_some_iff.mp h
    split at hnext
    · rename_i opened hopened
      have hmode : opened.mode = .active ∧ opened.spec.id = target := by
        have hid := BackendRegistry.slot_id hslot
        simp only [SlotState.activate, SlotState.setMode] at hopened
        split at hopened
        · cases hopened
        · cases hopened
          exact ⟨SlotState.switchMode_mode slot .active, by rw [SlotState.switchMode_spec]; exact hid⟩
      by_cases hid : id = target
      · subst hid
        obtain ⟨found, hfound, _, hdraining⟩ := draining_iff.mp hnext
        replace hfound := (BackendRegistry.find?_replace hslot hmode.2 id).symm.trans hfound
        rw [if_pos rfl, Option.some.injEq] at hfound
        rw [← hfound, hmode.1] at hdraining
        cases hdraining
      · exact .inl (draining_of_find hnext ((BackendRegistry.find?_replace hslot hmode.2 id).trans (if_neg hid)))
    · exact .inl hnext
  · split at h <;> cases h <;> exact .inl hnext
  · cases h
    exact .inl (draining_of_disable rfl hnext)
  · rename_i config hlife
    split at h
    · cases h
      exact .inl hnext
    · rename_i registry report hreconcile
      cases h
      exact .inl (draining_of_reconcile hcoherent hreconcile hnext)
  · rename_i config report target mode pending hlife
    cases h
    rcases draining_of_restore rfl hnext with hdraining | ⟨rfl, rfl, slot, hslot, hregistered⟩
    · exact .inl hdraining
    · exact .inr ⟨config, report, pending, slot, hlife, rfl, hslot, hregistered⟩
  · cases h
    exact .inl hnext
  · cases h
    exact .inl (draining_of_registry hnext (ensureDrainOperation_some _ world).2.1)
  · cases h
    exact .inl hnext
  · split at h <;> cases h <;> exact .inl hnext
  · cases h
    exact .inl (draining_of_disable rfl hnext)
  · cases h
    exact .inl hnext

/-- A backend starts to drain by a drain command, or by a reload that restores its stored mode. -/
theorem step_draining (hcoherent : Coherent world) {op : ControlOp} (hrestart : ∀ config, op ≠ .restart config)
    (h : world.step op = some next) (hnext : next.draining id = true) :
    world.draining id = true ∨ op = .drain id ∨ ∃ config report pending slot,
      world.lifecycle = .reloadRestore config report ((id, .draining) :: pending) ∧
        next.lifecycle = .reloadRestore config report pending ∧ world.registry.find? id = some slot ∧
        slot.registered = true := by
  cases op with
  | select | request | readiness | beginScrape | endScrape | elapse =>
      rw [draining_of_ages (step_background rfl h).ages] at hnext
      exact .inl hnext
  | drain target =>
      obtain ⟨_, rfl⟩ := command_some h
      by_cases hid : id = target
      · exact .inr (.inl (congrArg ControlOp.drain hid.symm))
      · left
        unfold drain at hnext
        split at hnext
        · exact hnext
        · rename_i slot hget
          have hslot := (BackendRegistry.get_eq_some_iff.mp hget).1
          refine draining_of_find hnext ((BackendRegistry.find?_replace hslot ?_ id).trans (if_neg hid))
          rw [SlotState.beginDrain, SlotState.switchMode_spec, BackendRegistry.slot_id hslot]
  | activate target =>
      obtain ⟨_, rfl⟩ := command_some h
      exact .inl (draining_of_registry hnext (activate_store target world).2.1)
  | disable target force =>
      obtain ⟨_, rfl⟩ := command_some h
      exact .inl (draining_of_registry hnext (disable_store target force world).2.1)
  | reload config =>
      obtain ⟨_, rfl⟩ := command_some h
      exact .inl (draining_of_registry hnext (reload_store config world).2.1)
  | proceed failure =>
      rcases proceed_draining hcoherent h hnext with hdraining | hrestored
      · exact .inl hdraining
      · exact .inr (.inr hrestored)
  | drive index =>
      obtain ⟨_, _, _, _, hregistry, _⟩ := driveStep_some h
      exact .inl (draining_of_registry hnext hregistry)
  | restart config => exact absurd rfl (hrestart config)

theorem mem_drainingIds : id ∈ world.drainingIds ↔ world.draining id = true := by
  simp only [drainingIds, List.mem_map, List.mem_filter, decide_eq_true_eq, draining_iff]
  constructor
  · rintro ⟨snapshot, ⟨hsnapshot, hmode⟩, rfl⟩
    obtain ⟨slot, hslot, hregistered, hsame⟩ := BackendRegistry.mem_snapshots.mp hsnapshot
    exact ⟨slot, hslot, hregistered, by rw [hsame] at hmode; exact hmode⟩
  · rintro ⟨slot, hslot, hregistered, hmode⟩
    have hid := BackendRegistry.slot_id hslot
    exact ⟨slot.snapshot world.now,
      ⟨BackendRegistry.mem_snapshots.mpr ⟨slot, hid.symm ▸ hslot, hregistered, rfl⟩, hmode⟩, hid⟩

/-- Slots are never removed. -/
theorem step_slots {op : ControlOp} (hrestart : ∀ config, op ≠ .restart config) (h : world.step op = some next)
    {slot : SlotState} (hslot : world.registry.find? id = some slot) :
    ∃ after, next.registry.find? id = some after := by
  cases hbackground : op.isBackground with
  | true =>
      obtain ⟨after, hafter, _⟩ := (step_background hbackground h).ages.kept hslot
      exact ⟨after, hafter⟩
  | false =>
      obtain ⟨after, hafter, _⟩ := (step_locked hbackground hrestart h).leases.kept id slot hslot
      exact ⟨after, hafter⟩

/-- A gate that a reload has still to restore belongs to a slot that the reload has added. -/
theorem step_unrestored (hcoherent : Coherent world) {op : ControlOp} (hrestart : ∀ config, op ≠ .restart config)
    (h : world.step op = some next) {config : ValidConfig} {report : ReconcileReport}
    {pending : List (BackendId × BackendMode)} (hlife : next.lifecycle = .reloadRestore config report pending)
    {slot : SlotState} (hslot : next.registry.find? id = some slot) (hregistered : slot.registered = true)
    (hmode : slot.mode ≠ next.store.mode id) :
    (world.lifecycle = .reloadReconcile config ∧ world.registry.find? id = none) ∨
      ∃ before old, world.lifecycle = .reloadRestore config report before ∧ world.registry.find? id = some old ∧
        old.registered = true ∧ old.mode ≠ world.store.mode id := by
  cases op with
  | select | request | readiness | beginScrape | endScrape | elapse =>
      have hbackground := step_background rfl h
      obtain ⟨before, hbefore, haged⟩ := hbackground.ages.find hslot
      refine .inr ⟨pending, before, hbackground.lifecycle ▸ hlife, hbefore, haged.registered.symm.trans hregistered, ?_⟩
      rw [← haged.mode, ← hbackground.store]
      exact hmode
  | drain | activate | disable | reload =>
      have hstart := command_isStart rfl h
      rw [hlife] at hstart
      cases hstart
  | proceed failure =>
      obtain ⟨hstore, _, _, ⟨hbefore, hreconcile⟩ | ⟨target, mode, hbefore, hregistry⟩⟩ := proceed_restoring h hlife
      · rw [hstore] at hmode
        rcases BackendRegistry.reconcile_cases hreconcile hslot with
          ⟨_, _, _, _, _, ⟨origin, horigin, hsame, _⟩ | ⟨hnone, _⟩⟩ | ⟨_, hretired, _⟩
        · refine absurd (hsame.trans ?_) hmode
          cases horiginRegistered : origin.registered with
          | true =>
              have hgate := (hcoherent.registered _ origin horigin horiginRegistered).2
              rw [hbefore] at hgate
              exact hgate
          | false =>
              obtain ⟨hdisabled, hstored⟩ := hcoherent.retired _ origin horigin horiginRegistered
              exact hdisabled.trans hstored.symm
        · exact .inl ⟨hbefore, hnone⟩
        · rw [hregistered] at hretired
          cases hretired
      · rw [hstore] at hmode
        have howns := hcoherent.owns
        rw [hbefore] at howns
        obtain ⟨hstored, _⟩ := howns (target, mode) List.mem_cons_self
        rw [hregistry, BackendRegistry.find?_modify (fun slot => SlotState.restore_spec slot mode)] at hslot
        split at hslot
        · rename_i heq
          subst heq
          obtain ⟨before, _, rfl⟩ := Option.map_eq_some_iff.mp hslot
          rw [SlotState.restore_registered] at hregistered
          rw [SlotState.restore_of_registered hregistered, SlotState.switchMode_mode] at hmode
          exact absurd hstored hmode
        · exact .inr ⟨_, slot, hbefore, hslot, hregistered, hmode⟩
  | drive index =>
      obtain ⟨_, _, _, hstore, hregistry, _, hkept | ⟨_, _, _, _, _, hcommit⟩⟩ := driveStep_some h
      · rw [hkept] at hlife
        rw [hregistry] at hslot
        rw [hstore] at hmode
        exact .inr ⟨pending, slot, hlife, hslot, hregistered, hmode⟩
      · rw [hcommit] at hlife
        cases hlife
  | restart config => exact absurd rfl (hrestart config)

end ControlWorld

/-- At most one operation of a backend is in phase `draining`. -/
def SingleDrain (operations : List DrainOperation) : Prop :=
  ∀ (index other : Nat) (first second : DrainOperation), operations[index]? = some first →
    operations[other]? = some second → first.backendId = second.backendId →
    first.progress.phase = .draining → second.progress.phase = .draining → index = other

/-- The invariant of the operations. -/
structure Drains (world : ControlWorld) : Prop where
  sound : ∀ operation ∈ world.operations, operation.Sound
  slots : ∀ operation ∈ world.operations, ∃ slot, world.registry.find? operation.backendId = some slot
  single : SingleDrain world.operations
  committing : ∀ index id, world.lifecycle.committing = some (index, id) →
    ∃ operation, world.operations[index]? = some operation ∧ operation.backendId = id ∧ operation.driver = .committing
  resuming : ∀ report pending, world.lifecycle = .reloadResume report pending → ∀ id ∈ pending, world.draining id = true
  /-- A gate that a reload has not restored yet belongs to a backend that was just added. -/
  restoring : ∀ config report pending, world.lifecycle = .reloadRestore config report pending →
    ∀ id slot, world.registry.find? id = some slot → slot.registered = true → slot.mode ≠ world.store.mode id →
      ∀ operation ∈ world.operations, operation.backendId ≠ id

namespace Drains

variable {world next : ControlWorld}

theorem newOperation_sound (id : BackendId) (world : ControlWorld) : (world.newOperation id).Sound := by
  constructor <;> simp [ControlWorld.newOperation]

/-- A backend that a reload is about to restore to draining has no operation yet. -/
theorem unused_of_restore (h : Drains world) (hcoherent : Coherent world) {id : BackendId} {config : ValidConfig}
    {report : ReconcileReport} {pending : List (BackendId × BackendMode)} {slot : SlotState}
    (hlife : world.lifecycle = .reloadRestore config report ((id, .draining) :: pending))
    (hslot : world.registry.find? id = some slot) (hregistered : slot.registered = true)
    (hbefore : world.draining id = false) : ∀ operation ∈ world.operations, operation.backendId ≠ id := by
  have howns := hcoherent.owns
  rw [hlife] at howns
  obtain ⟨hstored, _⟩ := howns (id, .draining) List.mem_cons_self
  apply h.restoring config report _ hlife id slot hslot hregistered
  intro hmode
  rw [ControlWorld.draining_iff.mpr ⟨slot, hslot, hregistered, hmode.trans hstored.symm⟩] at hbefore
  cases hbefore

/-- The backend an operation is started for is registered and draining. -/
theorem starting (h : Drains world) (hcoherent : Coherent world) {id : BackendId}
    (hlife : (∃ before, world.lifecycle = .drainEnsure id before) ∨
      ∃ report pending, world.lifecycle = .reloadResume report (id :: pending)) :
    world.draining id = true := by
  rcases hlife with ⟨before, hlife⟩ | ⟨report, pending, hlife⟩
  · have howns := hcoherent.owns
    rw [hlife] at howns
    exact ControlWorld.draining_iff.mpr howns
  · exact h.resuming report _ hlife id List.mem_cons_self

section Step

variable (h : Drains world) {op : ControlOp} (hrestart : ∀ config, op ≠ .restart config)
  (hstep : world.step op = some next)

include h hrestart hstep

theorem step_sound : ∀ operation ∈ next.operations, operation.Sound := by
  intro operation hmem
  obtain ⟨index, hindex⟩ := List.getElem?_of_mem hmem
  rcases (ControlWorld.step_operations hrestart hstep).origin h.sound hindex with
    ⟨_, _, _, _, hsound, _⟩ | ⟨id, _, rfl, _⟩
  · exact hsound
  · exact newOperation_sound id world

theorem step_slots (hcoherent : Coherent world) :
    ∀ operation ∈ next.operations, ∃ slot, next.registry.find? operation.backendId = some slot := by
  intro operation hmem
  obtain ⟨index, hindex⟩ := List.getElem?_of_mem hmem
  have hbefore : ∃ slot, world.registry.find? operation.backendId = some slot := by
    rcases (ControlWorld.step_operations hrestart hstep).origin h.sound hindex with
      ⟨old, hold, hid, _⟩ | ⟨id, _, rfl, _, _, hlife⟩
    · rw [hid]
      exact h.slots old (List.mem_of_getElem? hold)
    · obtain ⟨slot, hslot, _⟩ := ControlWorld.draining_iff.mp (h.starting hcoherent hlife)
      exact ⟨slot, hslot⟩
  obtain ⟨slot, hslot⟩ := hbefore
  exact ControlWorld.step_slots hrestart hstep hslot

theorem step_single : SingleDrain next.operations := by
  intro index other first second hfirst hsecond hsame hphase hphase'
  have horigin := @OperationsStep.origin world next (ControlWorld.step_operations hrestart hstep) h.sound
  -- an operation is started only if no other one of its backend is in phase draining
  have hclash : ∀ {id old}, (∀ operation ∈ world.operations, ControlWorld.joinable id operation = false) →
      old ∈ world.operations → old.backendId = id → old.progress.phase = .draining → False := by
    intro id old hnone hmem hid hdraining
    have hjoinable := hnone old hmem
    rw [ControlWorld.joinable_iff.mpr ⟨hid, hdraining⟩] at hjoinable
    cases hjoinable
  rcases horigin hfirst with ⟨old, hold, hid, _, _, hdraining⟩ | ⟨id, rfl, rfl, hnone, _⟩
  · rcases horigin hsecond with ⟨old', hold', hid', _, _, hdraining'⟩ | ⟨id, rfl, rfl, hnone, _⟩
    · exact h.single index other old old' hold hold' (hid.symm.trans (hsame.trans hid')) (hdraining hphase)
        (hdraining' hphase')
    · exact (hclash hnone (List.mem_of_getElem? hold) (hid.symm.trans hsame) (hdraining hphase)).elim
  · rcases horigin hsecond with ⟨old', hold', hid', _, _, hdraining'⟩ | ⟨_, rfl, _⟩
    · exact (hclash hnone (List.mem_of_getElem? hold') (hid'.symm.trans hsame.symm) (hdraining' hphase')).elim
    · rfl

theorem step_committing : ∀ index id, next.lifecycle.committing = some (index, id) →
    ∃ operation, next.operations[index]? = some operation ∧ operation.backendId = id ∧
      operation.driver = .committing := by
  intro index id hcommitting
  cases op with
  | select | request | readiness | beginScrape | endScrape | elapse =>
      have hbackground := ControlWorld.step_background rfl hstep
      rw [hbackground.lifecycle] at hcommitting
      rw [hbackground.operations]
      exact h.committing index id hcommitting
  | drain | activate | disable | reload =>
      rw [Lifecycle.committing_of_isStart (ControlWorld.command_isStart rfl hstep)] at hcommitting
      cases hcommitting
  | proceed failure =>
      obtain ⟨hbefore, hoperations⟩ := ControlWorld.proceed_committing hstep hcommitting
      rw [hoperations]
      exact h.committing index id hbefore
  | drive driven =>
      obtain ⟨old, new, hold, hadvance, hnot, hoperations, hlife⟩ := ControlWorld.driveStep_advance hstep
      rw [hoperations]
      rcases hlife with hlife | ⟨hnew, hfree, _, _, _, _, hlife⟩
      · rw [hlife] at hcommitting
        obtain ⟨operation, hoperation, hid, hdriver⟩ := h.committing index id hcommitting
        have hother : driven ≠ index := by
          rintro rfl
          rw [hold, Option.some.injEq] at hoperation
          exact hnot (hoperation ▸ hdriver)
        exact ⟨operation, by rwa [List.getElem?_set_ne hother], hid, hdriver⟩
      · rw [hlife] at hcommitting
        cases hcommitting
        have hlt := (List.getElem?_eq_some_iff.mp hold).1
        exact ⟨new, List.getElem?_set_self hlt, hadvance.backendId, hnew⟩
  | restart config => exact absurd rfl (hrestart config)

theorem step_resuming : ∀ report pending, next.lifecycle = .reloadResume report pending →
    ∀ id ∈ pending, next.draining id = true := by
  intro report pending hlife id hmem
  cases op with
  | select | request | readiness | beginScrape | endScrape | elapse =>
      have hbackground := ControlWorld.step_background rfl hstep
      rw [ControlWorld.draining_of_ages hbackground.ages]
      exact h.resuming report pending (hbackground.lifecycle ▸ hlife) id hmem
  | drain | activate | disable | reload =>
      have hstart := ControlWorld.command_isStart rfl hstep
      rw [hlife] at hstart
      cases hstart
  | proceed failure =>
      obtain ⟨hregistry, ⟨_, _, _, rfl, _⟩ | ⟨head, hbefore⟩⟩ := ControlWorld.proceed_resuming hstep hlife
      · exact ControlWorld.draining_of_registry (ControlWorld.mem_drainingIds.mp hmem) hregistry.symm
      · have hdraining := h.resuming report _ hbefore id (List.mem_cons_of_mem _ hmem)
        exact ControlWorld.draining_of_registry hdraining hregistry.symm
  | drive index =>
      obtain ⟨_, _, _, _, hregistry, _, hkept | ⟨_, _, _, _, _, hcommit⟩⟩ := ControlWorld.driveStep_some hstep
      · exact ControlWorld.draining_of_registry (h.resuming report pending (hkept ▸ hlife) id hmem) hregistry.symm
      · rw [hcommit] at hlife
        cases hlife
  | restart config => exact absurd rfl (hrestart config)

/-- The operations that were there before keep their backends. -/
theorem backendId_of_mem {operation : DrainOperation} (hmem : operation ∈ next.operations)
    (hnot : ∀ id before, world.lifecycle ≠ .drainEnsure id before)
    (hnot' : ∀ report pending, world.lifecycle ≠ .reloadResume report pending) :
    ∃ old ∈ world.operations, operation.backendId = old.backendId := by
  obtain ⟨index, hindex⟩ := List.getElem?_of_mem hmem
  rcases (ControlWorld.step_operations hrestart hstep).origin h.sound hindex with
    ⟨old, hold, hid, _⟩ | ⟨id, _, _, _, _, ⟨before, hlife⟩ | ⟨report, pending, hlife⟩⟩
  · exact ⟨old, List.mem_of_getElem? hold, hid⟩
  · exact absurd hlife (hnot id before)
  · exact absurd hlife (hnot' report _)

theorem step_restoring (hcoherent : Coherent world) : ∀ config report pending,
    next.lifecycle = .reloadRestore config report pending → ∀ id slot, next.registry.find? id = some slot →
      slot.registered = true → slot.mode ≠ next.store.mode id →
        ∀ operation ∈ next.operations, operation.backendId ≠ id := by
  intro config report pending hlife id slot hslot hregistered hmode operation hmem
  rcases ControlWorld.step_unrestored hcoherent hrestart hstep hlife hslot hregistered hmode with
    ⟨hbefore, hnone⟩ | ⟨before, old, hbefore, hold, holdRegistered, holdMode⟩
  · obtain ⟨origin, horigin, hid⟩ := h.backendId_of_mem hrestart hstep hmem (by simp [hbefore]) (by simp [hbefore])
    obtain ⟨found, hfound⟩ := h.slots origin horigin
    rintro rfl
    rw [hid, hfound] at hnone
    cases hnone
  · obtain ⟨origin, horigin, hid⟩ := h.backendId_of_mem hrestart hstep hmem (by simp [hbefore]) (by simp [hbefore])
    rw [hid]
    exact h.restoring config report before hbefore id old hold holdRegistered holdMode origin horigin

end Step

end Drains

/-- An operation of a task that has not run yet, for a backend no scrape of which has begun. -/
structure DrainOperation.Fresh (operation : DrainOperation) : Prop where
  phase : operation.progress.phase = .draining
  driver : operation.driver = .polling
  baseline : operation.metricsScrapesStartedAtStart = 0

/-- The operations of a process that is resuming the drains of the listed backends. -/
structure Resuming (ids : List BackendId) (world : ControlWorld) : Prop where
  live : world.routing.inner.backends = (RoutingInner.new world.published).backends
  single : SingleDrain world.operations
  fresh : ∀ operation ∈ world.operations, operation.backendId ∈ ids ∧ operation.Fresh

namespace Resuming

variable {ids : List BackendId} {world : ControlWorld} {id : BackendId}

theorem newOperation_fresh (h : Resuming ids world) : (world.newOperation id).Fresh := by
  refine ⟨rfl, rfl, ?_⟩
  show ((world.status id).map (·.metricsScrapesStarted)).getD 0 = 0
  cases hstatus : world.status id with
  | none => rfl
  | some status =>
      obtain ⟨_, live, _, _, _, _, _, hlive, rfl⟩ := RoutingState.status_some hstatus
      have hnew : live.metricsScrapesStarted = 0 := by
        obtain ⟨_, hold | ⟨hnew, _⟩⟩ := RoutingInner.ensureBackends_some hlive
        · rw [h.live] at hold
          obtain ⟨generation, _, rfl⟩ := Option.map_eq_some_iff.mp hold
          rfl
        · rw [hnew]
          rfl
      exact hnew

theorem ensure (h : Resuming ids world) (hid : id ∈ ids) :
    Resuming ids (world.ensureDrainOperation id).1 ∧
      (∃ operation ∈ (world.ensureDrainOperation id).1.operations, operation.backendId = id) ∧
      world.operations ⊆ (world.ensureDrainOperation id).1.operations := by
  have hlive := ControlWorld.ensureDrainOperation_live id h.live
  unfold ControlWorld.ensureDrainOperation at hlive ⊢
  split
  · rename_i index hindex
    obtain ⟨hlt, hjoinable, _⟩ := List.findIdx?_eq_some_iff_getElem.mp hindex
    exact ⟨h, ⟨world.operations[index], List.getElem_mem hlt, (ControlWorld.joinable_iff.mp hjoinable).1⟩,
      List.Subset.refl _⟩
  · rename_i hnone
    simp only [hnone] at hlive
    have hnone : ∀ operation ∈ world.operations, ControlWorld.joinable id operation = false := by
      simpa using List.findIdx?_eq_none_iff.mp hnone
    have hother : ∀ {index operation}, index < world.operations.length → world.operations[index]? = some operation →
        operation.backendId ≠ id := by
      intro index operation _ hoperation heq
      have hmem := List.mem_of_getElem? hoperation
      have hjoinable := hnone operation hmem
      rw [ControlWorld.joinable_iff.mpr ⟨heq, (h.fresh operation hmem).2.phase⟩] at hjoinable
      cases hjoinable
    refine ⟨⟨hlive, ?_, ?_⟩, ⟨world.newOperation id, List.mem_append_right _ List.mem_cons_self, rfl⟩,
      List.subset_append_left _ _⟩
    · have hsplit : ∀ {index operation}, (world.operations ++ [world.newOperation id])[index]? = some operation →
          world.operations[index]? = some operation ∧ index < world.operations.length ∨
            index = world.operations.length ∧ operation = world.newOperation id := by
        intro index operation hoperation
        rcases Nat.lt_or_ge index world.operations.length with hlt | hge
        · exact .inl ⟨by rwa [List.getElem?_append_left hlt] at hoperation, hlt⟩
        · rw [List.getElem?_append_right hge] at hoperation
          obtain ⟨hzero, hlast⟩ := List.getElem?_eq_some_iff.mp hoperation
          have hindex : index = world.operations.length := by
            simp only [List.length_singleton] at hzero
            omega
          subst hindex
          simp only [Nat.sub_self, List.getElem_cons_zero] at hlast
          exact .inr ⟨rfl, hlast.symm⟩
      intro index other first second hfirst hsecond hsame hphase hphase'
      rcases hsplit hfirst with ⟨hfirst, hlt⟩ | ⟨rfl, rfl⟩
      · rcases hsplit hsecond with ⟨hsecond, _⟩ | ⟨rfl, rfl⟩
        · exact h.single index other first second hfirst hsecond hsame hphase hphase'
        · exact absurd hsame (hother hlt hfirst)
      · rcases hsplit hsecond with ⟨hsecond, hlt⟩ | ⟨rfl, rfl⟩
        · exact absurd hsame.symm (hother hlt hsecond)
        · rfl
    · intro operation hmem
      rcases List.mem_append.mp hmem with hmem | hmem
      · exact h.fresh operation hmem
      · rw [List.mem_singleton.mp hmem]
        exact ⟨hid, h.newOperation_fresh⟩

theorem resume (h : Resuming ids world) {rest : List BackendId} (hrest : rest ⊆ ids) :
    Resuming ids (rest.foldl (fun world id => (world.ensureDrainOperation id).1) world) ∧
      world.operations ⊆ (rest.foldl (fun world id => (world.ensureDrainOperation id).1) world).operations ∧
      ∀ id ∈ rest, ∃ operation ∈ (rest.foldl (fun world id => (world.ensureDrainOperation id).1) world).operations,
        operation.backendId = id := by
  induction rest generalizing world with
  | nil => exact ⟨h, List.Subset.refl _, by simp⟩
  | cons head rest ih =>
      obtain ⟨hhead, hrest⟩ := List.cons_subset.mp hrest
      obtain ⟨hensured, ⟨operation, hmem, hid⟩, hsubset⟩ := h.ensure hhead
      obtain ⟨hresumed, hkept, hall⟩ := ih hensured hrest
      refine ⟨hresumed, List.Subset.trans hsubset hkept, ?_⟩
      intro id hmem'
      rcases List.mem_cons.mp hmem' with rfl | hmem'
      · exact ⟨operation, hkept hmem, hid⟩
      · exact hall id hmem'

/-- The operations of a process that has just started: one fresh operation for every draining backend. -/
theorem boot {config : ValidConfig} {store : BackendStateStore} {now : Nat}
    (h : ControlWorld.boot config store now = some world) :
    SingleDrain world.operations ∧
      (∀ operation ∈ world.operations, world.draining operation.backendId = true ∧ operation.Fresh) ∧
      ∀ id, world.draining id = true → ∃ operation ∈ world.operations, operation.backendId = id := by
  unfold ControlWorld.boot at h
  split at h
  · cases h
  · rename_i registry hregistry
    obtain rfl := Option.some.inj h
    generalize hfresh : ControlWorld.fresh _ store now = fresh
    have hregistered := (ControlWorld.resumePersistedDrains_some fresh).2.1
    have hstart : Resuming fresh.drainingIds fresh := by
      rw [← hfresh]
      refine ⟨rfl, ?_, ?_⟩
      · intro index other first second hfirst
        cases hfirst
      · intro operation hmem
        cases hmem
    obtain ⟨hresumed, _, hall⟩ := hstart.resume (List.Subset.refl _)
    refine ⟨hresumed.single, ?_, ?_⟩
    · intro operation hmem
      obtain ⟨hid, hnew⟩ := hresumed.fresh operation hmem
      exact ⟨ControlWorld.draining_of_registry (ControlWorld.mem_drainingIds.mp hid) hregistered.symm, hnew⟩
    · intro id hdraining
      exact hall id (ControlWorld.mem_drainingIds.mpr (ControlWorld.draining_of_registry hdraining hregistered))

end Resuming

namespace Drains

variable {world next : ControlWorld}

theorem boot {config : ValidConfig} {store : BackendStateStore} {now : Nat}
    (h : ControlWorld.boot config store now = some world) : Drains world := by
  obtain ⟨hsingle, hfresh, _⟩ := Resuming.boot h
  obtain ⟨_, _, hfree, _⟩ := ControlWorld.boot_some h
  refine ⟨?_, ?_, hsingle, ?_, ?_, ?_⟩
  · intro operation hmem
    obtain ⟨_, hfresh⟩ := hfresh operation hmem
    constructor <;> simp [hfresh.phase, hfresh.driver]
  · intro operation hmem
    obtain ⟨slot, hslot, _⟩ := ControlWorld.draining_iff.mp (hfresh operation hmem).1
    exact ⟨slot, hslot⟩
  · intro index id hcommitting
    rw [hfree] at hcommitting
    cases hcommitting
  · intro report pending hlife
    rw [hfree] at hlife
    cases hlife
  · intro config report pending hlife
    rw [hfree] at hlife
    cases hlife

theorem step (h : Drains world) (hcoherent : Coherent world) {op : ControlOp} (hstep : world.step op = some next) :
    Drains next := by
  by_cases hrestart : ∃ config, op = .restart config
  · obtain ⟨config, rfl⟩ := hrestart
    exact boot (ControlWorld.restart_some hstep).2
  · have hrestart : ∀ config, op ≠ .restart config := fun config heq => hrestart ⟨config, heq⟩
    exact ⟨h.step_sound hrestart hstep, h.step_slots hrestart hstep hcoherent, h.step_single hrestart hstep,
      h.step_committing hrestart hstep, h.step_resuming hrestart hstep, h.step_restoring hrestart hstep hcoherent⟩

theorem of_run {guard : ControlWorld → ControlOp → Prop} {record : List ControlStep}
    (hrun : Run controlSystem guard record world) : Drains world := by
  refine hrun.induct (motive := fun _ world => Drains world) ?_ ?_
  · rintro world ⟨config, store, now, hboot⟩
    exact boot hboot
  · intro record world op next hrun h _ hnext
    exact h.step (Coherent.of_run hrun) hnext

end Drains

end MistralrsProxy
