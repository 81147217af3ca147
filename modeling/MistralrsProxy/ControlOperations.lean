import MistralrsProxy.ControlScrapes

/-! The drain operations and the tasks that drive them. The list of operations only grows; a step moves one
task on, or starts an operation for a backend that has none in phase `draining`. -/

open Transition Keyed

namespace MistralrsProxy

/-- The backend is registered and draining. -/
def ControlWorld.draining (id : BackendId) (world : ControlWorld) : Bool :=
  (BackendRegistry.get id world.registry).any fun slot => decide (slot.mode = .draining)

theorem ControlWorld.draining_iff {id : BackendId} {world : ControlWorld} :
    world.draining id = true ↔
      ∃ slot, world.registry.find? id = some slot ∧ slot.registered = true ∧ slot.mode = .draining := by
  simp only [ControlWorld.draining, Option.any_eq_true, decide_eq_true_eq]
  constructor
  · rintro ⟨slot, hget, hmode⟩
    obtain ⟨hslot, hregistered⟩ := BackendRegistry.get_eq_some_iff.mp hget
    exact ⟨slot, hslot, hregistered, hmode⟩
  · rintro ⟨slot, hslot, hregistered, hmode⟩
    exact ⟨slot, BackendRegistry.get_eq_some_iff.mpr ⟨hslot, hregistered⟩, hmode⟩

theorem ControlWorld.joinable_iff {id : BackendId} {operation : DrainOperation} :
    ControlWorld.joinable id operation = true ↔ operation.backendId = id ∧ operation.progress.phase = .draining := by
  simp [ControlWorld.joinable]

namespace DrainOperation

/-- A task has returned exactly when its operation has left phase `draining`. -/
structure Sound (operation : DrainOperation) : Prop where
  finished : operation.driver = .finished ↔ operation.progress.phase ≠ .draining
  sending : ∀ progress last, operation.driver = .sending progress last → (last = true ↔ progress.phase ≠ .draining)

/-- The task goes on after what it is about to do. -/
def Watching (operation : DrainOperation) : Prop :=
  operation.progress.phase = .draining ∧ operation.driver ≠ .finished ∧
    ∀ progress last, operation.driver = .sending progress last → last = false

/-- What a task can do next, with or without the lifecycle lock. -/
inductive Advance (world : ControlWorld) (index : Nat) (operation : DrainOperation) : DrainOperation → Prop
  | poll : operation.driver = .polling → Advance world index operation
      { operation with driver := operation.decideNext world.now (world.status operation.backendId) }
  | send (progress : DrainProgress) (last : Bool) : operation.driver = .sending progress last →
      Advance world index operation
        { operation with progress := progress, driver := if last then .finished else .sleeping }
  | wake : operation.driver = .sleeping → Advance world index operation { operation with driver := .polling }
  | retry (status : BackendStatusSnapshot) : operation.driver = .awaiting status →
      Advance world index operation { operation with driver := .polling }
  | commit (status confirmed : BackendStatusSnapshot) : operation.driver = .awaiting status →
      world.status operation.backendId = some confirmed → operation.confirms confirmed = true →
      Advance world index operation { operation with driver := .committing }
  | fail (id : BackendId) (status confirmed : BackendStatusSnapshot) (progress : DrainProgress) :
      world.lifecycle = .commitSave index id status confirmed → progress.phase = .failed →
      Advance world index operation { operation with progress := progress, driver := .finished }
  | complete (id : BackendId) (confirmed : BackendStatusSnapshot) (progress : DrainProgress) :
      world.lifecycle = .commitSend index id confirmed → progress.phase = .complete →
      Advance world index operation { operation with progress := progress, driver := .finished }

theorem decideNext_cases (operation : DrainOperation) (now : Nat) (status : Option BackendStatusSnapshot) :
    (∃ progress, operation.decideNext now status = .sending progress true ∧ progress.phase ≠ .draining) ∨
      (∃ read, operation.decideNext now status = .awaiting read) ∨
      ∃ progress, operation.decideNext now status = .sending progress false ∧ progress.phase = .draining := by
  unfold decideNext
  split
  · exact .inl ⟨_, rfl, DrainPhase.noConfusion⟩
  · split
    · exact .inl ⟨_, rfl, DrainPhase.noConfusion⟩
    · split
      · exact .inl ⟨_, rfl, DrainPhase.noConfusion⟩
      · split
        · exact .inr (.inl ⟨_, rfl⟩)
        · exact .inr (.inr ⟨_, rfl, rfl⟩)

/-- While its backend is draining a task reads nothing that ends it. -/
theorem decideNext_draining (operation : DrainOperation) (now : Nat) {status : BackendStatusSnapshot}
    (h : status.mode = .draining) :
    (∃ read, operation.decideNext now (some status) = .awaiting read) ∨
      ∃ progress, operation.decideNext now (some status) = .sending progress false := by
  unfold decideNext
  simp only [h, reduceCtorEq, if_false]
  split
  · exact .inl ⟨_, rfl⟩
  · exact .inr ⟨_, rfl⟩

variable {world : ControlWorld} {index : Nat} {old new : DrainOperation}

theorem Advance.backendId (h : Advance world index old new) : new.backendId = old.backendId := by
  cases h <;> rfl

theorem Advance.baseline (h : Advance world index old new) :
    new.metricsScrapesStartedAtStart = old.metricsScrapesStartedAtStart := by
  cases h <;> rfl

theorem Advance.sound (h : Advance world index old new) (hold : old.Sound) : new.Sound := by
  cases h with
  | poll hdriver =>
      have hphase : old.progress.phase = .draining := by
        by_contra hphase
        rw [hold.finished.mpr hphase] at hdriver
        cases hdriver
      rcases decideNext_cases old world.now (world.status old.backendId) with
        ⟨progress, hnext, hterminal⟩ | ⟨read, hnext⟩ | ⟨progress, hnext, hterminal⟩
      · constructor <;> simp [hnext, hphase, hterminal]
      · constructor <;> simp [hnext, hphase]
      · constructor <;> simp [hnext, hphase, hterminal]
  | send progress last hdriver =>
      have hlast := hold.sending progress last hdriver
      cases last with
      | true => exact ⟨by simpa using hlast, by simp⟩
      | false => exact ⟨by simpa using hlast, by simp⟩
  | wake hdriver | retry _ hdriver | commit _ _ hdriver =>
      have hphase : old.progress.phase = .draining := by
        by_contra hphase
        rw [hold.finished.mpr hphase] at hdriver
        cases hdriver
      constructor <;> simp [hphase]
  | fail _ _ _ _ _ hphase | complete _ _ _ _ hphase => constructor <;> simp [hphase]

/-- An operation in phase `draining` has been in it all the time. -/
theorem Advance.phase (h : Advance world index old new) (hold : old.Sound) (hnew : new.progress.phase = .draining) :
    old.progress.phase = .draining := by
  cases h with
  | poll | wake | retry | commit => exact hnew
  | send progress last hdriver =>
      by_contra hphase
      rw [hold.finished.mpr hphase] at hdriver
      cases hdriver
  | fail _ _ _ _ _ hphase | complete _ _ _ _ hphase =>
      rw [hphase] at hnew
      cases hnew

end DrainOperation

/-- What a step does to the operations. -/
inductive OperationsStep (world next : ControlWorld) : Prop
  | same : next.operations = world.operations → OperationsStep world next
  | advanced (index : Nat) (old new : DrainOperation) : world.operations[index]? = some old →
      old.Advance world index new → next.operations = world.operations.set index new → OperationsStep world next
  | started (id : BackendId) : (∀ operation ∈ world.operations, ControlWorld.joinable id operation = false) →
      ((∃ before, world.lifecycle = .drainEnsure id before) ∨
        ∃ report pending, world.lifecycle = .reloadResume report (id :: pending)) →
      next.routing.inner = world.routing.synchronised →
      next.operations = world.operations ++ [world.newOperation id] → OperationsStep world next

namespace ControlWorld

variable {world next : ControlWorld}

theorem modify_some {operations : List DrainOperation} {index : Nat} {operation : DrainOperation}
    (h : operations[index]? = some operation) (f : DrainOperation → DrainOperation) :
    operations.modify index f = operations.set index (f operation) := by
  rw [List.modify_eq_set_getElem?, h]
  rfl

theorem modify_none {operations : List DrainOperation} {index : Nat} (h : operations[index]? = none)
    (f : DrainOperation → DrainOperation) : operations.modify index f = operations := by
  rw [List.modify_eq_set_getElem?, h]
  rfl

/-- An operation is started only where none can be joined. -/
theorem ensureDrainOperation_cases (id : BackendId) (world : ControlWorld) :
    (∃ index, world.ensureDrainOperation id = (world, index)) ∨
      (∀ operation ∈ world.operations, joinable id operation = false) ∧
        world.ensureDrainOperation id =
          ({ world.synchronise with operations := world.operations ++ [world.newOperation id] },
            world.operations.length) := by
  unfold ensureDrainOperation
  split
  · exact .inl ⟨_, rfl⟩
  · rename_i hnone
    exact .inr ⟨by simpa using List.findIdx?_eq_none_iff.mp hnone, rfl⟩

/-- A task that commits, or has returned, takes no step of its own. -/
theorem driveStep_advance {index : Nat} (h : world.driveStep index = some next) :
    ∃ old new, world.operations[index]? = some old ∧ old.Advance world index new ∧ old.driver ≠ .committing ∧
      next.operations = world.operations.set index new ∧
      (next.lifecycle = world.lifecycle ∨ new.driver = .committing ∧ world.lifecycle = .free ∧
        ∃ status confirmed, world.status old.backendId = some confirmed ∧ old.confirms confirmed = true ∧
          next.lifecycle = .commitSave index old.backendId status confirmed) := by
  simp only [driveStep, Option.bind_eq_some_iff] at h
  obtain ⟨operation, hoperation, h⟩ := h
  refine ⟨operation, ?_⟩
  split at h
  · rename_i hdriver
    cases h
    refine ⟨_, hoperation, .poll hdriver, ?_, modify_some hoperation _, .inl rfl⟩
    rw [hdriver]
    exact Driver.noConfusion
  · rename_i progress last hdriver
    cases h
    refine ⟨_, hoperation, .send progress last hdriver, ?_, modify_some hoperation _, .inl rfl⟩
    rw [hdriver]
    exact Driver.noConfusion
  · rename_i hdriver
    cases h
    refine ⟨_, hoperation, .wake hdriver, ?_, modify_some hoperation _, .inl rfl⟩
    rw [hdriver]
    exact Driver.noConfusion
  · rename_i status hdriver
    have hnot : operation.driver ≠ .committing := by
      rw [hdriver]
      exact Driver.noConfusion
    split at h
    · rename_i hfree
      cases h
      split
      · exact ⟨_, hoperation, .retry status hdriver, hnot, modify_some hoperation _, .inl rfl⟩
      · rename_i confirmed hstatus
        split
        · rename_i hconfirms
          exact ⟨_, hoperation, .commit status confirmed hdriver hstatus hconfirms, hnot, modify_some hoperation _,
            .inr ⟨rfl, hfree, status, confirmed, hstatus, hconfirms, rfl⟩⟩
        · exact ⟨_, hoperation, .retry status hdriver, hnot, modify_some hoperation _, .inl rfl⟩
    · cases h
  · cases h
  · cases h

theorem driveStep_operations {index : Nat} (h : world.driveStep index = some next) : OperationsStep world next := by
  obtain ⟨old, new, hold, hadvance, _, hoperations, _⟩ := driveStep_advance h
  exact .advanced index old new hold hadvance hoperations

theorem ensure_operations (id : BackendId)
    (hlife : (∃ before, world.lifecycle = .drainEnsure id before) ∨
      ∃ report pending, world.lifecycle = .reloadResume report (id :: pending))
    (hinner : next.routing.inner = (world.ensureDrainOperation id).1.routing.inner)
    (hoperations : next.operations = (world.ensureDrainOperation id).1.operations) : OperationsStep world next := by
  rcases ensureDrainOperation_cases id world with ⟨index, heq⟩ | ⟨hnone, heq⟩
  · rw [heq] at hoperations
    exact .same hoperations
  · rw [heq] at hoperations hinner
    exact .started id hnone hlife hinner hoperations

theorem finish_operations {index : Nat} {progress : DrainOperation → DrainProgress}
    (hadvance : ∀ operation : DrainOperation, operation.Advance world index
      { operation with progress := progress operation, driver := .finished })
    (hoperations : next.operations = world.operations.modify index fun operation =>
      { operation with progress := progress operation, driver := .finished }) : OperationsStep world next := by
  cases hoperation : world.operations[index]? with
  | none => exact .same (hoperations.trans (modify_none hoperation _))
  | some operation =>
      exact .advanced index operation _ hoperation (hadvance operation) (hoperations.trans (modify_some hoperation _))

theorem proceed_operations {failure : Option String} (h : world.proceed failure = some next) :
    OperationsStep world next := by
  unfold proceed at h
  split at h
  · cases h
  · split at h <;> cases h <;> exact .same rfl
  · cases h
    exact .same rfl
  · rename_i id before hlife
    cases h
    exact ensure_operations id (.inl ⟨_, hlife⟩) rfl rfl
  · split at h <;> cases h <;> exact .same rfl
  · obtain ⟨slot, _, rfl⟩ := Option.map_eq_some_iff.mp h
    split <;> exact .same rfl
  · split at h <;> cases h <;> exact .same rfl
  · cases h
    exact .same rfl
  · split at h <;> cases h <;> exact .same rfl
  · cases h
    exact .same rfl
  · cases h
    exact .same rfl
  · rename_i report id pending hlife
    cases h
    exact ensure_operations id (.inr ⟨report, pending, hlife⟩) rfl rfl
  · cases h
    exact .same rfl
  · rename_i index id status confirmed hlife
    split at h
    · cases h
      exact .same rfl
    · cases h
      exact finish_operations (fun operation => .fail id status confirmed _ hlife rfl) rfl
  · cases h
    exact .same rfl
  · rename_i index id confirmed hlife
    cases h
    exact finish_operations (fun operation => .complete id confirmed _ hlife rfl) rfl

theorem step_operations {op : ControlOp} (hrestart : ∀ config, op ≠ .restart config) (h : world.step op = some next) :
    OperationsStep world next := by
  cases op with
  | select | request | readiness | beginScrape | endScrape | elapse => exact .same (step_background rfl h).operations
  | drain id =>
      obtain ⟨_, rfl⟩ := command_some h
      refine .same ?_
      unfold drain
      split <;> rfl
  | activate id =>
      obtain ⟨_, rfl⟩ := command_some h
      refine .same ?_
      unfold activate
      split
      · rfl
      · split
        · rfl
        · rfl
        · split
          · rfl
          · split <;> rfl
  | disable id force =>
      obtain ⟨_, rfl⟩ := command_some h
      refine .same ?_
      unfold disable
      split
      · rfl
      · split
        · rfl
        · split <;> rfl
  | reload config =>
      obtain ⟨_, rfl⟩ := command_some h
      refine .same ?_
      unfold reload
      split <;> rfl
  | proceed failure => exact proceed_operations h
  | drive index => exact driveStep_operations h
  | restart config => exact absurd rfl (hrestart config)

end ControlWorld

/-- Where an operation of after the step comes from. -/
theorem OperationsStep.origin {world next : ControlWorld} (h : OperationsStep world next)
    (hsound : ∀ operation ∈ world.operations, operation.Sound) {index : Nat} {new : DrainOperation}
    (hnew : next.operations[index]? = some new) :
    (∃ old, world.operations[index]? = some old ∧ new.backendId = old.backendId ∧
        new.metricsScrapesStartedAtStart = old.metricsScrapesStartedAtStart ∧ new.Sound ∧
        (new.progress.phase = .draining → old.progress.phase = .draining)) ∨
      ∃ id, index = world.operations.length ∧ new = world.newOperation id ∧
        (∀ operation ∈ world.operations, ControlWorld.joinable id operation = false) ∧
        next.routing.inner = world.routing.synchronised ∧
        ((∃ before, world.lifecycle = .drainEnsure id before) ∨
          ∃ report pending, world.lifecycle = .reloadResume report (id :: pending)) := by
  cases h with
  | same hoperations =>
      rw [hoperations] at hnew
      exact .inl ⟨new, hnew, rfl, rfl, hsound new (List.mem_of_getElem? hnew), id⟩
  | advanced moved old after hold hadvance hoperations =>
      rw [hoperations] at hnew
      by_cases hindex : moved = index
      · subst hindex
        have hlt := (List.getElem?_eq_some_iff.mp hold).1
        rw [List.getElem?_set_self hlt, Option.some.injEq] at hnew
        subst hnew
        have holdSound := hsound old (List.mem_of_getElem? hold)
        exact .inl ⟨old, hold, hadvance.backendId, hadvance.baseline, hadvance.sound holdSound,
          hadvance.phase holdSound⟩
      · rw [List.getElem?_set_ne hindex] at hnew
        exact .inl ⟨new, hnew, rfl, rfl, hsound new (List.mem_of_getElem? hnew), id⟩
  | started id hnone hlife hinner hoperations =>
      rw [hoperations] at hnew
      rcases Nat.lt_or_ge index world.operations.length with hlt | hge
      · rw [List.getElem?_append_left hlt] at hnew
        exact .inl ⟨new, hnew, rfl, rfl, hsound new (List.mem_of_getElem? hnew), fun h => h⟩
      · rw [List.getElem?_append_right hge] at hnew
        obtain ⟨hzero, hlast⟩ := List.getElem?_eq_some_iff.mp hnew
        have hindex : index = world.operations.length := by
          simp only [List.length_singleton] at hzero
          omega
        subst hindex
        simp only [Nat.sub_self, List.getElem_cons_zero] at hlast
        exact .inr ⟨id, rfl, hlast.symm, hnone, hinner, hlife⟩

/-- The operation whose task holds the lifecycle lock. -/
def Lifecycle.committing : Lifecycle → Option (Nat × BackendId)
  | .commitSave index id _ _ | .commitClose index id _ | .commitSend index id _ => some (index, id)
  | _ => none

theorem Lifecycle.committing_of_isStart {lifecycle : Lifecycle} (h : lifecycle.isStart = true) :
    lifecycle.committing = none := by
  cases lifecycle <;> first | rfl | cases h

namespace ControlWorld

variable {world next : ControlWorld}

theorem proceed_committing {failure : Option String} (h : world.proceed failure = some next) {index : Nat}
    {id : BackendId} (hnext : next.lifecycle.committing = some (index, id)) :
    world.lifecycle.committing = some (index, id) ∧ next.operations = world.operations := by
  unfold proceed at h
  split at h
  · cases h
  · split at h <;> cases h <;> cases hnext
  · cases h
    cases hnext
  · cases h
    cases hnext
  · split at h <;> cases h <;> cases hnext
  · obtain ⟨slot, _, rfl⟩ := Option.map_eq_some_iff.mp h
    split at hnext <;> cases hnext
  · split at h <;> cases h <;> cases hnext
  · cases h
    cases hnext
  · split at h <;> cases h <;> cases hnext
  · cases h
    cases hnext
  · cases h
    cases hnext
  · cases h
    cases hnext
  · cases h
    cases hnext
  · rename_i hlife
    split at h
    · cases h
      rw [hlife]
      exact ⟨hnext, rfl⟩
    · cases h
      cases hnext
  · rename_i hlife
    cases h
    rw [hlife]
    exact ⟨hnext, rfl⟩
  · cases h
    cases hnext

/-- How a reload comes to resume drains. -/
theorem proceed_resuming {failure : Option String} (h : world.proceed failure = some next)
    {report : RuntimeReloadReport} {pending : List BackendId} (hnext : next.lifecycle = .reloadResume report pending) :
    next.registry = world.registry ∧
      ((∃ config reconciled, world.lifecycle = .reloadRestore config reconciled [] ∧ pending = world.drainingIds ∧
          next.operations = world.operations) ∨
        ∃ id, world.lifecycle = .reloadResume report (id :: pending)) := by
  unfold proceed at h
  split at h
  · cases h
  · split at h <;> cases h <;> cases hnext
  · cases h
    cases hnext
  · cases h
    cases hnext
  · split at h <;> cases h <;> cases hnext
  · obtain ⟨slot, _, rfl⟩ := Option.map_eq_some_iff.mp h
    split at hnext <;> cases hnext
  · split at h <;> cases h <;> cases hnext
  · cases h
    cases hnext
  · split at h <;> cases h <;> cases hnext
  · cases h
    cases hnext
  · rename_i config reconciled hlife
    cases h
    cases hnext
    exact ⟨rfl, .inl ⟨config, reconciled, hlife, rfl, rfl⟩⟩
  · rename_i id rest hlife
    cases h
    cases hnext
    exact ⟨(ensureDrainOperation_some id world).2.1, .inr ⟨id, hlife⟩⟩
  · cases h
    cases hnext
  · split at h <;> cases h <;> cases hnext
  · cases h
    cases hnext
  · cases h
    cases hnext

/-- How a reload comes to restore modes. -/
theorem proceed_restoring {failure : Option String} (h : world.proceed failure = some next) {config : ValidConfig}
    {report : ReconcileReport} {pending : List (BackendId × BackendMode)}
    (hnext : next.lifecycle = .reloadRestore config report pending) :
    next.store = world.store ∧ next.operations = world.operations ∧ next.published = world.published ∧
      ((world.lifecycle = .reloadReconcile config ∧
          BackendRegistry.reconcile (config.val.backends.map Backend.registrySpec) world.registry =
            .ok (next.registry, report)) ∨
        ∃ id mode, world.lifecycle = .reloadRestore config report ((id, mode) :: pending) ∧
          next.registry = world.registry.update id (SlotState.restore mode)) := by
  unfold proceed at h
  split at h
  · cases h
  · split at h <;> cases h <;> cases hnext
  · cases h
    cases hnext
  · cases h
    cases hnext
  · split at h <;> cases h <;> cases hnext
  · obtain ⟨slot, _, rfl⟩ := Option.map_eq_some_iff.mp h
    split at hnext <;> cases hnext
  · split at h <;> cases h <;> cases hnext
  · cases h
    cases hnext
  · rename_i hlife
    split at h
    · cases h
      cases hnext
    · rename_i registry reconciled hreconcile
      cases h
      cases hnext
      exact ⟨rfl, rfl, rfl, .inl ⟨hlife, hreconcile⟩⟩
  · rename_i id mode rest hlife
    cases h
    cases hnext
    exact ⟨rfl, rfl, rfl, .inr ⟨id, mode, hlife, rfl⟩⟩
  · cases h
    cases hnext
  · cases h
    cases hnext
  · cases h
    cases hnext
  · split at h <;> cases h <;> cases hnext
  · cases h
    cases hnext
  · cases h
    cases hnext

end ControlWorld

end MistralrsProxy
