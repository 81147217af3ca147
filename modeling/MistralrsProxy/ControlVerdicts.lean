import MistralrsProxy.ControlDraining

/-! How drains end. The task of an operation sends one verdict and returns; nothing touches the operation
afterwards. A verdict says that the backend may be stopped exactly when it says that the drain is complete,
and then the gate of the backend was shut when the task last looked. -/

open Transition Keyed

namespace MistralrsProxy

/-- The steps of one process. -/
def KeepsRunning (_ : ControlWorld) (op : ControlOp) : Prop := ∀ config, op ≠ .restart config

/-- The backend is disabled. -/
def GateShut (id : BackendId) (world : ControlWorld) : Prop :=
  ∃ slot, world.registry.find? id = some slot ∧ slot.mode = .disabled

/-- Completion and permission to stop go together, and an end has its explanation. -/
structure DrainProgress.Agrees (progress : DrainProgress) : Prop where
  safe : progress.safeToStop = true ↔ progress.phase = .complete
  explained : progress.phase ≠ .draining → progress.message.isSome = true

namespace DrainOperation

/-- What the operation shows, or is about to. -/
def Shows (operation : DrainOperation) (progress : DrainProgress) : Prop :=
  operation.progress = progress ∨ ∃ last, operation.driver = .sending progress last

variable {world : ControlWorld} {index : Nat} {old new : DrainOperation}

theorem decideNext_agrees (operation : DrainOperation) (now : Nat) (status : Option BackendStatusSnapshot)
    {progress : DrainProgress} {last : Bool} (h : operation.decideNext now status = .sending progress last) :
    progress.Agrees := by
  unfold decideNext at h
  repeat' split at h
  all_goals first
    | (cases h; constructor <;> simp [progressFromStatus])
    | cases h

/-- A task that is about to report completion has read the mode `disabled`. -/
theorem decideNext_complete (operation : DrainOperation) (now : Nat) (status : Option BackendStatusSnapshot)
    {progress : DrainProgress} {last : Bool} (h : operation.decideNext now status = .sending progress last)
    (hphase : progress.phase = .complete) : ∃ read, status = some read ∧ read.mode = .disabled := by
  unfold decideNext at h
  split at h
  · cases h
    cases hphase
  · rename_i read
    split at h
    · rename_i hmode
      exact ⟨read, rfl, hmode⟩
    · repeat' split at h
      all_goals
        cases h
        try cases hphase

end DrainOperation

namespace ControlWorld

variable {world next : ControlWorld}

/-- What a step of the holder of the lock does to the progress of the operations. -/
theorem proceed_progress {failure : Option String} (h : world.proceed failure = some next) :
    next.operations = world.operations ∨ (∃ id, next.operations = world.operations ++ [world.newOperation id]) ∨
      ∃ (index : Nat) (id : BackendId) (confirmed status : BackendStatusSnapshot) (phase : DrainPhase) (safe : Bool)
        (message : String), world.lifecycle.committing = some (index, id) ∧
        next.operations = world.operations.modify index (fun operation => { operation with
          progress := operation.progressFromStatus world.now status phase safe (some message)
          driver := .finished }) ∧
        (phase = .failed ∧ safe = false ∨ phase = .complete ∧ safe = true ∧
          world.lifecycle = .commitSend index id confirmed) := by
  have hensure : ∀ {id}, next.operations = (world.ensureDrainOperation id).1.operations →
      next.operations = world.operations ∨ ∃ id, next.operations = world.operations ++ [world.newOperation id] := by
    intro id hoperations
    rcases ensureDrainOperation_cases id world with ⟨index, heq⟩ | ⟨_, heq⟩
    · rw [heq] at hoperations
      exact .inl hoperations
    · rw [heq] at hoperations
      exact .inr ⟨id, hoperations⟩
  unfold proceed at h
  split at h
  · cases h
  · split at h <;> cases h <;> exact .inl rfl
  · cases h
    exact .inl rfl
  · cases h
    exact (hensure rfl).elim .inl (fun hnew => .inr (.inl hnew))
  · split at h <;> cases h <;> exact .inl rfl
  · obtain ⟨slot, _, rfl⟩ := Option.map_eq_some_iff.mp h
    split <;> exact .inl rfl
  · split at h <;> cases h <;> exact .inl rfl
  · cases h
    exact .inl rfl
  · split at h <;> cases h <;> exact .inl rfl
  · cases h
    exact .inl rfl
  · cases h
    exact .inl rfl
  · cases h
    exact (hensure rfl).elim .inl (fun hnew => .inr (.inl hnew))
  · cases h
    exact .inl rfl
  · rename_i index id status confirmed hlife
    split at h
    · cases h
      exact .inl rfl
    · cases h
      refine .inr (.inr ⟨index, id, confirmed, status, .failed, false, _, ?_, rfl, .inl ⟨rfl, rfl⟩⟩)
      rw [hlife]
      rfl
  · cases h
    exact .inl rfl
  · rename_i index id confirmed hlife
    cases h
    refine .inr (.inr ⟨index, id, confirmed, _, .complete, true, _, ?_, rfl, .inr ⟨rfl, rfl, hlife⟩⟩)
    rw [hlife]
    rfl

/-- Commands leave the operations to later steps. -/
theorem command_operations {op : ControlOp} (hop : op.isCommand = true) (h : world.step op = some next) :
    next.operations = world.operations := by
  cases op with
  | drain id =>
      obtain ⟨_, rfl⟩ := command_some h
      unfold drain
      split <;> rfl
  | activate id =>
      obtain ⟨_, rfl⟩ := command_some h
      unfold activate
      repeat' split
      all_goals rfl
  | disable id force =>
      obtain ⟨_, rfl⟩ := command_some h
      unfold disable
      repeat' split
      all_goals rfl
  | reload config =>
      obtain ⟨_, rfl⟩ := command_some h
      unfold reload
      split <;> rfl
  | _ => cases hop

/-- Every operation of a process that has just started is as it was created. -/
theorem boot_operations {config : ValidConfig} {store : BackendStateStore} {now : Nat}
    (h : boot config store now = some world) : ∀ operation ∈ world.operations,
      ∃ (before : ControlWorld) (id : BackendId), operation = before.newOperation id := by
  have hresume : ∀ (ids : List BackendId) (start : ControlWorld),
      (∀ operation ∈ start.operations, ∃ (before : ControlWorld) (id : BackendId), operation = before.newOperation id) →
      ∀ operation ∈ (ids.foldl (fun world id => (world.ensureDrainOperation id).1) start).operations,
        ∃ (before : ControlWorld) (id : BackendId), operation = before.newOperation id := by
    intro ids
    induction ids with
    | nil => exact fun _ hstart => hstart
    | cons id ids ih =>
        intro start hstart
        apply ih _
        show ∀ operation ∈ (start.ensureDrainOperation id).1.operations, _
        rcases ensureDrainOperation_cases id start with ⟨index, heq⟩ | ⟨_, heq⟩
        · rw [heq]
          exact hstart
        · rw [heq]
          intro operation hmem
          rcases List.mem_append.mp hmem with hmem | hmem
          · exact hstart operation hmem
          · exact ⟨start, id, List.mem_singleton.mp hmem⟩
  unfold boot at h
  split at h
  · cases h
  · cases h
    apply hresume _ _
    intro operation hmem
    cases hmem

/-- An operation that has ended stays as it is. -/
theorem step_ended (hdrains : Drains world) {op : ControlOp} (hop : KeepsRunning world op)
    (hstep : world.step op = some next) {index : Nat} {operation : DrainOperation}
    (hoperation : world.operations[index]? = some operation) (hended : operation.progress.phase ≠ .draining) :
    next.operations[index]? = some operation := by
  have hfinished := (hdrains.sound operation (List.mem_of_getElem? hoperation)).finished.mpr hended
  cases step_operations hop hstep with
  | same hoperations =>
      rw [hoperations]
      exact hoperation
  | started id _ _ _ hoperations =>
      rw [hoperations, List.getElem?_append_left (List.getElem?_eq_some_iff.mp hoperation).1]
      exact hoperation
  | advanced moved old new hold hadvance hoperations =>
      rw [hoperations]
      by_cases hmoved : moved = index
      · -- a task that has returned does not move
        subst hmoved
        obtain rfl : operation = old := Option.some.inj (hoperation.symm.trans hold)
        cases hadvance with
        | poll hdriver | send _ _ hdriver | wake hdriver | retry _ hdriver | commit _ _ hdriver =>
            rw [hfinished] at hdriver
            cases hdriver
        | fail id status confirmed progress hlife | complete id confirmed progress hlife =>
            obtain ⟨committing, hcommitting, _, hdriver⟩ := hdrains.committing moved id (by rw [hlife]; rfl)
            obtain rfl : operation = committing := Option.some.inj (hoperation.symm.trans hcommitting)
            rw [hfinished] at hdriver
            cases hdriver
      · rw [List.getElem?_set_ne hmoved]
        exact hoperation

end ControlWorld

/-- The invariant of the verdicts. -/
structure Verdicts (record : List ControlStep) (world : ControlWorld) : Prop where
  agree : ∀ operation ∈ world.operations, ∀ progress, operation.Shows progress → progress.Agrees
  shut : ∀ operation ∈ world.operations, ∀ progress, operation.Shows progress → progress.phase = .complete →
    ∃ step ∈ record, GateShut operation.backendId step.before

namespace Verdicts

variable {record : List ControlStep} {world next : ControlWorld} {op : ControlOp}

/-- What holds of the operations after a step, from what holds of one operation before it. -/
theorem of_forall (hnext : ∀ operation ∈ next.operations, ∀ progress, operation.Shows progress → progress.Agrees ∧
      (progress.phase = .complete → ∃ step ∈ record, GateShut operation.backendId step.before)) :
    Verdicts record next :=
  ⟨fun operation hmem progress hshows => (hnext operation hmem progress hshows).1,
    fun operation hmem progress hshows => (hnext operation hmem progress hshows).2⟩

theorem kept (h : Verdicts record world) (step : ControlStep) {operation : DrainOperation}
    (hmem : operation ∈ world.operations) {progress : DrainProgress} (hshows : operation.Shows progress) :
    progress.Agrees ∧ (progress.phase = .complete →
      ∃ found ∈ step :: record, GateShut operation.backendId found.before) := by
  refine ⟨h.agree operation hmem progress hshows, ?_⟩
  intro hphase
  obtain ⟨found, hfound, hshut⟩ := h.shut operation hmem progress hshows hphase
  exact ⟨found, List.mem_cons_of_mem _ hfound, hshut⟩

/-- An operation that was just started shows that it drains. -/
theorem of_newOperation {id : BackendId} {progress : DrainProgress} (hshows : (world.newOperation id).Shows progress) :
    progress.Agrees ∧ progress.phase ≠ .complete := by
  rcases hshows with rfl | ⟨last, hdriver⟩
  · refine ⟨⟨?_, ?_⟩, ?_⟩ <;> simp [ControlWorld.newOperation]
  · cases hdriver

theorem step_drive (h : Verdicts record world) (hdrains : Drains world) {index : Nat}
    (hstep : world.step (.drive index) = some next) : Verdicts (⟨world, .drive index, next⟩ :: record) next := by
  obtain ⟨old, new, hold, hadvance, hcommitting, hoperations, _⟩ := ControlWorld.driveStep_advance hstep
  have holdMem := List.mem_of_getElem? hold
  apply of_forall
  intro operation hmem progress hshows
  rw [hoperations] at hmem
  rcases List.mem_or_eq_of_mem_set hmem with hmem | rfl
  · exact h.kept _ hmem hshows
  · cases hadvance with
    | poll hdriver =>
        rcases hshows with rfl | ⟨last, hsending⟩
        · exact h.kept _ holdMem (.inl rfl)
        · refine ⟨old.decideNext_agrees _ _ hsending, ?_⟩
          intro hphase
          obtain ⟨read, hread, hmode⟩ := old.decideNext_complete _ _ hsending hphase
          obtain ⟨slot, live, backend, hslot, _, _, _, _, rfl⟩ := RoutingState.status_some hread
          exact ⟨_, List.mem_cons_self, slot, hslot, hmode⟩
    | send sent last hdriver =>
        rcases hshows with rfl | ⟨last', hsending⟩
        · exact h.kept _ holdMem (.inr ⟨last, hdriver⟩)
        · cases last <;> cases hsending
    | wake hdriver | retry _ hdriver | commit _ _ hdriver =>
        rcases hshows with rfl | ⟨last, hsending⟩
        · exact h.kept _ holdMem (.inl rfl)
        · cases hsending
    | fail id status confirmed _ hlife | complete id confirmed _ hlife =>
        obtain ⟨committing, hfound, _, hdriver⟩ := hdrains.committing index id (by rw [hlife]; rfl)
        obtain rfl : old = committing := Option.some.inj (hold.symm.trans hfound)
        exact absurd hdriver hcommitting

theorem step_proceed (h : Verdicts record world) (hcoherent : Coherent world) (hdrains : Drains world)
    {failure : Option String} (hstep : world.step (.proceed failure) = some next) :
    Verdicts (⟨world, .proceed failure, next⟩ :: record) next := by
  apply of_forall
  intro operation hmem progress hshows
  rcases ControlWorld.proceed_progress hstep with
    hoperations | ⟨id, hoperations⟩ |
    ⟨index, id, confirmed, status, phase, safe, message, hcommitting, hoperations, hphase⟩
  · rw [hoperations] at hmem
    exact h.kept _ hmem hshows
  · rw [hoperations, List.mem_append, List.mem_singleton] at hmem
    rcases hmem with hmem | rfl
    · exact h.kept _ hmem hshows
    · obtain ⟨hagrees, hdraining⟩ := of_newOperation hshows
      exact ⟨hagrees, fun hcomplete => absurd hcomplete hdraining⟩
  · obtain ⟨old, hold, hid, _⟩ := hdrains.committing index id hcommitting
    rw [hoperations, ControlWorld.modify_some hold] at hmem
    rcases List.mem_or_eq_of_mem_set hmem with hmem | rfl
    · exact h.kept _ hmem hshows
    · rcases hshows with rfl | ⟨last, hsending⟩
      · rcases hphase with ⟨rfl, rfl⟩ | ⟨rfl, rfl, hlife⟩
        · refine ⟨⟨?_, ?_⟩, ?_⟩ <;> simp [DrainOperation.progressFromStatus]
        · refine ⟨⟨?_, ?_⟩, ?_⟩
          · simp [DrainOperation.progressFromStatus]
          · simp [DrainOperation.progressFromStatus]
          · intro _
            have howns := hcoherent.owns
            rw [hlife] at howns
            obtain ⟨slot, hslot, _, hmode⟩ := howns
            exact ⟨_, List.mem_cons_self, slot, hid ▸ hslot, hmode⟩
      · cases hsending

theorem step (h : Verdicts record world) (hcoherent : Coherent world) (hdrains : Drains world)
    (hop : KeepsRunning world op) (hstep : world.step op = some next) :
    Verdicts (⟨world, op, next⟩ :: record) next := by
  cases op with
  | drive index => exact h.step_drive hdrains hstep
  | proceed failure => exact h.step_proceed hcoherent hdrains hstep
  | restart config => exact absurd rfl (hop config)
  | select | request | readiness | beginScrape | endScrape | elapse =>
      have hbackground := ControlWorld.step_background rfl hstep
      apply of_forall
      intro operation hmem progress hshows
      rw [hbackground.operations] at hmem
      exact h.kept _ hmem hshows
  | drain | activate | disable | reload =>
      apply of_forall
      intro operation hmem progress hshows
      rw [ControlWorld.command_operations rfl hstep] at hmem
      exact h.kept _ hmem hshows

theorem of_run (hrun : Run controlSystem KeepsRunning record world) : Verdicts record world := by
  refine hrun.induct (motive := Verdicts) ?_ ?_
  · rintro world ⟨config, store, now, hboot⟩
    apply of_forall
    intro operation hmem progress hshows
    obtain ⟨before, id, rfl⟩ := ControlWorld.boot_operations hboot operation hmem
    obtain ⟨hagrees, hdraining⟩ := of_newOperation hshows
    exact ⟨hagrees, fun hcomplete => absurd hcomplete hdraining⟩
  · intro record world op next hrun h hop hnext
    exact h.step (Coherent.of_run hrun) (Drains.of_run hrun) hop hnext

end Verdicts

/-- What an operation was when it ended, it is for the rest of the process. -/
theorem ended_stays {record : List ControlStep} {world : ControlWorld}
    (hrun : Run controlSystem KeepsRunning record world) :
    ∀ step ∈ record, ∀ (index : Nat) (operation : DrainOperation),
      step.before.operations[index]? = some operation → operation.progress.phase ≠ .draining →
        world.operations[index]? = some operation := by
  refine hrun.induct (motive := fun record world => ∀ step ∈ record, ∀ (index : Nat) (operation : DrainOperation),
    step.before.operations[index]? = some operation → operation.progress.phase ≠ .draining →
      world.operations[index]? = some operation) ?_ ?_
  · intro world _ step hmem
    cases hmem
  · intro record world op next hrun ih hop hnext step hmem index operation hoperation hended
    have hdrains := Drains.of_run hrun
    rcases List.mem_cons.mp hmem with rfl | hmem
    · exact ControlWorld.step_ended hdrains hop hnext hoperation hended
    · exact ControlWorld.step_ended hdrains hop hnext (ih step hmem index operation hoperation hended) hended

end MistralrsProxy
