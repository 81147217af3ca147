import MistralrsProxy.ControlEvidence
import MistralrsProxy.ControlFence

/-! Drains and the tasks that watch them. A backend that drains has an operation in phase `draining` whose
task goes on, or the holder of the lifecycle lock is about to start one. A task reads the mode without the
lock and publishes later what it concludes, so a drain must not join an operation whose task has already
concluded. -/

open Transition Keyed

namespace MistralrsProxy

/-- No save of the state file fails, and no drain joins an operation whose task is about to end it. -/
structure NoDoomedJoin (world : ControlWorld) (op : ControlOp) : Prop where
  saves : ∀ error, op ≠ .proceed (some error)
  joins : ∀ id before, op = .proceed none → world.lifecycle = .drainEnsure id before → before ≠ .draining →
    ∀ operation ∈ world.operations, ControlWorld.joinable id operation = true → operation.Watching

/-- The holder of the lock is a reload that has still to start an operation for this backend. -/
def Lifecycle.Resumes (id : BackendId) : Lifecycle → Prop
  | .reloadRestore _ _ _ => True
  | .reloadResume _ pending => id ∈ pending
  | _ => False

/-- An operation of the backend is in phase `draining` and its task goes on. -/
def ControlWorld.Watches (id : BackendId) (world : ControlWorld) : Prop :=
  ∃ operation ∈ world.operations, operation.backendId = id ∧ operation.Watching

/-- No operation of the backend can be joined. -/
def ControlWorld.Unjoinable (id : BackendId) (world : ControlWorld) : Prop :=
  ∀ operation ∈ world.operations, ControlWorld.joinable id operation = false

/-- A draining backend that an operation was started for is published. -/
def Visible (world : ControlWorld) : Prop :=
  ∀ id, world.draining id = true → ∀ operation ∈ world.operations, operation.backendId = id →
    ∃ backend, world.published.backend id = some backend

/-- Every draining backend is watched, or is about to be. -/
def Watched (world : ControlWorld) : Prop :=
  ∀ id, world.draining id = true →
    world.Watches id ∨ world.lifecycle.Enters id ∨ world.lifecycle.Resumes id ∧ world.Unjoinable id

namespace ControlWorld

variable {world next : ControlWorld} {id : BackendId}

theorem newOperation_watching (id : BackendId) (world : ControlWorld) : (world.newOperation id).Watching :=
  ⟨rfl, Driver.noConfusion, fun _ _ h => Driver.noConfusion h⟩

theorem unjoinable_or_joinable (id : BackendId) (world : ControlWorld) :
    world.Unjoinable id ∨ ∃ operation ∈ world.operations, joinable id operation = true := by
  by_cases h : ∃ operation ∈ world.operations, joinable id operation = true
  · exact .inr h
  · refine .inl ?_
    intro operation hmem
    cases hjoinable : joinable id operation with
    | false => rfl
    | true => exact absurd ⟨operation, hmem, hjoinable⟩ h

theorem Unjoinable.of_operations (h : world.Unjoinable id) (hoperations : next.operations = world.operations) :
    next.Unjoinable id := by
  intro operation hmem
  rw [hoperations] at hmem
  exact h operation hmem

theorem Watches.of_operations (h : world.Watches id) (hoperations : next.operations = world.operations) :
    next.Watches id := by
  obtain ⟨operation, hmem, hwatching⟩ := h
  exact ⟨operation, hoperations ▸ hmem, hwatching⟩

/-- Operations do not come back into phase `draining`. -/
theorem Unjoinable.advance (h : world.Unjoinable id) (hsound : ∀ operation ∈ world.operations, operation.Sound)
    {index : Nat} {old new : DrainOperation} (hold : world.operations[index]? = some old)
    (hadvance : old.Advance world index new) (hoperations : next.operations = world.operations.set index new) :
    next.Unjoinable id := by
  intro operation hmem
  rw [hoperations] at hmem
  rcases List.mem_or_eq_of_mem_set hmem with hmem | rfl
  · exact h operation hmem
  · have hold := List.mem_of_getElem? hold
    cases hjoinable : joinable id operation with
    | false => rfl
    | true =>
        obtain ⟨hid, hphase⟩ := joinable_iff.mp hjoinable
        have hbefore := h old hold
        rw [joinable_iff.mpr ⟨hadvance.backendId.symm.trans hid, hadvance.phase (hsound old hold) hphase⟩] at hbefore
        cases hbefore

theorem Unjoinable.ensure_other (h : world.Unjoinable id) {target : BackendId} (hother : target ≠ id) :
    (world.ensureDrainOperation target).1.Unjoinable id := by
  rcases ensureDrainOperation_cases target world with ⟨index, heq⟩ | ⟨_, heq⟩
  · rw [heq]
    exact h
  · rw [heq]
    intro operation hmem
    rcases List.mem_append.mp hmem with hmem | hmem
    · exact h operation hmem
    · rw [List.mem_singleton.mp hmem]
      exact Bool.eq_false_iff.mpr fun hjoinable => hother (joinable_iff.mp hjoinable).1

/-- Where no operation can be joined, one is started. -/
theorem Unjoinable.ensure (h : world.Unjoinable id) : (world.ensureDrainOperation id).1.Watches id := by
  have hnone : world.operations.findIdx? (joinable id) = none := List.findIdx?_eq_none_iff.mpr h
  refine ⟨world.newOperation id, ?_, rfl, newOperation_watching id world⟩
  simp [ensureDrainOperation, hnone]

/-- The task of a draining backend that is published reads that it is draining. -/
theorem status_of_draining {backend : Backend} (hdraining : world.draining id = true)
    (hbackend : world.published.backend id = some backend) :
    ∃ status, world.status id = some status ∧ status.mode = .draining := by
  obtain ⟨slot, hslot, hregistered, hmode⟩ := draining_iff.mp hdraining
  obtain ⟨generation, hgeneration⟩ := PublishedRuntime.generation_of_backend hbackend
  obtain ⟨live, hlive, _⟩ := synchronised_of_generation hgeneration
  obtain ⟨status, hstatus, _, hsame⟩ := status_of_published hslot hregistered hbackend hlive
  exact ⟨status, hstatus, hsame.trans hmode⟩

/-- While a task saves the disabled state, only a failed save touches its operation. -/
theorem commitSave_keeps (hdrains : Drains world) {index : Nat} {target : BackendId}
    {status confirmed : BackendStatusSnapshot} (hlife : world.lifecycle = .commitSave index target status confirmed)
    {op : ControlOp} (hrestart : ∀ config, op ≠ .restart config) (hsaves : ∀ error, op ≠ .proceed (some error))
    (hstep : world.step op = some next) : next.operations[index]? = world.operations[index]? := by
  cases op with
  | select | request | readiness | beginScrape | endScrape | elapse => rw [(step_background rfl hstep).operations]
  | drain | activate | disable | reload =>
      obtain ⟨hfree, _⟩ := command_some hstep
      rw [hfree] at hlife
      cases hlife
  | proceed failure =>
      cases failure with
      | some error => exact absurd rfl (hsaves error)
      | none =>
          simp only [ControlWorld.step, proceed, hlife] at hstep
          cases hstep
          rfl
  | drive driven =>
      obtain ⟨old, new, hold, _, hnot, hoperations, _⟩ := driveStep_advance hstep
      obtain ⟨operation, hoperation, _, hdriver⟩ := hdrains.committing index target (by rw [hlife]; rfl)
      have hother : driven ≠ index := by
        rintro rfl
        rw [hold, Option.some.injEq] at hoperation
        exact hnot (hoperation ▸ hdriver)
      rw [hoperations, List.getElem?_set_ne hother]
  | restart config => exact absurd rfl (hrestart config)

/-- A step that ends no operation of a draining backend. -/
theorem Watches.step (h : world.Watches id) (hdraining : world.draining id = true) (hcoherent : Coherent world)
    (hdrains : Drains world) (hvisible : Visible world) {op : ControlOp} (hrestart : ∀ config, op ≠ .restart config)
    (hsaves : ∀ error, op ≠ .proceed (some error)) (hstep : world.step op = some next) : next.Watches id := by
  obtain ⟨operation, hmem, hid, hphase, hdriver, hsending⟩ := h
  cases step_operations hrestart hstep with
  | same hoperations => exact ⟨operation, hoperations ▸ hmem, hid, hphase, hdriver, hsending⟩
  | started target _ _ _ hoperations =>
      rw [Watches, hoperations]
      exact ⟨operation, List.mem_append_left _ hmem, hid, hphase, hdriver, hsending⟩
  | advanced index old new hold hadvance hoperations =>
      obtain ⟨other, hother⟩ := List.getElem?_of_mem hmem
      rw [Watches, hoperations]
      by_cases hindex : index = other
      · subst hindex
        obtain rfl : old = operation := Option.some.inj (hold.symm.trans hother)
        have hlt := (List.getElem?_eq_some_iff.mp hold).1
        refine ⟨new, List.mem_of_getElem? (List.getElem?_set_self hlt), hadvance.backendId.trans hid, ?_⟩
        cases hadvance with
        | poll _ =>
            obtain ⟨backend, hbackend⟩ := hvisible id hdraining old hmem hid
            obtain ⟨status, hstatus, hmode⟩ := status_of_draining hdraining hbackend
            rw [hid, hstatus]
            rcases old.decideNext_draining world.now hmode with ⟨read, hnext⟩ | ⟨progress, hnext⟩
            · simp [DrainOperation.Watching, hnext, hphase]
            · simp [DrainOperation.Watching, hnext, hphase]
        | send progress last hsend =>
            obtain rfl := hsending progress last hsend
            have hkept : progress.phase = .draining := by
              by_contra hterminal
              exact absurd (((hdrains.sound old hmem).sending progress false hsend).mpr hterminal) Bool.false_ne_true
            simp [DrainOperation.Watching, hkept]
        | wake _ | retry _ _ | commit _ _ _ _ _ => simp [DrainOperation.Watching, hphase]
        | fail target status confirmed progress hlife _ =>
            -- only a failed save ends the operation of a task that commits
            have hkept := commitSave_keeps hdrains hlife hrestart hsaves hstep
            rw [hoperations, List.getElem?_set_self hlt, hold, Option.some.injEq] at hkept
            rw [hkept]
            exact ⟨hphase, hdriver, hsending⟩
        | complete target confirmed progress hlife _ =>
            -- the gate of a backend whose drain completes is closed already
            obtain ⟨found, hfound, hsame, _⟩ := hdrains.committing index target (by rw [hlife]; rfl)
            obtain rfl : old = found := Option.some.inj (hold.symm.trans hfound)
            obtain rfl : id = target := hid.symm.trans hsame
            have howns := hcoherent.owns
            rw [hlife] at howns
            obtain ⟨closed, hclosed, _, hdisabled⟩ := howns
            obtain ⟨slot, hslot, _, hmode⟩ := draining_iff.mp hdraining
            obtain rfl : closed = slot := Option.some.inj (hclosed.symm.trans hslot)
            rw [hdisabled] at hmode
            cases hmode
      · have hkept : (world.operations.set index new)[other]? = some operation := by
          rw [List.getElem?_set_ne hindex]
          exact hother
        exact ⟨operation, List.mem_of_getElem? hkept, hid, hphase, hdriver, hsending⟩

/-- A drain joins an operation whose task goes on, or starts one. -/
theorem watches_ensure (hjoins : ∀ operation ∈ world.operations, joinable id operation = true → operation.Watching) :
    (world.ensureDrainOperation id).1.Watches id := by
  rcases unjoinable_or_joinable id world with hunjoinable | ⟨operation, hmem, hjoinable⟩
  · exact hunjoinable.ensure
  · have hkept : operation ∈ (world.ensureDrainOperation id).1.operations := by
      rcases ensureDrainOperation_cases id world with ⟨index, heq⟩ | ⟨_, heq⟩
      · rw [heq]
        exact hmem
      · rw [heq]
        exact List.mem_append_left _ hmem
    exact ⟨operation, hkept, (joinable_iff.mp hjoinable).1, hjoins operation hmem hjoinable⟩

/-- A reload goes on to start the operation it has to. -/
theorem resumes_proceed (hdraining : world.draining id = true) (hresumes : world.lifecycle.Resumes id)
    (hunjoinable : world.Unjoinable id) (hstep : world.proceed none = some next) :
    next.Watches id ∨ next.lifecycle.Resumes id ∧ next.Unjoinable id := by
  cases hlife : world.lifecycle with
  | reloadRestore config report pending =>
      cases pending with
      | nil =>
          simp only [proceed, hlife] at hstep
          cases hstep
          exact .inr ⟨mem_drainingIds.mpr hdraining, hunjoinable⟩
      | cons entry pending =>
          simp only [proceed, hlife] at hstep
          cases hstep
          exact .inr ⟨trivial, hunjoinable⟩
  | reloadResume report pending =>
      rw [hlife] at hresumes
      cases pending with
      | nil => cases hresumes
      | cons head pending =>
          simp only [proceed, hlife] at hstep
          cases hstep
          by_cases hhead : head = id
          · subst hhead
            exact .inl hunjoinable.ensure
          · refine .inr ⟨?_, hunjoinable.ensure_other hhead⟩
            rcases List.mem_cons.mp hresumes with heq | hmem
            · exact absurd heq.symm hhead
            · exact hmem
  | free | drainSave | drainUndo | drainEnsure | activateSave | activateOpen | disableSave | disableClose
  | reloadReconcile | commitSave | commitClose | commitSend =>
      rw [hlife] at hresumes
      exact hresumes.elim

theorem resumes_step (hsound : ∀ operation ∈ world.operations, operation.Sound) (hdraining : world.draining id = true)
    (hresumes : world.lifecycle.Resumes id) (hunjoinable : world.Unjoinable id) {op : ControlOp}
    (hrestart : ∀ config, op ≠ .restart config) (hsaves : ∀ error, op ≠ .proceed (some error))
    (hstep : world.step op = some next) : next.Watches id ∨ next.lifecycle.Resumes id ∧ next.Unjoinable id := by
  have hbusy : world.lifecycle ≠ .free := by
    intro hfree
    rw [hfree] at hresumes
    exact hresumes
  cases op with
  | select | request | readiness | beginScrape | endScrape | elapse =>
      have hbackground := step_background rfl hstep
      exact .inr ⟨hbackground.lifecycle ▸ hresumes, hunjoinable.of_operations hbackground.operations⟩
  | drain | activate | disable | reload => exact absurd (command_some hstep).1 hbusy
  | drive driven =>
      obtain ⟨old, new, hold, hadvance, _, hoperations, hlife | ⟨_, hfree, _⟩⟩ := driveStep_advance hstep
      · exact .inr ⟨hlife ▸ hresumes, hunjoinable.advance hsound hold hadvance hoperations⟩
      · exact absurd hfree hbusy
  | proceed failure =>
      cases failure with
      | some error => exact absurd rfl (hsaves error)
      | none => exact resumes_proceed hdraining hresumes hunjoinable hstep
  | restart config => exact absurd rfl (hrestart config)

end ControlWorld

namespace Visible

variable {world next : ControlWorld}

theorem of_not_restoring (hcoherent : Coherent world) (hlife : ∀ config report pending,
    world.lifecycle ≠ .reloadRestore config report pending) : Visible world := by
  intro id hdraining _ _ _
  obtain ⟨slot, hslot, hregistered, _⟩ := ControlWorld.draining_iff.mp hdraining
  exact ControlWorld.published_of_registered hcoherent hlife hslot hregistered

theorem step (h : Visible world) (hcoherent : Coherent world) (hdrains : Drains world) {op : ControlOp}
    (hstep : world.step op = some next) : Visible next := by
  by_cases hlife : ∀ config report pending, next.lifecycle ≠ .reloadRestore config report pending
  · exact of_not_restoring (hcoherent.step hstep) hlife
  obtain ⟨config, report, pending, hlife⟩ : ∃ config report pending,
      next.lifecycle = .reloadRestore config report pending := by
    by_contra hnone
    exact hlife fun config report pending heq => hnone ⟨config, report, pending, heq⟩
  intro id hdraining operation hmem hid
  cases op with
  | select | request | readiness | beginScrape | endScrape | elapse =>
      have hbackground := ControlWorld.step_background rfl hstep
      rw [ControlWorld.draining_of_ages hbackground.ages] at hdraining
      rw [hbackground.published]
      exact h id hdraining operation (hbackground.operations ▸ hmem) hid
  | drain | activate | disable | reload =>
      have hstart := ControlWorld.command_isStart rfl hstep
      rw [hlife] at hstart
      cases hstart
  | proceed failure =>
      obtain ⟨hstore, hoperations, hpublished, ⟨hbefore, hreconcile⟩ | ⟨target, mode, hbefore, hregistry⟩⟩ :=
        ControlWorld.proceed_restoring hstep hlife
      · have hdraining := ControlWorld.draining_of_reconcile hcoherent hreconcile hdraining
        rw [hpublished]
        exact of_not_restoring hcoherent (by simp [hbefore]) id hdraining operation (hoperations ▸ hmem) hid
      · rw [hpublished]
        rw [hoperations] at hmem
        cases hold : world.draining id with
        | true => exact h id hold operation hmem hid
        | false =>
            rcases ControlWorld.draining_of_restore hregistry hdraining with hdraining |
              ⟨rfl, rfl, slot, hslot, hregistered⟩
            · rw [hold] at hdraining
              cases hdraining
            · exact absurd hid (hdrains.unused_of_restore hcoherent hbefore hslot hregistered hold operation hmem)
  | drive index =>
      obtain ⟨_, _, hpublished, _, hregistry, _⟩ := ControlWorld.driveStep_some hstep
      obtain ⟨old, new, hold, hadvance, _, hoperations, _⟩ := ControlWorld.driveStep_advance hstep
      rw [hoperations] at hmem
      rw [hpublished]
      have hbefore := ControlWorld.draining_of_registry hdraining hregistry
      rcases List.mem_or_eq_of_mem_set hmem with hmem | rfl
      · exact h id hbefore operation hmem hid
      · exact h id hbefore old (List.mem_of_getElem? hold) (hadvance.backendId.symm.trans hid)
  | restart config =>
      obtain ⟨_, _, hfree, _⟩ := ControlWorld.boot_some (ControlWorld.restart_some hstep).2
      rw [hfree] at hlife
      cases hlife

theorem of_run {guard : ControlWorld → ControlOp → Prop} {record : List ControlStep}
    (hrun : Run controlSystem guard record world) : Visible world := by
  refine hrun.induct (motive := fun _ world => Visible world) ?_ ?_
  · rintro world ⟨config, store, now, hboot⟩
    obtain ⟨_, _, hfree, _⟩ := ControlWorld.boot_some hboot
    exact of_not_restoring (Coherent.boot hboot) (by simp [hfree])
  · intro record world op next hrun h _ hnext
    exact h.step (Coherent.of_run hrun) (Drains.of_run hrun) hnext

end Visible

namespace Watched

variable {world next : ControlWorld}

theorem boot {config : ValidConfig} {store : BackendStateStore} {now : Nat}
    (h : ControlWorld.boot config store now = some world) : Watched world := by
  obtain ⟨_, hfresh, hall⟩ := Resuming.boot h
  intro id hdraining
  obtain ⟨operation, hmem, hid⟩ := hall id hdraining
  obtain ⟨_, hphase, hdriver, _⟩ := hfresh operation hmem
  exact .inl ⟨operation, hmem, hid, hphase, by simp [hdriver], by simp [hdriver]⟩

/-- A drain goes on to join an operation whose task goes on, or to start one. -/
theorem of_enters {id : BackendId} (hcoherent : Coherent world) (henters : world.lifecycle.Enters id)
    (hbefore : world.draining id = true) {op : ControlOp} (hrestart : ∀ config, op ≠ .restart config)
    (hguard : NoDoomedJoin world op) (hstep : world.step op = some next) (hnext : next.draining id = true) :
    next.Watches id ∨ next.lifecycle.Enters id := by
  rcases ControlWorld.enters_step hcoherent henters hbefore hrestart hstep hnext with
    hkept | ⟨failure, before, rfl, hlife, hmode⟩
  · exact .inr hkept
  · cases failure with
    | some error => exact absurd rfl (hguard.saves error)
    | none =>
        simp only [ControlWorld.step, ControlWorld.proceed, hlife] at hstep
        cases hstep
        exact .inl (ControlWorld.watches_ensure (hguard.joins id before rfl hlife hmode))

theorem step (h : Watched world) (hcoherent : Coherent world) (hdrains : Drains world) (hvisible : Visible world)
    {op : ControlOp} (hguard : NoDoomedJoin world op) (hstep : world.step op = some next) : Watched next := by
  by_cases hrestart : ∃ config, op = .restart config
  · obtain ⟨config, rfl⟩ := hrestart
    exact boot (ControlWorld.restart_some hstep).2
  have hrestart : ∀ config, op ≠ .restart config := fun config heq => hrestart ⟨config, heq⟩
  intro id hnext
  cases hbefore : world.draining id with
  | true =>
      rcases h id hbefore with hwatches | hdrain | ⟨hresumes, hunjoinable⟩
      · exact .inl (hwatches.step hbefore hcoherent hdrains hvisible hrestart hguard.saves hstep)
      · exact (of_enters hcoherent hdrain hbefore hrestart hguard hstep hnext).imp_right .inl
      · have hafter := ControlWorld.resumes_step hdrains.sound hbefore hresumes hunjoinable hrestart hguard.saves hstep
        exact hafter.imp_right .inr
  | false =>
      rcases ControlWorld.step_draining hcoherent hrestart hstep hnext with
        htrue | rfl | ⟨config, report, pending, slot, hlife, hlifeNext, hslot, hregistered⟩
      · rw [hbefore] at htrue
        cases htrue
      · exact .inr (.inl (ControlWorld.drain_enters hstep hbefore hnext))
      · have hunused := hdrains.unused_of_restore hcoherent hlife hslot hregistered hbefore
        have hunjoinable : world.Unjoinable id := by
          intro operation hmem
          apply Bool.eq_false_iff.mpr
          intro hjoinable
          exact hunused operation hmem (ControlWorld.joinable_iff.mp hjoinable).1
        refine .inr (.inr ?_)
        rw [hlifeNext]
        refine ⟨trivial, ?_⟩
        cases ControlWorld.step_operations hrestart hstep with
        | same hoperations => exact hunjoinable.of_operations hoperations
        | advanced index old new hold hadvance hoperations =>
            exact hunjoinable.advance hdrains.sound hold hadvance hoperations
        | started target _ hstarts _ _ =>
            rcases hstarts with ⟨_, hstarts⟩ | ⟨_, _, hstarts⟩ <;> rw [hlife] at hstarts <;> cases hstarts

theorem of_run {record : List ControlStep} (hrun : Run controlSystem NoDoomedJoin record world) : Watched world := by
  refine hrun.induct (motive := fun _ world => Watched world) ?_ ?_
  · rintro world ⟨config, store, now, hboot⟩
    exact boot hboot
  · intro record world op next hrun h hguard hnext
    exact h.step (Coherent.of_run hrun) (Drains.of_run hrun) (Visible.of_run hrun) hguard hnext

end Watched

/-- As long as no save fails and no drain joins an operation whose task is about to end it, every registered
backend that drains while the lifecycle lock is free has exactly one operation in phase `draining`, and the
task of that operation goes on. -/
theorem drains_are_watched (record : List ControlStep) (world : ControlWorld)
    (hrun : Run controlSystem NoDoomedJoin record world) (hfree : world.lifecycle = .free) :
    ∀ id slot, BackendRegistry.get id world.registry = some slot → slot.mode = .draining →
      ∃ (index : Nat) (operation : DrainOperation), world.operations[index]? = some operation ∧
        operation.backendId = id ∧ operation.progress.phase = .draining ∧ operation.driver ≠ .finished ∧
        operation.Watching ∧
        ∀ (other : Nat) (second : DrainOperation), world.operations[other]? = some second → second.backendId = id →
          second.progress.phase = .draining → other = index := by
  intro id slot hget hmode
  obtain ⟨hslot, hregistered⟩ := BackendRegistry.get_eq_some_iff.mp hget
  have hdraining := ControlWorld.draining_iff.mpr ⟨slot, hslot, hregistered, hmode⟩
  rcases Watched.of_run hrun id hdraining with ⟨operation, hmem, hid, hwatching⟩ | hdrain | ⟨hresumes, _⟩
  · obtain ⟨index, hindex⟩ := List.getElem?_of_mem hmem
    refine ⟨index, operation, hindex, hid, hwatching.1, hwatching.2.1, hwatching, ?_⟩
    intro other second hother hsame hphase
    exact (Drains.of_run hrun).single other index second operation hother hindex (hsame.trans hid.symm) hphase
      hwatching.1
  · rw [hfree] at hdrain
    exact hdrain.elim
  · rw [hfree] at hresumes
    exact hresumes.elim

/-- The backend turns ready, is scraped and drained; then it is disabled and activated again. -/
def supersededScript : List ControlOp :=
  [.readiness "a" 1 ⟨2000, 1000, 2, 3⟩ none, .readiness "a" 1 ⟨2000, 1000, 2, 3⟩ none, .beginScrape "a" 1,
    .endScrape "a" (.ok ⟨0, 0, none, none, none, none, none⟩), .drain "a", .proceed none, .proceed none,
    .disable "a" false, .proceed none, .proceed none, .activate "a", .proceed none, .proceed none]

/-- The task reads that its drain was superseded; a second drain joins its operation before it says so. -/
def orphanedScript : List ControlOp :=
  supersededScript ++ [.drive 0, .drain "a", .proceed none, .proceed none, .drive 0]

/-- The backend drains and no operation is in phase `draining`, though no save failed. -/
theorem drain_orphaned_by_superseded_task :
    ∃ record world slot, Run controlSystem Free record world ∧ world.lifecycle = .free ∧
      (∀ step ∈ record, ∀ error, step.action ≠ .proceed (some error)) ∧
      BackendRegistry.get "a" world.registry = some slot ∧ slot.mode = .draining ∧
      ¬∃ operation ∈ world.operations, operation.progress.phase = .draining := by
  have hfacts : (ControlWorld.boot singleConfig emptyStore 0).any (fun start =>
      (controlSystem.follow start orphanedScript).any (fun world =>
        decide (world.lifecycle = .free) &&
        (BackendRegistry.get "a" world.registry).any (fun slot => decide (slot.mode = .draining)) &&
        world.operations.all fun operation => decide (operation.progress.phase ≠ .draining))) = true := by
    decide +kernel
  obtain ⟨start, hboot, hfacts⟩ := (Option.any_eq_true _ _).mp hfacts
  obtain ⟨world, hworld, hfacts⟩ := (Option.any_eq_true _ _).mp hfacts
  simp only [Bool.and_eq_true, decide_eq_true_eq] at hfacts
  obtain ⟨⟨hfree, hslot⟩, hphases⟩ := hfacts
  obtain ⟨slot, hget, hmode⟩ := (Option.any_eq_true _ _).mp hslot
  have hstart : Run controlSystem Free [] start := .start ⟨singleConfig, emptyStore, 0, hboot⟩
  have hrun := hstart.follow_unguarded _ hworld (fun _ _ _ => trivial)
  refine ⟨_, world, slot, hrun, hfree, ?_, hget, of_decide_eq_true hmode, ?_⟩
  · intro step hmem error haction
    have hlisted := System.action_of_mem_recordOf hmem
    rw [haction] at hlisted
    simp [orphanedScript, supersededScript] at hlisted
  · rintro ⟨operation, hmem, hphase⟩
    exact of_decide_eq_true (List.all_eq_true.mp hphases operation hmem) hphase

/-- The task says that its drain was superseded while the second drain is saved, before it could join. -/
def watchedScript : List ControlOp :=
  supersededScript ++ [.drive 0, .drain "a", .proceed none, .drive 0, .proceed none, .drive 1, .drive 1]

theorem drains_are_watched_rejoined :
    ∃ record world, Run controlSystem NoDoomedJoin record world ∧ world.draining "a" = true ∧
      ∃ operation ∈ world.operations, operation.Watching := by
  have hfacts : (ControlWorld.boot singleConfig emptyStore 0).any (fun start =>
      (controlSystem.follow start watchedScript).any (fun world =>
        decide (world.lifecycle = .free) &&
        (BackendRegistry.get "a" world.registry).any (fun slot => decide (slot.mode = .draining))) &&
      (controlSystem.recordOf start watchedScript []).all (fun step =>
        !ensuresDrain step ||
          step.before.operations.all fun operation => decide (operation.progress.phase ≠ .draining))) = true := by
    decide +kernel
  obtain ⟨start, hboot, hfacts⟩ := (Option.any_eq_true _ _).mp hfacts
  obtain ⟨hworld, hdrains⟩ := Bool.and_eq_true_iff.mp hfacts
  obtain ⟨world, hworld, hfacts⟩ := (Option.any_eq_true _ _).mp hworld
  obtain ⟨hfree, hslot⟩ := Bool.and_eq_true_iff.mp hfacts
  obtain ⟨slot, hget, hmode⟩ := (Option.any_eq_true _ _).mp hslot
  have hstart : Run controlSystem NoDoomedJoin [] start := .start ⟨singleConfig, emptyStore, 0, hboot⟩
  have hrun := hstart.follow _ hworld (fun step hmem => by
    refine ⟨?_, ?_⟩
    · intro error haction
      have hlisted := System.action_of_mem_recordOf hmem
      rw [haction] at hlisted
      simp [watchedScript, supersededScript] at hlisted
    · intro id before haction hlife _ operation hoperation hjoinable
      have hended := List.all_eq_true.mp hdrains step hmem
      rw [ensuresDrain_eq_true haction hlife] at hended
      have hphase := of_decide_eq_true (List.all_eq_true.mp hended operation hoperation)
      exact absurd (ControlWorld.joinable_iff.mp hjoinable).2 hphase)
  obtain ⟨index, operation, hindex, _, _, _, hwatching, _⟩ :=
    drains_are_watched _ world hrun (of_decide_eq_true hfree) "a" slot hget (of_decide_eq_true hmode)
  exact ⟨_, world, hrun, hslot, operation, List.mem_of_getElem? hindex, hwatching⟩

end MistralrsProxy
