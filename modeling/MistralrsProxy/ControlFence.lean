import MistralrsProxy.ControlCoherence

/-! The durable fence. With the lifecycle lock free, the gate of every registered backend is where the
store says, whatever saves failed and however often the process restarted. A backend that has been fenced
stays closed until an activation of it starts. -/

open Transition Keyed

namespace MistralrsProxy

/-- The step answers a drain or a disable of the backend with success. -/
def Acknowledges (id : BackendId) (step : ControlStep) : Prop :=
  ∃ reply, step.after.replies = reply :: step.before.replies ∧
    ((∃ operation, reply = .drainStarted id operation) ∨ ∃ message, reply = .action id .disabled message)

/-- The step gives a request a lease of the backend. -/
def Grants (id : BackendId) (step : ControlStep) : Prop :=
  ∃ request lease permit, step.action = .select request ∧ step.before.requests request = none ∧
    step.after.requests request = some (.selected lease permit) ∧ lease.spec.id = id

/-- Stored as fenced, closed, and nobody is about to remove the fence. -/
structure Fenced (id : BackendId) (world : ControlWorld) : Prop where
  stored : world.store.mode id ≠ .active
  closed : ∀ slot, world.registry.find? id = some slot → slot.mode ≠ .active
  lock : world.lifecycle ≠ .activateSave id

namespace Fenced

variable {id target : BackendId} {world next : ControlWorld}

/-- The store alone keeps the gate closed, except while a disable has saved and not closed it yet. -/
theorem closed_of_stored (h : Coherent world) (hstored : world.store.mode id ≠ .active)
    (hlife : ∀ force inFlight, world.lifecycle ≠ .disableClose id force inFlight) (slot : SlotState)
    (hslot : world.registry.find? id = some slot) : slot.mode ≠ .active := by
  cases hregistered : slot.registered with
  | false =>
      rw [(h.retired id slot hslot hregistered).1]
      exact BackendMode.noConfusion
  | true =>
      have hgate := (h.registered id slot hslot hregistered).2
      intro hactive
      rw [hactive] at hgate
      cases hlifecycle : world.lifecycle with
      | drainSave target before | drainUndo target before =>
          simp only [hlifecycle, Lifecycle.Gate] at hgate
          split at hgate
          · cases hgate.1
          · exact hstored hgate.symm
      | activateOpen target =>
          simp only [hlifecycle, Lifecycle.Gate] at hgate
          split at hgate
          · exact hstored hgate
          · exact hstored hgate.symm
      | disableClose target force inFlight =>
          by_cases htarget : id = target
          · exact hlife force inFlight (htarget ▸ hlifecycle)
          · simp only [hlifecycle, Lifecycle.Gate, if_neg htarget] at hgate
            exact hstored hgate.symm
      | commitClose operation target confirmed =>
          have howns := h.owns
          rw [hlifecycle] at howns
          simp only [hlifecycle, Lifecycle.Gate] at hgate
          split at hgate
          · rename_i htarget
            obtain ⟨found, hfound, _, hdraining⟩ := howns
            rw [← htarget, hslot, Option.some.injEq] at hfound
            rw [← hfound, hactive] at hdraining
            cases hdraining
          · exact hstored hgate.symm
      | reloadRestore config report pending =>
          rw [hlifecycle] at hgate
          rcases hgate with hgate | ⟨hdisabled, _⟩
          · exact hstored hgate.symm
          · cases hdisabled
      | free | drainEnsure | activateSave | disableSave | reloadReconcile | reloadResume | commitSave | commitSend =>
          rw [hlifecycle] at hgate
          exact hstored hgate.symm

/-- A step that leaves the registry and the store to others. -/
theorem age (h : Fenced id world) (hstore : next.store = world.store)
    (hages : BackendRegistry.Ages world.registry next.registry) (hlock : next.lifecycle ≠ .activateSave id) :
    Fenced id next := by
  refine ⟨?_, ?_, hlock⟩
  · rw [hstore]
    exact h.stored
  · intro slot hslot
    obtain ⟨before, hbefore, haged⟩ := hages.find hslot
    rw [haged.mode]
    exact h.closed before hbefore

theorem proceed (h : Fenced id world) (hnext : Coherent next) {failure : Option String}
    (hstep : world.proceed failure = some next) : Fenced id next := by
  obtain ⟨hlock, hregistry⟩ := ControlWorld.proceed_lifecycle hstep id
  have hstored : next.store.mode id ≠ .active := by
    rcases ControlWorld.proceed_store hstep with hstore | ⟨target, mode, hstore, hactive⟩
    · rw [hstore]
      exact h.stored
    · rw [hstore]
      by_cases htarget : id = target
      · subst htarget
        rw [BackendStateStore.mode_setMode_self]
        exact fun hmode => h.lock (hactive hmode)
      · rw [BackendStateStore.mode_setMode_of_ne htarget]
        exact h.stored
  refine ⟨hstored, ?_, hlock⟩
  by_cases hclose : ∃ force inFlight, next.lifecycle = .disableClose id force inFlight
  · obtain ⟨force, inFlight, hclose⟩ := hclose
    rw [hregistry force inFlight hclose]
    exact h.closed
  · exact closed_of_stored hnext hstored (fun force inFlight hlife => hclose ⟨force, inFlight, hlife⟩)

theorem drain (h : Fenced id world) (hnext : Coherent (world.drain target)) : Fenced id (world.drain target) := by
  have hstore := ControlWorld.drain_store target world
  have hlife : (world.drain target).lifecycle ≠ .activateSave id ∧
      ∀ force inFlight, (world.drain target).lifecycle ≠ .disableClose id force inFlight := by
    unfold ControlWorld.drain
    split
    · exact ⟨Lifecycle.noConfusion, fun _ _ => Lifecycle.noConfusion⟩
    · split <;> exact ⟨Lifecycle.noConfusion, fun _ _ => Lifecycle.noConfusion⟩
  have hstored : (world.drain target).store.mode id ≠ .active := by
    rw [hstore]
    exact h.stored
  exact ⟨hstored, closed_of_stored hnext hstored hlife.2, hlife.1⟩

/-- Only an activation of the backend can start to remove its fence. -/
theorem step (h : Fenced id world) (hcoherent : Coherent world) {op : ControlOp} (hop : op ≠ .activate id)
    (hstep : world.step op = some next) : Fenced id next := by
  have hnext := hcoherent.step hstep
  by_cases hbackground : op.isBackground = true
  · have hbackground := ControlWorld.step_background hbackground hstep
    exact h.age hbackground.store hbackground.ages (hbackground.lifecycle ▸ h.lock)
  · cases op with
    | select | request | readiness | beginScrape | endScrape | elapse => exact absurd rfl hbackground
    | drain target =>
        obtain ⟨_, rfl⟩ := ControlWorld.command_some hstep
        exact h.drain hnext
    | activate target =>
        obtain ⟨_, rfl⟩ := ControlWorld.command_some hstep
        obtain ⟨hstore, hregistry, _⟩ := ControlWorld.activate_store target world
        apply h.age hstore (hregistry ▸ BackendRegistry.Ages.refl _)
        intro hlife
        have htarget : target = id := by
          unfold ControlWorld.activate at hlife
          split at hlife
          · cases hlife
          · split at hlife
            · cases hlife
            · cases hlife
            · split at hlife
              · cases hlife
              · split at hlife
                · cases hlife
                · exact Lifecycle.activateSave.inj hlife
        exact hop (congrArg ControlOp.activate htarget)
    | disable target force =>
        obtain ⟨_, rfl⟩ := ControlWorld.command_some hstep
        obtain ⟨hstore, hregistry, _⟩ := ControlWorld.disable_store target force world
        apply h.age hstore (hregistry ▸ BackendRegistry.Ages.refl _)
        unfold ControlWorld.disable
        split
        · exact Lifecycle.noConfusion
        · split
          · exact Lifecycle.noConfusion
          · split <;> exact Lifecycle.noConfusion
    | reload config =>
        obtain ⟨_, rfl⟩ := ControlWorld.command_some hstep
        obtain ⟨hstore, hregistry, _⟩ := ControlWorld.reload_store config world
        apply h.age hstore (hregistry ▸ BackendRegistry.Ages.refl _)
        unfold ControlWorld.reload
        split <;> exact Lifecycle.noConfusion
    | proceed failure => exact h.proceed hnext hstep
    | drive index =>
        obtain ⟨_, _, _, hstore, hregistry, _, hlife⟩ := ControlWorld.driveStep_some hstep
        apply h.age hstore (hregistry ▸ BackendRegistry.Ages.refl _)
        rcases hlife with hlife | ⟨_, _, _, _, _, hlife⟩
        · rw [hlife]
          exact h.lock
        · rw [hlife]
          exact Lifecycle.noConfusion
    | restart config =>
        obtain ⟨_, hboot⟩ := ControlWorld.restart_some hstep
        obtain ⟨_, hstore, hlife, _⟩ := ControlWorld.boot_some hboot
        have hstored : next.store.mode id ≠ .active := by
          rw [hstore]
          exact h.stored
        refine ⟨hstored, closed_of_stored hnext hstored ?_, ?_⟩
        · intro force inFlight hclose
          rw [hlife] at hclose
          cases hclose
        · rw [hlife]
          exact Lifecycle.noConfusion

/-- A registered backend whose gate and stored mode are both away from active, with the lock released. -/
theorem of_closed (slot : SlotState) (hslot : world.registry.find? id = some slot) (hmode : slot.mode ≠ .active)
    (hstored : world.store.mode id ≠ .active) (hfree : world.lifecycle = .free) : Fenced id world := by
  refine ⟨hstored, ?_, ?_⟩
  · intro found hfound
    rw [hslot, Option.some.injEq] at hfound
    rwa [← hfound]
  · rw [hfree]
    exact Lifecycle.noConfusion

/-- What the holder of the lock answers, when it answers with success to a drain or a disable. -/
theorem of_proceed_ack (hcoherent : Coherent world) {failure : Option String} {op : ControlOp}
    (hstep : world.proceed failure = some next) (hack : Acknowledges id ⟨world, op, next⟩) : Fenced id next := by
  obtain ⟨reply, hreplies, hreply⟩ := hack
  have hsame : next.replies ≠ world.replies := by
    rw [show next.replies = _ from hreplies]
    exact List.cons_ne_self _ _
  have hother : ∀ {other replies}, next.replies = other :: replies →
      (∀ operation, other ≠ .drainStarted id operation) → (∀ message, other ≠ .action id .disabled message) →
      False := by
    intro other replies hhead hdrain haction
    obtain rfl : other = reply := (List.cons_eq_cons.mp (hhead.symm.trans hreplies)).1
    rcases hreply with ⟨operation, rfl⟩ | ⟨message, rfl⟩
    · exact hdrain operation rfl
    · exact haction message rfl
  unfold ControlWorld.proceed at hstep
  split at hstep
  · cases hstep
  · split at hstep <;> cases hstep <;> exact absurd rfl hsame
  · cases hstep
    exact (hother rfl (fun _ => ControlReply.noConfusion) (fun _ => ControlReply.noConfusion)).elim
  · rename_i target before hlife
    cases hstep
    have htarget : target = id := by
      rcases hreply with ⟨operation, rfl⟩ | ⟨message, rfl⟩
      · exact (ControlReply.drainStarted.inj (List.cons_eq_cons.mp hreplies).1).1
      · cases (List.cons_eq_cons.mp hreplies).1
    subst htarget
    have howns := hcoherent.owns
    rw [hlife] at howns
    obtain ⟨slot, hslot, hregistered, hmode⟩ := howns
    have hgate := (hcoherent.registered target slot hslot hregistered).2
    rw [hlife, hmode] at hgate
    obtain ⟨_, hregistry, hstore, _⟩ := ControlWorld.ensureDrainOperation_some target world
    have hstored : (world.ensureDrainOperation target).1.store.mode target = .draining :=
      (congrArg (BackendStateStore.mode target) hstore).trans hgate.symm
    refine of_closed slot ?_ (by rw [hmode]; exact BackendMode.noConfusion) ?_ rfl
    · exact (congrArg (Table.find? target) hregistry).trans hslot
    · intro hactive
      cases hstored.symm.trans hactive
  · split at hstep
    · cases hstep
      exact absurd rfl hsame
    · cases hstep
      exact (hother rfl (fun _ => ControlReply.noConfusion) (fun _ => ControlReply.noConfusion)).elim
  · obtain ⟨slot, _, rfl⟩ := Option.map_eq_some_iff.mp hstep
    revert hother
    split
    · intro hother
      refine (hother rfl (fun _ => ControlReply.noConfusion) ?_).elim
      intro message hreply
      cases hreply
    · intro hother
      exact (hother rfl (fun _ => ControlReply.noConfusion) (fun _ => ControlReply.noConfusion)).elim
  · split at hstep
    · cases hstep
      exact absurd rfl hsame
    · cases hstep
      exact (hother rfl (fun _ => ControlReply.noConfusion) (fun _ => ControlReply.noConfusion)).elim
  · rename_i target force inFlight hlife
    cases hstep
    have htarget : target = id := by
      rcases hreply with ⟨operation, rfl⟩ | ⟨message, rfl⟩
      · cases (List.cons_eq_cons.mp hreplies).1
      · exact (ControlReply.action.inj (List.cons_eq_cons.mp hreplies).1).1
    subst htarget
    have howns := hcoherent.owns
    rw [hlife] at howns
    obtain ⟨slot, hslot, hregistered⟩ := howns
    have hgate := (hcoherent.registered target slot hslot hregistered).2
    simp only [hlife, Lifecycle.Gate, if_true] at hgate
    refine of_closed slot.disable ?_ ?_ ?_ rfl
    · exact (BackendRegistry.find?_modify_of_find (fun slot => SlotState.switchMode_spec slot .disabled)
        hslot target).trans (if_pos rfl)
    · rw [SlotState.disable, SlotState.switchMode_mode]
      exact BackendMode.noConfusion
    · show world.store.mode target ≠ .active
      rw [hgate]
      exact BackendMode.noConfusion
  · split at hstep
    · cases hstep
      exact (hother rfl (fun _ => ControlReply.noConfusion) (fun _ => ControlReply.noConfusion)).elim
    · cases hstep
      exact absurd rfl hsame
  · cases hstep
    exact absurd rfl hsame
  · cases hstep
    exact absurd rfl hsame
  · cases hstep
    exact absurd (ControlWorld.ensureDrainOperation_replies _ world) hsame
  · cases hstep
    exact (hother rfl (fun _ => ControlReply.noConfusion) (fun _ => ControlReply.noConfusion)).elim
  · split at hstep <;> cases hstep <;> exact absurd rfl hsame
  · cases hstep
    exact absurd rfl hsame
  · cases hstep
    exact absurd rfl hsame

/-- A step that answers nothing, or answers with a failure, acknowledges nothing. -/
theorem not_ack {op : ControlOp}
    (h : next.replies = world.replies ∨ ∃ error, next.replies = .failed error :: world.replies) :
    ¬Acknowledges id ⟨world, op, next⟩ := by
  rintro ⟨reply, hreplies, hreply⟩
  change next.replies = reply :: world.replies at hreplies
  rcases h with hsame | ⟨error, hfailed⟩
  · exact List.cons_ne_self _ _ (hreplies.symm.trans hsame)
  · obtain rfl := (List.cons_eq_cons.mp (hreplies.symm.trans hfailed)).1
    rcases hreply with ⟨_, hreply⟩ | ⟨_, hreply⟩ <;> cases hreply

/-- A disable of a backend that already is disabled. -/
theorem of_disable_ack (hcoherent : Coherent world) (hfree : world.lifecycle = .free) {force : Bool} {op : ControlOp}
    (hack : Acknowledges id ⟨world, op, world.disable target force⟩) : Fenced id (world.disable target force) := by
  unfold ControlWorld.disable at hack ⊢
  cases hstatus : world.status target with
  | none =>
      rw [hstatus] at hack
      exact absurd hack (not_ack (.inr ⟨_, rfl⟩))
  | some status =>
      simp only [hstatus] at hack ⊢
      split at hack
      · rename_i hdisabled
        rw [if_pos hdisabled]
        obtain ⟨reply, hreplies, hreply⟩ := hack
        have htarget : target = id := by
          rcases hreply with ⟨operation, rfl⟩ | ⟨message, rfl⟩
          · cases (List.cons_eq_cons.mp hreplies).1
          · exact (ControlReply.action.inj (List.cons_eq_cons.mp hreplies).1).1
        subst htarget
        obtain ⟨slot, _, _, hslot, hregistered, _, _, _, rfl⟩ := RoutingState.status_some hstatus
        have hmode : slot.mode = .disabled := hdisabled
        refine of_closed slot hslot (by rw [hmode]; exact BackendMode.noConfusion) ?_ rfl
        show world.store.mode target ≠ .active
        rw [← hcoherent.mode_of_free hfree hslot hregistered, hmode]
        exact BackendMode.noConfusion
      · split at hack
        · exact absurd hack (not_ack (.inr ⟨_, rfl⟩))
        · exact absurd hack (not_ack (.inl rfl))

/-- A drain or a disable answered with success leaves its backend fenced. -/
theorem of_ack (hcoherent : Coherent world) {op : ControlOp} (hstep : world.step op = some next)
    (hack : Acknowledges id ⟨world, op, next⟩) : Fenced id next := by
  by_cases hbackground : op.isBackground = true
  · exact absurd hack (not_ack (.inl (ControlWorld.step_background hbackground hstep).replies))
  · cases op with
    | select | request | readiness | beginScrape | endScrape | elapse => exact absurd rfl hbackground
    | drain target =>
        obtain ⟨_, rfl⟩ := ControlWorld.command_some hstep
        refine absurd hack (not_ack ?_)
        unfold ControlWorld.drain
        split
        · exact .inr ⟨_, rfl⟩
        · exact .inl rfl
    | activate target =>
        obtain ⟨_, rfl⟩ := ControlWorld.command_some hstep
        unfold ControlWorld.activate at hack
        split at hack
        · exact absurd hack (not_ack (.inr ⟨_, rfl⟩))
        · split at hack
          · obtain ⟨reply, hreplies, ⟨_, rfl⟩ | ⟨_, rfl⟩⟩ := hack
            · cases (List.cons_eq_cons.mp hreplies).1
            · cases (List.cons_eq_cons.mp hreplies).1
          · exact absurd hack (not_ack (.inr ⟨_, rfl⟩))
          · split at hack
            · exact absurd hack (not_ack (.inr ⟨_, rfl⟩))
            · split at hack
              · exact absurd hack (not_ack (.inr ⟨_, rfl⟩))
              · exact absurd hack (not_ack (.inl rfl))
    | disable target force =>
        obtain ⟨hfree, rfl⟩ := ControlWorld.command_some hstep
        exact of_disable_ack hcoherent hfree hack
    | reload config =>
        obtain ⟨_, rfl⟩ := ControlWorld.command_some hstep
        refine absurd hack (not_ack ?_)
        unfold ControlWorld.reload
        split
        · exact .inr ⟨_, rfl⟩
        · exact .inl rfl
    | proceed failure => exact of_proceed_ack hcoherent hstep hack
    | drive index =>
        obtain ⟨_, _, _, _, _, hreplies, _⟩ := ControlWorld.driveStep_some hstep
        exact absurd hack (not_ack (.inl hreplies))
    | restart config =>
        obtain ⟨reply, hreplies, _⟩ := hack
        rw [show next.replies = [] from ControlWorld.boot_replies (ControlWorld.restart_some hstep).2] at hreplies
        cases hreplies

/-- A grant finds the slot open. -/
theorem not_grants (h : Fenced id world) {op : ControlOp} (hstep : world.step op = some next) :
    ¬Grants id ⟨world, op, next⟩ := by
  rintro ⟨request, lease, permit, hop, hnone, hsome, hid⟩
  change op = .select request at hop
  subst hop
  change world.requests request = none at hnone
  change next.requests request = some (.selected lease permit) at hsome
  rcases ControlWorld.selectStep_some hstep with
    ⟨_, hrequests⟩ | ⟨_, candidate, _, _, slot, _, acquired, _, _, hslot, hacquire, rfl⟩
  · rw [hrequests, hnone] at hsome
    cases hsome
  · have hgranted : acquired = lease :=
      (RoutedRequest.selected.inj
        (Option.some.inj ((Function.update_self request _ world.requests).symm.trans hsome))).1
    obtain ⟨_, hmode, rfl, _⟩ := SlotState.tryAcquire_ok hacquire
    obtain rfl : candidate.id = id := by
      rw [← hid, ← hgranted]
      exact (BackendRegistry.slot_id hslot).symm
    exact h.closed slot hslot hmode

/-- From the acknowledgement on, as long as no activation of the backend starts. -/
theorem of_run {guard : ControlWorld → ControlOp → Prop} {recent older : List ControlStep} {ack : ControlStep}
    (hrun : Run controlSystem guard (recent ++ ack :: older) world) (hack : Acknowledges id ack)
    (hnever : ∀ step ∈ recent, step.action ≠ .activate id) :
    Fenced id world ∧ ∀ step ∈ recent, ¬Grants id step := by
  induction recent generalizing world with
  | nil =>
      obtain ⟨rfl, hbefore, _, hstep⟩ := hrun.cons_inv
      exact ⟨of_ack (Coherent.of_run hbefore) hstep hack, by simp⟩
  | cons last recent ih =>
      obtain ⟨rfl, hbefore, _, hstep⟩ := hrun.cons_inv
      obtain ⟨hfenced, hclosed⟩ := ih hbefore (fun step hmem => hnever step (List.mem_cons_of_mem _ hmem))
      refine ⟨hfenced.step (Coherent.of_run hbefore) (hnever last List.mem_cons_self) hstep, ?_⟩
      intro step hmem
      rcases List.mem_cons.mp hmem with rfl | hmem
      · exact hfenced.not_grants hstep
      · exact hclosed step hmem

end Fenced

/-- With the lock free the gate of every registered backend is where the store says; after an acknowledged
drain or disable no request is given the backend before an activation of it starts. -/
theorem gate_and_fence_agree (record : List ControlStep) (world : ControlWorld)
    (hrun : Run controlSystem Free record world) :
    (world.lifecycle = .free → ∀ id slot, BackendRegistry.get id world.registry = some slot →
      slot.mode = (world.store.modes id).getD .active) ∧
    ∀ id recent ack older, record = recent ++ ack :: older → Acknowledges id ack →
      (∀ step ∈ recent, step.action ≠ .activate id) → ∀ step ∈ recent, ¬Grants id step := by
  refine ⟨?_, ?_⟩
  · intro hfree id slot hget
    obtain ⟨hslot, hregistered⟩ := BackendRegistry.get_eq_some_iff.mp hget
    exact (Coherent.of_run hrun).mode_of_free hfree hslot hregistered
  · rintro id recent ack older rfl hack hnever
    exact (Fenced.of_run hrun hack hnever).2

/-- One backend. -/
def singleConfig : ValidConfig :=
  ⟨.new [⟨"a", ⟨"a", "/"⟩, ⟨"a", "/metrics"⟩, ⟨"a", "/v1/models"⟩, some 8⟩], by decide⟩

def emptyStore : BackendStateStore := ⟨fun _ => none, fun _ => Option.some_ne_none _ |>.symm⟩

/-- The backend is drained, then the process is started again. -/
def restartScript : List ControlOp := [.drain "a", .proceed none, .proceed none, .restart singleConfig]

theorem gate_and_fence_agree_restart :
    ∃ last ack older world slot, Run controlSystem Free (last :: ack :: older) world ∧ Acknowledges "a" ack ∧
      ¬Grants "a" last ∧ BackendRegistry.get "a" world.registry = some slot ∧
      world.store.modes "a" = some .draining ∧ slot.mode = .draining := by
  have hfacts : (ControlWorld.boot singleConfig emptyStore 0).any (fun start =>
      (controlSystem.follow start restartScript).any (fun world =>
        decide (world.lifecycle = .free) && (BackendRegistry.get "a" world.registry).isSome &&
          decide (world.store.modes "a" = some .draining)) &&
      match controlSystem.recordOf start restartScript [] with
      | last :: ack :: _ =>
          decide (last.action ≠ .activate "a") &&
            decide (ack.after.replies = .drainStarted "a" 0 :: ack.before.replies)
      | [_] => false
      | [] => false) = true := by
    decide +kernel
  obtain ⟨start, hboot, hfacts⟩ := (Option.any_eq_true _ _).mp hfacts
  obtain ⟨hworld, hrecord⟩ := Bool.and_eq_true_iff.mp hfacts
  obtain ⟨world, hworld, hfacts⟩ := (Option.any_eq_true _ _).mp hworld
  simp only [Bool.and_eq_true, decide_eq_true_eq] at hfacts
  obtain ⟨⟨hfree, hregistered⟩, hstored⟩ := hfacts
  obtain ⟨slot, hslot⟩ := Option.isSome_iff_exists.mp hregistered
  have hstart : Run controlSystem Free [] start := .start ⟨singleConfig, emptyStore, 0, hboot⟩
  have hrun := hstart.follow_unguarded _ hworld (fun _ _ _ => trivial)
  revert hrun hrecord
  split
  · rename_i last ack older hsteps
    rw [hsteps]
    intro hrecord hrun
    simp only [Bool.and_eq_true, decide_eq_true_eq] at hrecord
    have hack : Acknowledges "a" ack := ⟨_, hrecord.2, .inl ⟨0, rfl⟩⟩
    obtain ⟨hagree, hclosed⟩ := gate_and_fence_agree _ world hrun
    refine ⟨last, ack, older, world, slot, hrun, hack, ?_, hslot, hstored, ?_⟩
    · exact hclosed "a" [last] ack older rfl hack (by simpa using hrecord.1) last (by simp)
    · rw [hagree hfree "a" slot hslot, hstored]
      rfl
  · intro hrecord
    cases hrecord
  · intro hrecord
    cases hrecord

end MistralrsProxy
