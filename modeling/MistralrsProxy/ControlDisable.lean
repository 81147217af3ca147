import MistralrsProxy.ControlFence
import MistralrsProxy.ControlLeases

/-! Disabling without force. The count of requests in flight is read before the disabled state is saved, and
the gate closes only after the save, so a selection that already has its permit can take a lease in between. -/

open Transition Keyed

namespace MistralrsProxy

/-- An unforced disable of the backend has read the status and not closed the gate yet. -/
def Lifecycle.Disabling (id : BackendId) : Lifecycle → Prop
  | .disableSave target false _ | .disableClose target false _ => target = id
  | _ => False

/-- The step closes the gate for an unforced disable of the backend, and answers with success. -/
def ClosesUnforced (id : BackendId) (step : ControlStep) : Prop :=
  ∃ failure inFlight, step.action = .proceed failure ∧ step.before.lifecycle = .disableClose id false inFlight

/-- No selection takes a lease of a backend that is being disabled without force. -/
def NoLateGrant (world : ControlWorld) (op : ControlOp) : Prop :=
  ∀ request, op = .select request → ∀ eligible candidate permit rest,
    world.selector = .permitted eligible candidate permit rest → world.lifecycle.Disabling candidate.id →
      ∀ slot, world.registry.find? candidate.id = some slot → slot.mode ≠ .active

/-- A backend that is being disabled without force has no lease. -/
def Cleared (world : ControlWorld) : Prop :=
  ∀ id slot, world.lifecycle.Disabling id → world.registry.find? id = some slot → slot.leases = ∅

namespace Cleared

variable {world next : ControlWorld} {id : BackendId}

theorem disabling_iff {lifecycle : Lifecycle} : lifecycle.Disabling id ↔
    ∃ inFlight, lifecycle = .disableSave id false inFlight ∨ lifecycle = .disableClose id false inFlight := by
  cases lifecycle with
  | disableSave target force inFlight | disableClose target force inFlight =>
      cases force with
      | false => simp [Lifecycle.Disabling, eq_comm]
      | true => simp [Lifecycle.Disabling]
  | _ => simp [Lifecycle.Disabling]

theorem frame (h : Cleared world) (hlife : next.lifecycle = world.lifecycle)
    (hregistry : next.registry = world.registry) :
    Cleared next := by
  intro id slot hdisabling hslot
  rw [hlife] at hdisabling
  rw [hregistry] at hslot
  exact h id slot hdisabling hslot

theorem of_not_disabling (h : ∀ id, ¬next.lifecycle.Disabling id) : Cleared next :=
  fun id _ hdisabling _ => absurd hdisabling (h id)

theorem select (h : Cleared world) {request : Nat} (hguard : NoLateGrant world (.select request))
    (hstep : world.selectStep request = some next) : Cleared next := by
  have hlife := (ControlWorld.selectStep_background hstep).lifecycle
  rcases ControlWorld.selectStep_some hstep with
    ⟨hregistry, _⟩ | ⟨eligible, candidate, permit, rest, slot, after, lease, hselector, _, hslot, hacquire, rfl⟩
  · exact h.frame hlife hregistry
  · obtain ⟨_, hmode, _, hafter⟩ := SlotState.tryAcquire_ok hacquire
    have hid := BackendRegistry.slot_id hslot
    intro id found hdisabling hfound
    replace hfound := (BackendRegistry.find?_replace hslot (by rw [hafter]; exact hid) id).symm.trans hfound
    split at hfound
    · rename_i heq
      subst heq
      exact absurd hmode (hguard request rfl eligible candidate permit rest hselector hdisabling slot hslot)
    · exact h id found hdisabling hfound

theorem request (h : Cleared world) {request : Nat} {event : RequestEvent}
    (hstep : world.requestStep request event = some next) : Cleared next := by
  have hlife := (ControlWorld.requestStep_background hstep).lifecycle
  obtain ⟨_, _, _, _, ⟨hregistry, _⟩ | ⟨_, lease, slot, released, _, hslot, hrelease, hregistry⟩⟩ :=
    ControlWorld.requestStep_some hstep
  · exact h.frame hlife hregistry
  · obtain ⟨_, hreleased⟩ := SlotState.release_some hrelease
    have hid := BackendRegistry.slot_id hslot
    intro id found hdisabling hfound
    rw [hlife] at hdisabling
    rw [hregistry, BackendRegistry.find?_replace hslot (by rw [hreleased]; exact hid)] at hfound
    split at hfound
    · rename_i heq
      subst heq
      obtain rfl := Option.some.inj hfound
      rw [hreleased]
      show slot.leases.erase lease.key = ∅
      rw [h _ slot hdisabling hslot, Finset.erase_empty]
    · exact h id found hdisabling hfound

/-- The status that an unforced disable has read shows no request in flight. -/
theorem disable (target : BackendId) (force : Bool) :
    Cleared (world.disable target force) := by
  unfold ControlWorld.disable
  cases hstatus : world.status target with
  | none => exact of_not_disabling (fun _ => id)
  | some status =>
      dsimp only
      split
      · exact of_not_disabling (fun _ => id)
      · split
        · exact of_not_disabling (fun _ => id)
        · rename_i hidle
          intro id slot hdisabling hslot
          obtain ⟨inFlight, hlife | hlife⟩ := disabling_iff.mp hdisabling
          · cases hlife
            obtain ⟨found, _, _, hfound, _, _, _, _, rfl⟩ := RoutingState.status_some hstatus
            obtain rfl : found = slot := Option.some.inj (hfound.symm.trans hslot)
            have hzero : found.leases.card = 0 := Nat.eq_zero_of_not_pos fun hpos => hidle ⟨rfl, hpos⟩
            exact Finset.card_eq_zero.mp hzero
          · cases hlife

theorem proceed (h : Cleared world) {failure : Option String} (hstep : world.proceed failure = some next) :
    Cleared next := by
  intro id slot hdisabling hslot
  obtain ⟨inFlight, hlife⟩ := disabling_iff.mp hdisabling
  obtain ⟨hbefore, hregistry⟩ := ControlWorld.proceed_disable hstep hlife
  rw [hregistry] at hslot
  exact h id slot (disabling_iff.mpr ⟨inFlight, .inl hbefore⟩) hslot

theorem step (h : Cleared world) {op : ControlOp} (hguard : NoLateGrant world op) (hstep : world.step op = some next) :
    Cleared next := by
  cases op with
  | select request => exact h.select hguard hstep
  | request request event => exact h.request hstep
  | readiness | beginScrape | endScrape | elapse =>
      obtain ⟨hregistry, _⟩ := ControlWorld.step_probe rfl hstep
      exact h.frame (ControlWorld.step_background rfl hstep).lifecycle hregistry
  | drain target =>
      obtain ⟨_, rfl⟩ := ControlWorld.command_some hstep
      apply of_not_disabling
      unfold ControlWorld.drain
      split
      · exact fun _ => id
      · split <;> exact fun _ => id
  | activate target =>
      obtain ⟨_, rfl⟩ := ControlWorld.command_some hstep
      apply of_not_disabling
      unfold ControlWorld.activate
      split
      · exact fun _ => id
      · split
        · exact fun _ => id
        · exact fun _ => id
        · split
          · exact fun _ => id
          · split <;> exact fun _ => id
  | disable target force =>
      obtain ⟨_, rfl⟩ := ControlWorld.command_some hstep
      exact disable target force
  | reload config =>
      obtain ⟨_, rfl⟩ := ControlWorld.command_some hstep
      apply of_not_disabling
      unfold ControlWorld.reload
      split <;> exact fun _ => id
  | proceed failure => exact h.proceed hstep
  | drive index =>
      obtain ⟨_, _, _, _, hregistry, _, hlife | ⟨_, _, _, _, _, hlife⟩⟩ := ControlWorld.driveStep_some hstep
      · exact h.frame hlife hregistry
      · apply of_not_disabling
        rw [hlife]
        exact fun _ => id
  | restart config =>
      obtain ⟨_, _, hlife, _⟩ := ControlWorld.boot_some (ControlWorld.restart_some hstep).2
      apply of_not_disabling
      rw [hlife]
      exact fun _ => id

theorem of_run {record : List ControlStep} (hrun : Run controlSystem NoLateGrant record world) : Cleared world := by
  refine hrun.invariant ?_ ?_
  · rintro world ⟨config, store, now, hboot⟩
    obtain ⟨_, _, hlife, _⟩ := ControlWorld.boot_some hboot
    apply of_not_disabling
    rw [hlife]
    exact fun _ => id
  · intro world op next h hguard hnext
    exact h.step hguard hnext

end Cleared

/-- Fenced and without leases. -/
structure Emptied (id : BackendId) (world : ControlWorld) : Prop where
  fenced : Fenced id world
  idle : ∀ slot, world.registry.find? id = some slot → slot.leases = ∅

namespace Emptied

variable {world next : ControlWorld} {id : BackendId}

theorem step (h : Emptied id world) (hcoherent : Coherent world) {op : ControlOp} (hop : op ≠ .activate id)
    (hstep : world.step op = some next) : Emptied id next := by
  refine ⟨h.fenced.step hcoherent hop hstep, ?_⟩
  intro slot hslot
  cases hbackground : op.isBackground with
  | true =>
      obtain ⟨before, hbefore, haged⟩ := (ControlWorld.step_background hbackground hstep).ages.find hslot
      have hsubset := haged.leases (h.fenced.closed before hbefore)
      rw [h.idle before hbefore] at hsubset
      exact Finset.subset_empty.mp hsubset
  | false =>
      by_cases hrestart : ∃ config, op = .restart config
      · obtain ⟨config, rfl⟩ := hrestart
        obtain ⟨_, _, _, _, hslots⟩ := ControlWorld.boot_some (ControlWorld.restart_some hstep).2
        exact (hslots id slot hslot).2.2.1
      · have hlocked := ControlWorld.step_locked hbackground (fun config heq => hrestart ⟨config, heq⟩) hstep
        cases hbefore : world.registry.find? id with
        | none => exact hlocked.leases.idle id slot hslot hbefore
        | some before =>
            obtain ⟨after, hafter, hkept⟩ := hlocked.leases.kept id before hbefore
            obtain rfl : after = slot := Option.some.inj (hafter.symm.trans hslot)
            rw [hkept.leases]
            exact h.idle before hbefore

theorem of_close (hcoherent : Coherent world) (hcleared : Cleared world) {failure : Option String} {inFlight : Nat}
    (hlife : world.lifecycle = .disableClose id false inFlight) (hstep : world.proceed failure = some next) :
    Emptied id next := by
  have hack : Acknowledges id ⟨world, .proceed failure, next⟩ := by
    simp only [ControlWorld.proceed, hlife] at hstep
    cases hstep
    exact ⟨_, rfl, .inr ⟨_, rfl⟩⟩
  refine ⟨Fenced.of_ack hcoherent (show world.step (.proceed failure) = some next from hstep) hack, ?_⟩
  intro slot hslot
  have howns := hcoherent.owns
  rw [hlife] at howns
  obtain ⟨before, hbefore, _⟩ := howns
  obtain ⟨after, hafter, hkept⟩ := (ControlWorld.locked_proceed hstep).leases.kept id before hbefore
  obtain rfl : after = slot := Option.some.inj (hafter.symm.trans hslot)
  rw [hkept.leases]
  exact hcleared id before (by rw [hlife]; rfl) hbefore

/-- From the closing of the gate on, as long as no activation of the backend starts. -/
theorem of_run {recent older : List ControlStep} {close : ControlStep}
    (hrun : Run controlSystem NoLateGrant (recent ++ close :: older) world) (hclose : ClosesUnforced id close)
    (hnever : ∀ step ∈ recent, step.action ≠ .activate id) : Emptied id world := by
  induction recent generalizing world with
  | nil =>
      obtain ⟨rfl, hbefore, _, hstep⟩ := hrun.cons_inv
      obtain ⟨failure, inFlight, haction, hlife⟩ := hclose
      rw [haction] at hstep
      exact of_close (Coherent.of_run hbefore) (Cleared.of_run hbefore) hlife hstep
  | cons last recent ih =>
      obtain ⟨rfl, hbefore, _, hstep⟩ := hrun.cons_inv
      have hemptied := ih hbefore (fun step hmem => hnever step (List.mem_cons_of_mem _ hmem))
      exact hemptied.step (Coherent.of_run hbefore) (hnever last List.mem_cons_self) hstep

end Emptied

/-- As long as no lease is taken of a backend while it is being disabled without force, the closing of its
gate finds no lease held, and none is held before an activation of it starts. -/
theorem unforced_disable_strands_nothing (record : List ControlStep) (world : ControlWorld)
    (hrun : Run controlSystem NoLateGrant record world) :
    ∀ id recent close older, record = recent ++ close :: older → ClosesUnforced id close →
      (∀ request lease, close.before.Holds request lease → lease.spec.id ≠ id) ∧
      ((∀ step ∈ recent, step.action ≠ .activate id) →
        ∀ request lease, world.Holds request lease → lease.spec.id ≠ id) := by
  rintro id recent close older rfl hclose
  refine ⟨?_, ?_⟩
  · intro request lease hholds
    obtain ⟨_, hbefore, _, _⟩ := hrun.of_append.cons_inv
    obtain ⟨_, _, _, hlife⟩ := hclose
    have howns := (Coherent.of_run hbefore).owns
    rw [hlife] at howns
    obtain ⟨slot, hslot, _⟩ := howns
    have hidle := Cleared.of_run hbefore id slot (by rw [hlife]; rfl) hslot
    exact (Leased.of_run hbefore).unheld hslot hidle hholds
  · intro hnever request lease hholds
    have hemptied := Emptied.of_run hrun hclose hnever
    rintro rfl
    obtain ⟨slot, hslot, _⟩ := (Leased.of_run hrun).accounted request lease hholds
    exact (Leased.of_run hrun).unheld hslot (hemptied.idle slot hslot) hholds rfl

/-- A backend turns ready, and a selection of it gets as far as its circuit permit. -/
def permittedScript : List ControlOp :=
  [.readiness "a" 1 ⟨2000, 1000, 2, 3⟩ none, .readiness "a" 1 ⟨2000, 1000, 2, 3⟩ none, .select 0, .select 0, .select 0,
    .select 0]

/-- The selection takes its lease while the disable is between its save and the gate. -/
def lateGrantScript : List ControlOp :=
  permittedScript ++ [.disable "a" false, .proceed none, .select 0, .proceed none]

/-- The lease the late selection takes. -/
def lateLease : BackendLease := ⟨⟨0, 0⟩, ⟨"a", "http://a/"⟩⟩

/-- The disable answers with success and leaves a request in flight on the backend. -/
theorem unforced_disable_strands_late_grant :
    ∃ record world close older, Run controlSystem Free record world ∧ record = close :: older ∧
      ClosesUnforced "a" close ∧ close.after.replies = [.action "a" .disabled "backend disabled"] ∧
      ¬(∀ request lease, close.before.Holds request lease → lease.spec.id ≠ "a") := by
  have hfacts : (ControlWorld.boot singleConfig emptyStore 0).any (fun start =>
      (controlSystem.follow start lateGrantScript).isSome &&
      match controlSystem.recordOf start lateGrantScript [] with
      | close :: _ =>
          decide (close.action = .proceed none) && decide (close.before.lifecycle = .disableClose "a" false 0) &&
            decide (close.after.replies = [.action "a" .disabled "backend disabled"]) &&
            decide ((close.before.requests 0).bind RoutedRequest.lease = some lateLease)
      | [] => false) = true := by
    decide +kernel
  obtain ⟨start, hboot, hfacts⟩ := (Option.any_eq_true _ _).mp hfacts
  obtain ⟨hworld, hrecord⟩ := Bool.and_eq_true_iff.mp hfacts
  obtain ⟨world, hworld⟩ := Option.isSome_iff_exists.mp hworld
  have hstart : Run controlSystem Free [] start := .start ⟨singleConfig, emptyStore, 0, hboot⟩
  have hrun := hstart.follow_unguarded _ hworld (fun _ _ _ => trivial)
  split at hrecord
  · rename_i close older hsteps
    simp only [Bool.and_eq_true, decide_eq_true_eq] at hrecord
    obtain ⟨⟨⟨haction, hlife⟩, hreplies⟩, hlease⟩ := hrecord
    refine ⟨_, world, close, older, hrun, hsteps, ⟨none, 0, haction, hlife⟩, hreplies, ?_⟩
    intro hunheld
    exact hunheld 0 lateLease hlease rfl
  · cases hrecord

/-- The request ends before the disable starts. -/
def idleDisableScript : List ControlOp :=
  permittedScript ++ [.select 0, .request 0 .transportFailure, .request 0 .release, .disable "a" false, .proceed none,
    .proceed none]

theorem unforced_disable_strands_nothing_idle :
    ∃ close older world, Run controlSystem NoLateGrant (close :: older) world ∧ ClosesUnforced "a" close ∧
      ∀ request lease, world.Holds request lease → lease.spec.id ≠ "a" := by
  have hfacts : (ControlWorld.boot singleConfig emptyStore 0).any (fun start =>
      (controlSystem.follow start idleDisableScript).isSome &&
      (controlSystem.recordOf start idleDisableScript []).all (fun step =>
        match step.action with
        | .select _ => decide (step.before.lifecycle = .free)
        | _ => true) &&
      match controlSystem.recordOf start idleDisableScript [] with
      | close :: _ =>
          decide (close.action = .proceed none) && decide (close.before.lifecycle = .disableClose "a" false 0)
      | [] => false) = true := by
    decide +kernel
  obtain ⟨start, hboot, hfacts⟩ := (Option.any_eq_true _ _).mp hfacts
  simp only [Bool.and_eq_true] at hfacts
  obtain ⟨⟨hworld, hselects⟩, hrecord⟩ := hfacts
  obtain ⟨world, hworld⟩ := Option.isSome_iff_exists.mp hworld
  have hstart : Run controlSystem NoLateGrant [] start := .start ⟨singleConfig, emptyStore, 0, hboot⟩
  have hrun := hstart.follow _ hworld (fun step hmem => by
    intro request haction eligible candidate permit rest _ hdisabling
    have hfree := List.all_eq_true.mp hselects step hmem
    rw [haction] at hfree
    rw [of_decide_eq_true hfree] at hdisabling
    exact hdisabling.elim)
  split at hrecord
  · rename_i close older hsteps
    simp only [Bool.and_eq_true, decide_eq_true_eq] at hrecord
    rw [hsteps] at hrun
    have hclose : ClosesUnforced "a" close := ⟨none, 0, hrecord.1, hrecord.2⟩
    refine ⟨close, older, world, hrun, hclose, ?_⟩
    exact (unforced_disable_strands_nothing _ world hrun "a" [] close older rfl hclose).2 (by simp)
  · cases hrecord

end MistralrsProxy
