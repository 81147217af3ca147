import MistralrsProxy.ControlFence
import MistralrsProxy.ControlVerdicts
import MistralrsProxy.Observers

/-! `backend drain`: the client that asks for a drain and waits for its end. It only ever reads the progress of
its operation, between any steps of the control plane. The lines it prints on the way are left out, and a
request that fails or times out ends it with an error of its own. -/

open Transition

namespace MistralrsProxy

structure DrainStartedResponse where
  operationId : Nat
  backendId : BackendId
  mode : BackendMode
  safeToStop : Bool
  deriving DecidableEq, Repr

/-- The answer of the handler `start_drain`, from the progress it reads after `begin_drain` returned. -/
def startDrain (id : BackendId) (operation : Nat) (progress : DrainProgress) : Nat × DrainStartedResponse :=
  (if progress.safeToStop then 200 else 202,
    ⟨operation, id, if progress.safeToStop then .disabled else .draining, progress.safeToStop⟩)

/-- How `backend drain` exits. -/
inductive DrainOutcome where
  | safeToStop
  | notWaited
  | detached
  | timedOut
  | failed (message : String)
  | clientError (message : String)
  deriving DecidableEq, Repr

/-- Where the client is; deadlines are in the time of the control plane. -/
inductive DrainClient where
  | requesting (id : BackendId) (noWait : Bool) (timeoutSeconds : Option Nat)
  /-- At the top of the loop. -/
  | checking (id : BackendId) (operation : Nat) (deadline : Option Nat)
  | fetching (id : BackendId) (operation : Nat) (deadline : Option Nat)
  | pausing (id : BackendId) (operation : Nat) (deadline : Option Nat)
  | exited (id : BackendId) (operation : Option Nat) (outcome : DrainOutcome)
  deriving DecidableEq, Repr

inductive ClientLook where
  /-- The drain was accepted, with this operation. -/
  | posted (operation : Nat)
  | check
  | fetched
  | expired
  | paused
  | interrupted
  | broken (message : String)
  deriving DecidableEq, Repr

/-- Nanoseconds in a second. -/
def secondNanos : Nat := 1000000000

namespace DrainClient

/-- What `wait_for_drain` does with the progress it fetched; `none` is to poll again. -/
def verdict (progress : DrainProgress) : Option DrainOutcome :=
  match progress.phase with
  | .complete => if progress.safeToStop then some .safeToStop else none
  | .failed | .cancelled => some (.failed (progress.message.getD "drain did not complete"))
  | .draining => none

def see (world : ControlWorld) : DrainClient → ClientLook → Option DrainClient
  | .requesting id noWait timeoutSeconds, .posted index =>
      if .drainStarted id index ∈ world.replies then
        (world.operations[index]?).map fun operation =>
          if (startDrain id index operation.progress).2.safeToStop then .exited id (some index) .safeToStop
          else if noWait then .exited id (some index) .notWaited
          else .checking id index (timeoutSeconds.map fun seconds => world.now + seconds * secondNanos)
      else none
  | .requesting id _ _, .broken message => some (.exited id none (.clientError message))
  | .checking id index deadline, .check =>
      if deadline.any (· ≤ world.now) then some (.exited id (some index) .timedOut)
      else some (.fetching id index deadline)
  | .fetching id index deadline, .fetched =>
      (world.operations[index]?).map fun operation =>
        match verdict operation.progress with
        | some outcome => .exited id (some index) outcome
        | none => .pausing id index deadline
  | .fetching id index deadline, .expired =>
      if deadline.any (· ≤ world.now) then some (.exited id (some index) .timedOut) else none
  | .fetching id index _, .broken message => some (.exited id (some index) (.clientError message))
  | .pausing id index deadline, .paused => some (.checking id index deadline)
  | .pausing id index _, .interrupted => some (.exited id (some index) .detached)
  | _, _ => none

/-- A client that has just been started. -/
def Starts (client : DrainClient) : Prop := ∃ id noWait timeoutSeconds, client = .requesting id noWait timeoutSeconds

end DrainClient

/-- The control plane with a client that drains a backend. -/
def drainClientSystem : System (ControlWorld × DrainClient) (ControlOp ⊕ ClientLook) :=
  controlSystem.observed DrainClient.Starts DrainClient.see

namespace ControlWorld

variable {world next : ControlWorld}

/-- The operation has this number and drains this backend. -/
def Names (id : BackendId) (index : Nat) (world : ControlWorld) : Prop :=
  ∃ operation, world.operations[index]? = some operation ∧ operation.backendId = id

/-- Operations keep their numbers and backends. -/
theorem Names.step {id : BackendId} {index : Nat} (h : world.Names id index) {op : ControlOp}
    (hop : KeepsRunning world op) (hstep : world.step op = some next) : next.Names id index := by
  obtain ⟨operation, hoperation, hid⟩ := h
  have hlt := (List.getElem?_eq_some_iff.mp hoperation).1
  cases step_operations hop hstep with
  | same hoperations => exact ⟨operation, hoperations ▸ hoperation, hid⟩
  | started _ _ _ _ hoperations =>
      refine ⟨operation, ?_, hid⟩
      rw [hoperations, List.getElem?_append_left hlt]
      exact hoperation
  | advanced moved old new hold hadvance hoperations =>
      rw [Names, hoperations]
      by_cases hmoved : moved = index
      · subst hmoved
        obtain rfl : operation = old := Option.some.inj (hoperation.symm.trans hold)
        exact ⟨new, List.getElem?_set_self hlt, hadvance.backendId.trans hid⟩
      · exact ⟨operation, (List.getElem?_set_ne hmoved).trans hoperation, hid⟩

theorem ensureDrainOperation_names (id : BackendId) (world : ControlWorld) :
    (world.ensureDrainOperation id).1.Names id (world.ensureDrainOperation id).2 := by
  unfold ensureDrainOperation
  split
  · rename_i index hindex
    obtain ⟨hlt, hjoinable, _⟩ := List.findIdx?_eq_some_iff_getElem.mp hindex
    exact ⟨_, List.getElem?_eq_getElem hlt, (joinable_iff.mp hjoinable).1⟩
  · exact ⟨world.newOperation id, by simp, rfl⟩

/-- A drain is answered with an operation of its backend. -/
theorem proceed_answers {failure : Option String} (h : world.proceed failure = some next) {id : BackendId} {index : Nat}
    (hreply : .drainStarted id index ∈ next.replies) :
    .drainStarted id index ∈ world.replies ∨ next.Names id index := by
  unfold proceed at h
  split at h
  · cases h
  · split at h <;> cases h <;> exact .inl hreply
  · cases h
    exact .inl (by simpa [reply, setRegistry] using hreply)
  · rename_i target _ _
    cases h
    rcases List.mem_cons.mp hreply with hnew | hold
    · cases hnew
      exact .inr (ensureDrainOperation_names id world)
    · have hold : .drainStarted id index ∈ (world.ensureDrainOperation target).1.replies := hold
      rw [ensureDrainOperation_replies] at hold
      exact .inl hold
  · split at h <;> cases h
    · exact .inl hreply
    · exact .inl (by simpa [reply] using hreply)
  · obtain ⟨slot, _, rfl⟩ := Option.map_eq_some_iff.mp h
    split at hreply <;> exact .inl (by simpa [reply, setRegistry] using hreply)
  · split at h <;> cases h
    · exact .inl hreply
    · exact .inl (by simpa [reply] using hreply)
  · cases h
    exact .inl (by simpa [reply, setRegistry] using hreply)
  · split at h <;> cases h
    · exact .inl (by simpa [reply] using hreply)
    · exact .inl hreply
  · cases h
    exact .inl hreply
  · cases h
    exact .inl hreply
  · cases h
    exact .inl (by simpa only [ensureDrainOperation_replies] using hreply)
  · cases h
    exact .inl (by simpa [reply] using hreply)
  · split at h <;> cases h <;> exact .inl hreply
  · cases h
    exact .inl hreply
  · cases h
    exact .inl hreply

/-- Commands answer at once only with what they did not start. -/
theorem command_answers {op : ControlOp} (hop : op.isCommand = true) (h : world.step op = some next) {id : BackendId}
    {index : Nat} (hreply : .drainStarted id index ∈ next.replies) : .drainStarted id index ∈ world.replies := by
  cases op with
  | drain target =>
      obtain ⟨_, rfl⟩ := command_some h
      unfold drain at hreply
      split at hreply
      · simpa [reply] using hreply
      · exact hreply
  | activate target =>
      obtain ⟨_, rfl⟩ := command_some h
      unfold activate at hreply
      repeat' split at hreply
      all_goals first
        | exact hreply
        | simpa [reply, synchronise] using hreply
  | disable target force =>
      obtain ⟨_, rfl⟩ := command_some h
      unfold disable at hreply
      repeat' split at hreply
      all_goals first
        | exact hreply
        | simpa [reply, synchronise] using hreply
  | reload config =>
      obtain ⟨_, rfl⟩ := command_some h
      unfold reload at hreply
      split at hreply
      · simpa [reply] using hreply
      · exact hreply
  | _ => cases hop

end ControlWorld

/-- Every drain that was answered has the operation it was answered with. -/
theorem answers_named {record : List ControlStep} {world : ControlWorld}
    (hrun : Run controlSystem KeepsRunning record world) : ∀ id index, .drainStarted id index ∈ world.replies →
      world.Names id index := by
  refine hrun.induct (motive := fun _ world => ∀ id index, .drainStarted id index ∈ world.replies →
    world.Names id index) ?_ ?_
  · rintro world ⟨config, store, now, hboot⟩ id index hreply
    rw [ControlWorld.boot_replies hboot] at hreply
    cases hreply
  · intro record world op next hrun ih hop hnext id index hreply
    have hnext : world.step op = some next := hnext
    have hkept : .drainStarted id index ∈ world.replies → next.Names id index :=
      fun hold => (ih id index hold).step hop hnext
    cases op with
    | drain | activate | disable | reload => exact hkept (ControlWorld.command_answers rfl hnext hreply)
    | proceed failure => exact (ControlWorld.proceed_answers hnext hreply).elim hkept (fun hnew => hnew)
    | drive driven =>
        obtain ⟨_, _, _, _, _, hreplies, _⟩ := ControlWorld.driveStep_some hnext
        exact hkept (hreplies ▸ hreply)
    | restart config => exact absurd rfl (hop config)
    | select | request | readiness | beginScrape | endScrape | elapse =>
        exact hkept ((ControlWorld.step_background rfl hnext).replies ▸ hreply)

/-- The operation has come to this end, with the gate of its backend shut if it is complete. -/
structure Ended (record : List ControlStep) (world : ControlWorld) (id : BackendId) (index : Nat)
    (operation : DrainOperation) : Prop where
  found : world.operations[index]? = some operation
  backendId : operation.backendId = id
  phase : operation.progress.phase ≠ .draining
  shut : operation.progress.phase = .complete → ∃ step ∈ record, GateShut id step.before

/-- What a client holds is true of its operation. -/
def DrainClient.Holds (record : List ControlStep) (world : ControlWorld) : DrainClient → Prop
  | .requesting _ _ _ => True
  | .checking id index _ | .fetching id index _ | .pausing id index _ => world.Names id index
  | .exited id index .safeToStop => ∃ number operation, index = some number ∧
      Ended record world id number operation ∧ operation.progress.phase = .complete
  | .exited id index (.failed message) => ∃ number operation, index = some number ∧
      Ended record world id number operation ∧
      operation.progress.phase ≠ .complete ∧ operation.progress.message = some message
  | .exited _ _ _ => True

namespace Ended

variable {record : List ControlStep} {world next : ControlWorld} {id : BackendId} {index : Nat}
  {operation : DrainOperation} {op : ControlOp}

theorem of_verdicts (hverdicts : Verdicts record world) (hfound : world.operations[index]? = some operation)
    (hid : operation.backendId = id) (hphase : operation.progress.phase ≠ .draining) :
    Ended record world id index operation := by
  refine ⟨hfound, hid, hphase, ?_⟩
  intro hcomplete
  rw [← hid]
  exact hverdicts.shut operation (List.mem_of_getElem? hfound) _ (.inl rfl) hcomplete

theorem step (h : Ended record world id index operation) (hdrains : Drains world) (hop : KeepsRunning world op)
    (hstep : world.step op = some next) : Ended (⟨world, op, next⟩ :: record) next id index operation := by
  refine ⟨ControlWorld.step_ended hdrains hop hstep h.found h.phase, h.backendId, h.phase, ?_⟩
  intro hcomplete
  obtain ⟨found, hmem, hshut⟩ := h.shut hcomplete
  exact ⟨found, List.mem_cons_of_mem _ hmem, hshut⟩

end Ended

namespace DrainClient

variable {record : List ControlStep} {world next : ControlWorld} {client : DrainClient} {op : ControlOp}

theorem Holds.step (h : client.Holds record world) (hdrains : Drains world) (hop : KeepsRunning world op)
    (hstep : world.step op = some next) : client.Holds (⟨world, op, next⟩ :: record) next := by
  cases client with
  | requesting => trivial
  | checking | fetching | pausing => exact ControlWorld.Names.step h hop hstep
  | exited id index outcome =>
      cases outcome with
      | safeToStop =>
          obtain ⟨number, operation, rfl, hended, hphase⟩ := h
          exact ⟨number, operation, rfl, hended.step hdrains hop hstep, hphase⟩
      | failed message =>
          obtain ⟨number, operation, rfl, hended, hphase, hmessage⟩ := h
          exact ⟨number, operation, rfl, hended.step hdrains hop hstep, hphase, hmessage⟩
      | notWaited | detached | timedOut | clientError => trivial

/-- The loop ends with the verdict of an operation that has ended, and only then. -/
theorem verdict_iff {progress : DrainProgress} (hagrees : progress.Agrees) :
    (verdict progress = none ↔ progress.phase = .draining) ∧
      (verdict progress = some .safeToStop ↔ progress.phase = .complete) ∧
      ∀ outcome, verdict progress = some outcome → outcome = .safeToStop ∨
        ∃ message, outcome = .failed message ∧ progress.phase ≠ .complete ∧ progress.message = some message := by
  obtain ⟨hsafe, hmessage⟩ := hagrees
  unfold verdict
  cases hphase : progress.phase with
  | draining => simp
  | complete =>
      have hstop := hsafe.mpr hphase
      simp [hstop]
  | failed | cancelled =>
      obtain ⟨message, hsome⟩ := Option.isSome_iff_exists.mp (hmessage (by rw [hphase]; exact DrainPhase.noConfusion))
      simp [hsome]

theorem Holds.look {look : ClientLook} {after : DrainClient} (h : client.Holds record world)
    (hverdicts : Verdicts record world)
    (hnamed : ∀ id index, .drainStarted id index ∈ world.replies → world.Names id index)
    (hsee : see world client look = some after) : after.Holds record world := by
  unfold see at hsee
  split at hsee
  · rename_i id noWait timeoutSeconds index
    split at hsee
    · rename_i hreply
      obtain ⟨operation, hoperation, rfl⟩ := Option.map_eq_some_iff.mp hsee
      have hmem := List.mem_of_getElem? hoperation
      obtain ⟨named, hnamed, hid⟩ := hnamed id index hreply
      obtain rfl : operation = named := Option.some.inj (hoperation.symm.trans hnamed)
      have hagrees := hverdicts.agree operation hmem _ (.inl rfl)
      split
      · rename_i hsafe
        have hphase := hagrees.safe.mp hsafe
        exact ⟨index, operation, rfl,
          .of_verdicts hverdicts hoperation hid (by rw [hphase]; exact DrainPhase.noConfusion), hphase⟩
      · split
        · trivial
        · exact ⟨operation, hoperation, hid⟩
    · cases hsee
  · cases hsee
    trivial
  · split at hsee <;> cases hsee
    · trivial
    · exact h
  · rename_i id index deadline
    obtain ⟨operation, hoperation, rfl⟩ := Option.map_eq_some_iff.mp hsee
    obtain ⟨named, hnamed, hid⟩ := h
    obtain rfl : operation = named := Option.some.inj (hoperation.symm.trans hnamed)
    have hagrees := hverdicts.agree operation (List.mem_of_getElem? hoperation) _ (.inl rfl)
    obtain ⟨hnone, hsafe, houtcome⟩ := verdict_iff hagrees
    cases hverdict : verdict operation.progress with
    | none => exact ⟨operation, hoperation, hid⟩
    | some outcome =>
        have hphase : operation.progress.phase ≠ .draining := by
          intro hdraining
          rw [hnone.mpr hdraining] at hverdict
          cases hverdict
        have hended := Ended.of_verdicts hverdicts hoperation hid hphase
        rcases houtcome outcome hverdict with rfl | ⟨message, rfl, hincomplete, hmessage⟩
        · exact ⟨index, operation, rfl, hended, hsafe.mp hverdict⟩
        · exact ⟨index, operation, rfl, hended, hincomplete, hmessage⟩
  · split at hsee <;> cases hsee
    trivial
  · cases hsee
    trivial
  · cases hsee
    exact h
  · cases hsee
    trivial
  · cases hsee

theorem holds_of_run {record : List (Step (ControlWorld × DrainClient) (ControlOp ⊕ ClientLook))}
    {state : ControlWorld × DrainClient} (hrun : Run drainClientSystem (Guards KeepsRunning) record state) :
    state.2.Holds (ownSteps record) state.1 := by
  refine Run.observe (motive := fun record world client => client.Holds record world) ?_ ?_ ?_ hrun
  · rintro world _ _ ⟨id, noWait, timeoutSeconds, rfl⟩
    trivial
  · intro record world client op next hrun h hop hstep
    exact h.step (Drains.of_run hrun) hop hstep
  · intro record world client look after hrun h hsee
    exact h.look (Verdicts.of_run hrun) (answers_named hrun) hsee

end DrainClient

/-- In every interleaving of the control plane with a draining client, while the process runs: the client
says that the backend is safe to stop only if its operation is complete, and the gate was shut when the task of
the operation last looked; it fails with the message of an operation that failed or was superseded. An ended
operation never changes, and a client that polls it exits at once with its verdict; before that it polls on. -/
theorem drain_client_tells_the_verdict (record : List (Step (ControlWorld × DrainClient) (ControlOp ⊕ ClientLook)))
    (world : ControlWorld) (client : DrainClient)
    (hrun : Run drainClientSystem (Guards KeepsRunning) record (world, client)) :
    (∀ id index, client = .exited id index .safeToStop → ∃ number operation, index = some number ∧
        Ended (ownSteps record) world id number operation ∧ operation.progress.phase = .complete) ∧
      (∀ id index message, client = .exited id index (.failed message) → ∃ number operation, index = some number ∧
        Ended (ownSteps record) world id number operation ∧ operation.progress.phase ≠ .complete ∧
        operation.progress.message = some message) ∧
      (∀ id index deadline, client = .fetching id index deadline → ∃ operation,
        world.operations[index]? = some operation ∧ operation.backendId = id ∧
        (operation.progress.phase = .draining →
          DrainClient.see world client .fetched = some (.pausing id index deadline)) ∧
        (operation.progress.phase = .complete →
          DrainClient.see world client .fetched = some (.exited id (some index) .safeToStop)) ∧
        (operation.progress.phase ≠ .draining → operation.progress.phase ≠ .complete →
          ∃ message, operation.progress.message = some message ∧
            DrainClient.see world client .fetched = some (.exited id (some index) (.failed message)))) ∧
      ∀ step ∈ ownSteps record, ∀ (index : Nat) (operation : DrainOperation),
        step.before.operations[index]? = some operation → operation.progress.phase ≠ .draining →
          world.operations[index]? = some operation := by
  have hholds := DrainClient.holds_of_run hrun
  have hown : Run controlSystem KeepsRunning (ownSteps record) world := hrun.own
  refine ⟨?_, ?_, ?_, ended_stays hown⟩
  · rintro id index rfl
    exact hholds
  · rintro id index message rfl
    exact hholds
  · rintro id index deadline rfl
    obtain ⟨operation, hoperation, hid⟩ := hholds
    have hagrees := (Verdicts.of_run hown).agree operation (List.mem_of_getElem? hoperation) _ (.inl rfl)
    obtain ⟨hnone, hsafe, houtcome⟩ := DrainClient.verdict_iff hagrees
    have hsee : ∀ {outcome}, DrainClient.verdict operation.progress = outcome →
        DrainClient.see world (.fetching id index deadline) .fetched = some (match outcome with
          | some outcome => .exited id (some index) outcome
          | none => .pausing id index deadline) := by
      rintro outcome rfl
      simp only [DrainClient.see, hoperation, Option.map_some]
    refine ⟨operation, hoperation, hid, fun hphase => hsee (hnone.mpr hphase),
      fun hphase => hsee (hsafe.mpr hphase), ?_⟩
    intro hended hincomplete
    cases hverdict : DrainClient.verdict operation.progress with
    | none => exact absurd (hnone.mp hverdict) hended
    | some outcome =>
        rcases houtcome outcome hverdict with rfl | ⟨message, rfl, _, hmessage⟩
        · exact absurd (hsafe.mp hverdict) hincomplete
        · exact ⟨message, hmessage, hsee hverdict⟩

/-- The client waits while its backend is disabled by force under the drain. -/
def forcedDrainScript : List (ControlOp ⊕ ClientLook) :=
  [.inl (.drain "a"), .inl (.proceed none), .inl (.proceed none), .inr (.posted 0), .inr .check, .inr .fetched,
    .inl (.disable "a" true), .inl (.proceed none), .inl (.proceed none), .inl (.drive 0), .inl (.drive 0),
    .inr .paused,
    .inr .check, .inr .fetched]

theorem drain_client_tells_the_verdict_forced :
    ∃ record world, Run drainClientSystem (Guards KeepsRunning) record (world, .exited "a" (some 0) .safeToStop) ∧
      ∃ operation, Ended (ownSteps record) world "a" 0 operation ∧ operation.progress.phase = .complete := by
  have hfacts : (ControlWorld.boot singleConfig emptyStore 0).any (fun start =>
      (drainClientSystem.follow (start, .requesting "a" false none) forcedDrainScript).any fun state =>
        decide (state.2 = .exited "a" (some 0) .safeToStop)) = true := by
    decide +kernel
  obtain ⟨start, hboot, hfacts⟩ := (Option.any_eq_true _ _).mp hfacts
  obtain ⟨⟨world, client⟩, hfollow, hclient⟩ := (Option.any_eq_true _ _).mp hfacts
  obtain rfl : client = _ := of_decide_eq_true hclient
  have hstart : Run drainClientSystem (Guards KeepsRunning) [] (start, .requesting "a" false none) :=
    .start ⟨⟨singleConfig, emptyStore, 0, hboot⟩, "a", false, none, rfl⟩
  have hrun := hstart.follow_unguarded _ hfollow (fun action hmem state => by
    cases action with
    | inr look => trivial
    | inl op =>
        intro config heq
        subst heq
        simp [forcedDrainScript] at hmem)
  obtain ⟨number, operation, hnumber, hended, hphase⟩ := (drain_client_tells_the_verdict _ _ _ hrun).1 "a" (some 0) rfl
  cases hnumber
  exact ⟨_, world, hrun, operation, hended, hphase⟩

end MistralrsProxy
