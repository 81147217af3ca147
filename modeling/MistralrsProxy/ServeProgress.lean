import MistralrsProxy.ServeShutdown

/-! The end of the process that serves does not depend on its clients. What is left to be done is counted; every step
but those of the clock and of accepting takes away from it, and as long as `run` has not returned the process has a step
of its own. -/

open Transition

namespace MistralrsProxy

def WorkerTask.remaining : WorkerTask → Nat
  | .running => 2
  | .aborted => 1
  | .ended _ => 0

def LogThread.remaining : LogThread → Nat
  | .running => 1
  | .ended _ => 0

def MainPhase.remaining : MainPhase → Nat
  | .selecting => 8
  | .awaiting servers workers _ => 3 + servers.length + workers.length
  | .stopping workers _ => 2 + workers.length
  | .joining _ _ => 1
  | .returned _ _ | .panicked => 0

theorem Stopped.length_servers_le (stopped : Stopped) : stopped.servers.length ≤ 2 ∧ stopped.workers.length ≤ 2 := by
  rcases stopped with _ | ⟨_ | _, _⟩ | ⟨_ | _, _⟩ | _ <;> simp [servers, workers]

def ServeOp.isTick : ServeOp → Bool
  | .tick _ => true
  | _ => false

namespace ServeWorld

variable {world next : ServeWorld} {op : ServeOp} {record : List (Step ServeWorld ServeOp)}

def tasksRemaining (world : ServeWorld) : Nat :=
  (world.servers .publicTask).remaining + (world.servers .controlTask).remaining +
    ((world.workers .telemetryTask).remaining + (world.workers .readinessTask).remaining) +
    (world.log.remaining + if world.logHealthy then 1 else 0)

/-- How many steps are left at most, when no more connections are accepted and time does not count. -/
def remaining (world : ServeWorld) : Nat := world.tasksRemaining + world.main.remaining

/-- The steps that are up to the process alone: those of the servers, of `run`, and the end of a worker that was
aborted. -/
def Owns (world : ServeWorld) : ServeOp → Prop
  | .server _ op => op.isOwn = true
  | .workerEnds name _ => world.workers name = .aborted
  | .advance => True
  | _ => False

theorem workers_update_remaining (workers : WorkerName → WorkerTask) (name : WorkerName) (task : WorkerTask) :
    (Function.update workers name task .telemetryTask).remaining +
        (Function.update workers name task .readinessTask).remaining + (workers name).remaining =
      (workers .telemetryTask).remaining + (workers .readinessTask).remaining + task.remaining := by
  cases name <;> simp <;> omega

theorem servers_update_remaining (servers : ServerName → Server) (name : ServerName) (server : Server) :
    (Function.update servers name server .publicTask).remaining +
        (Function.update servers name server .controlTask).remaining + (servers name).remaining =
      (servers .publicTask).remaining + (servers .controlTask).remaining + server.remaining := by
  cases name <;> simp <;> omega

theorem advance_remaining_lt (h : world.Advances next) : next.remaining < world.remaining := by
  cases h with
  | server name servers workers result answer hmain hanswer =>
      simp only [remaining, tasksRemaining, awaitServer, hmain, MainPhase.remaining, List.length_cons]
      omega
  | serversDone workers result hmain =>
      simp only [remaining, tasksRemaining, hmain, MainPhase.remaining, List.length_nil]
      omega
  | abort name workers result hmain hrunning =>
      have hsum := workers_update_remaining world.workers name .aborted
      have hone : WorkerTask.aborted.remaining = 1 := rfl
      have htwo : WorkerTask.running.remaining = 2 := rfl
      rw [hrunning, hone, htwo] at hsum
      simp only [remaining, tasksRemaining]
      omega
  | worker name workers result answer hmain hanswer =>
      simp only [remaining, tasksRemaining, awaitWorker, hmain, MainPhase.remaining, List.length_cons]
      omega
  | workersDone result hmain =>
      simp only [remaining, tasksRemaining, hmain, MainPhase.remaining, List.length_nil]
      omega
  | logged deadline result answer hmain | timedOut deadline result error hmain =>
      simp only [remaining, tasksRemaining, hmain, MainPhase.remaining]
      omega

/-- Every step but those of the clock and of accepting leaves less to be done. -/
theorem step_remaining_lt (hsound : world.MainSound) (h : world.step op = some next) (htick : op.isTick = false)
    (haccept : ∀ name, op ≠ .server name .accept) : next.remaining < world.remaining := by
  cases op with
  | tick => cases htick
  | server name serverOp =>
      obtain ⟨server, hsteps, rfl⟩ := server_step h
      have hlt := hsteps.remaining_lt (fun heq => haccept name (by rw [heq]))
      have hsum := servers_update_remaining world.servers name server
      simp only [remaining, tasksRemaining]
      omega
  | workerEnds name result =>
      simp only [step] at h
      split at h
      · cases h
      · rename_i hrunning
        cases h
        have hsum := workers_update_remaining world.workers name (.ended result)
        have hpos : 0 < (world.workers name).remaining := by
          cases hcase : world.workers name with
          | running | aborted => simp [WorkerTask.remaining]
          | ended answer => exact absurd hcase (hrunning answer)
        have hzero : (WorkerTask.ended result).remaining = 0 := rfl
        rw [hzero] at hsum
        simp only [remaining, tasksRemaining]
        omega
  | loseHealth =>
      obtain ⟨hhealthy, hnext⟩ := Option.ite_none_right_eq_some.mp h
      cases hnext
      simp [remaining, tasksRemaining, hhealthy]
  | logEnds result =>
      simp only [step] at h
      split at h
      · rename_i hrunning
        obtain ⟨-, hnext⟩ := Option.ite_none_left_eq_some.mp h
        cases hnext
        simp only [remaining, tasksRemaining, hrunning, LogThread.remaining, Bool.false_eq_true, if_false]
        omega
      · cases h
  | select branch =>
      obtain ⟨hselecting, hready⟩ := Option.ite_none_right_eq_some.mp h
      obtain ⟨stopped, -, rfl⟩ := Option.map_eq_some_iff.mp hready
      obtain ⟨hservers, hworkers⟩ := stopped.length_servers_le
      have hsame : (world.awaitStopped stopped).tasksRemaining = world.tasksRemaining := by cases stopped <;> rfl
      change (world.awaitStopped stopped).tasksRemaining + _ < _
      rw [hsame]
      simp only [remaining, hselecting, MainPhase.remaining]
      omega
  | advance => exact advance_remaining_lt (advance_advances hsound h)

/-- Only the steps of the servers change them, and the signal is not taken back. -/
theorem servers_of_step (hsound : world.MainSound) (h : world.step op = some next) :
    ((∀ name serverOp, op ≠ .server name serverOp) → next.servers = world.servers) ∧
      (world.shutdown = true → next.shutdown = true) := by
  cases op with
  | tick milliseconds =>
      cases h
      exact ⟨fun _ => rfl, id⟩
  | server name serverOp =>
      obtain ⟨server, -, rfl⟩ := server_step h
      exact ⟨fun hop => absurd rfl (hop name serverOp), id⟩
  | workerEnds name result =>
      simp only [step] at h
      split at h
      · cases h
      · cases h
        exact ⟨fun _ => rfl, id⟩
  | loseHealth =>
      obtain ⟨-, hnext⟩ := Option.ite_none_right_eq_some.mp h
      cases hnext
      exact ⟨fun _ => rfl, id⟩
  | logEnds result =>
      simp only [step] at h
      split at h
      · obtain ⟨-, hnext⟩ := Option.ite_none_left_eq_some.mp h
        cases hnext
        exact ⟨fun _ => rfl, id⟩
      · cases h
  | select branch =>
      obtain ⟨-, hready⟩ := Option.ite_none_right_eq_some.mp h
      obtain ⟨stopped, -, rfl⟩ := Option.map_eq_some_iff.mp hready
      exact ⟨fun _ => (world.awaitStopped_servers stopped).1, fun _ => rfl⟩
  | advance =>
      cases advance_advances hsound h with
      | server | serversDone | abort | worker | workersDone | logged | timedOut => exact ⟨fun _ => rfl, id⟩

theorem not_accepting_step (hsound : world.MainSound) (hphase : ∀ name, (world.servers name).phase ≠ .accepting)
    (h : world.step op = some next) :
    (∀ name, (next.servers name).phase ≠ .accepting) ∧ ∀ name, op ≠ .server name .accept := by
  by_cases hserver : ∃ name serverOp, op = .server name serverOp
  · obtain ⟨name, serverOp, rfl⟩ := hserver
    obtain ⟨server, hsteps, rfl⟩ := server_step h
    obtain ⟨hstill, hop⟩ := hsteps.not_accepting (hphase name)
    constructor
    · intro other
      by_cases heq : other = name
      · subst heq
        simpa using hstill
      · simpa [heq] using hphase other
    · intro other heq
      cases heq
      exact hop rfl
  · have hop : ∀ name serverOp, op ≠ .server name serverOp := fun name serverOp heq => hserver ⟨name, serverOp, heq⟩
    rw [(servers_of_step hsound h).1 hop]
    exact ⟨hphase, fun name => hop name .accept⟩

end ServeWorld

namespace ServeWorld

variable {world : ServeWorld}

/-- A step that is up to the process alone, after a while. -/
def Proceeds (world : ServeWorld) : Prop :=
  ∃ wait op, wait ≤ serverShutdownGrace ∧ world.Owns op ∧
    (({ world with now := world.now + wait } : ServeWorld).step op).isSome = true

theorem proceeds_server {record : List (Step ServeWorld ServeOp)} (h : Sound record world)
    (hshutdown : world.shutdown = true) (name : ServerName)
    (hphase : ∀ answer, (world.servers name).phase ≠ .ended answer) : world.Proceeds := by
  have hsound := h.servers name
  rw [hshutdown] at hsound
  obtain ⟨wait, op, server, hwait, hown, hstep⟩ := Server.progress name.text hsound (h.patient name) hphase
  refine ⟨wait, .server name op, hwait, hown, ?_⟩
  simp only [step, hshutdown, hstep, Option.map_some, Option.isSome_some]

/-- Once the servers are told to stop, the process has something to do on its own until `run` returns. -/
theorem proceeds_of_sound {record : List (Step ServeWorld ServeOp)} (h : Sound record world)
    (hshutdown : world.shutdown = true)
    (hmain : ∀ serveResult logResult, world.main ≠ .returned serveResult logResult) :
    world.Proceeds := by
  have hsound := h.main
  unfold MainSound at hsound
  cases hcase : world.main with
  | selecting =>
      rw [hcase] at hsound
      rw [hsound.1] at hshutdown
      cases hshutdown
  | awaiting servers workers result =>
      rw [hcase] at hsound
      cases servers with
      | nil =>
          refine ⟨0, .advance, Nat.zero_le _, trivial, ?_⟩
          simp only [step, advance, hcase, Option.isSome_some]
      | cons name rest =>
          cases hphase : (world.servers name).phase with
          | accepting | draining | aborting =>
              apply proceeds_server h hshutdown name
              rw [hphase]
              simp
          | ended answer =>
              have hfresh : world.serversAwaited name = false := by
                rw [← Bool.not_eq_true, hsound.serversAwaited]
                simp
              refine ⟨0, .advance, Nat.zero_le _, trivial, ?_⟩
              simp only [step, advance, hcase, hfresh, hphase]
              rfl
  | stopping workers result =>
      rw [hcase] at hsound
      cases workers with
      | nil =>
          refine ⟨0, .advance, Nat.zero_le _, trivial, ?_⟩
          simp only [step, advance, hcase, Option.isSome_some]
      | cons name rest =>
          cases htask : world.workers name with
          | running =>
              refine ⟨0, .advance, Nat.zero_le _, trivial, ?_⟩
              simp only [step, advance, hcase, htask, Option.isSome_some]
          | aborted =>
              refine ⟨0, .workerEnds name (.error "task was cancelled"), Nat.zero_le _, htask, ?_⟩
              simp only [step, htask, Option.isSome_some]
          | ended answer =>
              have hfresh : world.workersAwaited name = false := by
                rw [← Bool.not_eq_true, hsound.workersAwaited]
                simp
              refine ⟨0, .advance, Nat.zero_le _, trivial, ?_⟩
              simp only [step, advance, hcase, htask, hfresh]
              rfl
  | joining deadline result =>
      rw [hcase] at hsound
      have hdeadline : deadline ≤ world.now + auditShutdownGrace := hsound.2
      cases hlog : world.log with
      | ended answer =>
          refine ⟨0, .advance, Nat.zero_le _, trivial, ?_⟩
          simp only [step, advance, hcase, hlog, Option.isSome_some]
      | running =>
          refine ⟨auditShutdownGrace, .advance, by decide, trivial, ?_⟩
          simp only [step, advance, hcase, hlog, if_pos hdeadline, Option.isSome_some]
  | returned serveResult logResult => exact absurd hcase (hmain serveResult logResult)
  | panicked =>
      rw [hcase] at hsound
      exact hsound.elim

/-- From the moment that the servers accept no more, every step takes away from what is left. -/
theorem remaining_of_run {recent older : List (Step ServeWorld ServeOp)} {mark : Step ServeWorld ServeOp}
    (hrun : Run serveSystem Free (recent ++ mark :: older) world)
    (hphase : ∀ name, (mark.after.servers name).phase ≠ .accepting) :
    (∀ name, (world.servers name).phase ≠ .accepting) ∧
      (recent.filter fun step => !step.action.isTick).length + world.remaining ≤ mark.after.remaining := by
  induction recent generalizing world with
  | nil =>
      obtain ⟨rfl, -⟩ := hrun.cons_inv
      exact ⟨hphase, by simp⟩
  | cons last recent ih =>
      obtain ⟨rfl, hbefore, -, hstep⟩ := hrun.cons_inv
      obtain ⟨hstill, hle⟩ := ih hbefore
      obtain ⟨hnext, haccept⟩ := not_accepting_step (sound_of_run hbefore).main hstill hstep
      refine ⟨hnext, ?_⟩
      by_cases htick : last.action.isTick = true
      · rw [List.filter_cons_of_neg (by simp [htick])]
        have hsame : last.after.remaining = last.before.remaining := by
          cases haction : last.action with
          | tick milliseconds =>
              rw [haction] at hstep
              rw [← Option.some.inj hstep]
              rfl
          | server | workerEnds | loseHealth | logEnds | select | advance =>
              rw [haction] at htick
              cases htick
        omega
      · rw [List.filter_cons_of_pos (by simp [htick]), List.length_cons]
        have hlt := step_remaining_lt (sound_of_run hbefore).main hstep (Bool.eq_false_iff.mpr htick) haccept
        omega

theorem shutdown_of_run {recent older : List (Step ServeWorld ServeOp)} {mark : Step ServeWorld ServeOp}
    (hrun : Run serveSystem Free (recent ++ mark :: older) world) (hshutdown : mark.after.shutdown = true) :
    world.shutdown = true := by
  induction recent generalizing world with
  | nil =>
      obtain ⟨rfl, -⟩ := hrun.cons_inv
      exact hshutdown
  | cons last recent ih =>
      obtain ⟨rfl, hbefore, -, hstep⟩ := hrun.cons_inv
      exact (servers_of_step (sound_of_run hbefore).main hstep).2 (ih hbefore)

end ServeWorld

/-- No client can keep the process from ending. Once the servers are told to stop, the process itself always has a next
step, at the latest when the time of the connections is over; and once the servers have noticed, there are only so many
steps left, whatever the clients and the other tasks do. -/
theorem no_client_keeps_serve_running (recent older : List (Step ServeWorld ServeOp)) (mark : Step ServeWorld ServeOp)
    (world : ServeWorld) (hrun : Run serveSystem Free (recent ++ mark :: older) world)
    (hshutdown : mark.after.shutdown = true) :
    ((∀ serveResult logResult, world.main ≠ .returned serveResult logResult) → world.Proceeds) ∧
      ((∀ name, (mark.after.servers name).phase ≠ .accepting) →
        (recent.filter fun step => !step.action.isTick).length + world.remaining ≤ mark.after.remaining) := by
  exact ⟨ServeWorld.proceeds_of_sound (ServeWorld.sound_of_run hrun) (ServeWorld.shutdown_of_run hrun hshutdown),
    fun hphase => (ServeWorld.remaining_of_run hrun hphase).2⟩

/-- A client that never lets go of its connection: the servers have noticed the signal, and it is asked to end. -/
theorem no_client_keeps_serve_running_stubborn :
    ∃ recent older mark world, Run serveSystem Free (recent ++ mark :: older) world ∧ mark.after.shutdown = true ∧
      (world.servers .publicTask).connections = [.closing] ∧ world.Proceeds ∧
      (recent.filter fun step => !step.action.isTick).length + world.remaining ≤ mark.after.remaining := by
  have hfacts : (serveSystem.follow ServeWorld.start [.server .publicTask .accept, .select .signal,
      .server .controlTask .stopAccepting]).any (fun before =>
        (serveSystem.step before (.server .publicTask .stopAccepting)).any fun after =>
          decide (after.shutdown = true) && decide ((after.servers .publicTask).phase ≠ .accepting) &&
          decide ((after.servers .controlTask).phase ≠ .accepting) &&
            (serveSystem.follow after [.server .controlTask .finish, .server .publicTask (.close 0), .tick 5]).any
              fun world => decide ((world.servers .publicTask).connections = [.closing]) &&
                decide (world.main = .awaiting [.publicTask, .controlTask] [.telemetryTask, .readinessTask] (.ok ()))) =
      true := by decide +kernel
  obtain ⟨before, hbefore, hfacts⟩ := (Option.any_eq_true _ _).mp hfacts
  obtain ⟨after, hafter, hfacts⟩ := (Option.any_eq_true _ _).mp hfacts
  obtain ⟨hphases, hfacts⟩ := Bool.and_eq_true_iff.mp hfacts
  obtain ⟨hphases, hcontrol⟩ := Bool.and_eq_true_iff.mp hphases
  obtain ⟨hshutdown, hpublic⟩ := Bool.and_eq_true_iff.mp hphases
  obtain ⟨world, hworld, hfacts⟩ := (Option.any_eq_true _ _).mp hfacts
  obtain ⟨hconnections, hmain⟩ := Bool.and_eq_true_iff.mp hfacts
  have hstart : Run serveSystem Free [] ServeWorld.start := .start rfl
  have hbeforeRun := hstart.follow_unguarded _ hbefore (fun _ _ _ => trivial)
  have hmark := Run.step (.server .publicTask .stopAccepting) hbeforeRun trivial hafter
  have hrun := hmark.follow_unguarded _ hworld (fun _ _ _ => trivial)
  rw [System.recordOf_append] at hrun
  obtain ⟨hproceeds, hbound⟩ := no_client_keeps_serve_running _ _ _ world hrun (of_decide_eq_true hshutdown)
  refine ⟨_, _, _, world, hrun, of_decide_eq_true hshutdown, of_decide_eq_true hconnections, hproceeds ?_, hbound ?_⟩
  · intro serveResult logResult
    rw [of_decide_eq_true hmain]
    simp
  · intro name
    cases name with
    | publicTask => exact of_decide_eq_true hpublic
    | controlTask => exact of_decide_eq_true hcontrol

end MistralrsProxy
