import MistralrsProxy.ServeConnections
import MistralrsProxy.TransitionSystem
import Mathlib.Logic.Function.Basic

/-! The process that serves: two servers, two workers and the writer of the audit log run side by side until a signal
comes or one of them stops, and `run` then takes them down one after the other. What is proved of it: no handle is
awaited twice, the process ends without an error only after a signal and once everything has ended well, and connections
are aborted only after the time they are given or when something has failed. -/

open Transition

namespace MistralrsProxy

/-- How long `run` waits for the writer of the audit log. -/
def auditShutdownGrace : Nat := 5000

inductive ServerName where
  | publicTask
  | controlTask
  deriving DecidableEq

def ServerName.text : ServerName → String
  | .publicTask => "public"
  | .controlTask => "control"

inductive WorkerName where
  | telemetryTask
  | readinessTask
  deriving DecidableEq

def WorkerName.text : WorkerName → String
  | .telemetryTask => "telemetry"
  | .readinessTask => "readiness"

/-- What a handle yields: the answer of the task, or the text of the join error. -/
abbrev TaskResult := Except String (Except String Unit)

/-- A worker, which runs until it stops by itself or is aborted. -/
inductive WorkerTask where
  | running
  | aborted
  | ended (result : TaskResult)
  deriving DecidableEq

/-- The thread that writes the audit log; the error of a panic is told apart from no other. -/
inductive LogThread where
  | running
  | ended (result : Except String Unit)
  deriving DecidableEq

/-- Which branch of the `select!` of `run` came first. -/
inductive Stopped where
  | signal
  | server (name : ServerName) (result : TaskResult)
  | worker (name : WorkerName) (result : TaskResult)
  | logger
  deriving DecidableEq

def flattenServerResult : TaskResult → Except String Unit
  | .ok result => result
  | .error error => .error ("server task stopped unexpectedly: " ++ error)

def unexpectedWorkerStop (name : String) : TaskResult → Except String Unit
  | .ok (.ok ()) => .error (name ++ " worker stopped unexpectedly")
  | .ok (.error error) | .error error => .error (name ++ " worker failed: " ++ error)

/-- `Result::and`: the first error wins. -/
def andThen : Except String Unit → Except String Unit → Except String Unit
  | .ok (), next => next
  | .error error, _ => .error error

namespace Stopped

/-- The result to start with. -/
def result : Stopped → Except String Unit
  | .signal => .ok ()
  | .server _ result => flattenServerResult result
  | .worker name result => unexpectedWorkerStop name.text result
  | .logger => .error "audit log writer stopped; refusing to continue serving"

/-- The servers that are still to be awaited, in order. -/
def servers : Stopped → List ServerName
  | .server .publicTask _ => [.controlTask]
  | .server .controlTask _ => [.publicTask]
  | .signal | .worker _ _ | .logger => [.publicTask, .controlTask]

/-- The workers that are still to be stopped, in order. -/
def workers : Stopped → List WorkerName
  | .worker .telemetryTask _ => [.readinessTask]
  | .worker .readinessTask _ => [.telemetryTask]
  | .signal | .server _ _ | .logger => [.telemetryTask, .readinessTask]

end Stopped

/-- Where `run` is. -/
inductive MainPhase where
  | selecting
  | awaiting (servers : List ServerName) (workers : List WorkerName) (result : Except String Unit)
  | stopping (workers : List WorkerName) (result : Except String Unit)
  | joining (deadline : Nat) (result : Except String Unit)
  | returned (serveResult logResult : Except String Unit)
  /-- A handle was awaited that had been awaited before. -/
  | panicked
  deriving DecidableEq

structure ServeWorld where
  now : Nat
  shutdown : Bool
  servers : ServerName → Server
  workers : WorkerName → WorkerTask
  log : LogThread
  logHealthy : Bool
  serversAwaited : ServerName → Bool
  workersAwaited : WorkerName → Bool
  stopped : Option Stopped
  main : MainPhase

/-- What the `select!` sees. -/
inductive SelectBranch where
  | signal
  | server (name : ServerName)
  | worker (name : WorkerName)
  | logger
  deriving DecidableEq

inductive ServeOp where
  | tick (milliseconds : Nat)
  | server (name : ServerName) (op : ServerOp)
  | workerEnds (name : WorkerName) (result : TaskResult)
  /-- An event could not be sent. -/
  | loseHealth
  | logEnds (result : Except String Unit)
  | select (branch : SelectBranch)
  /-- `run` goes on behind the `select!`. -/
  | advance
  deriving DecidableEq

namespace ServeWorld

/-- The branch that is ready, with what it yields. -/
def ready (world : ServeWorld) : SelectBranch → Option Stopped
  | .signal => some .signal
  | .server name =>
      match (world.servers name).phase with
      | .ended result => some (.server name result)
      | _ => none
  | .worker name =>
      match world.workers name with
      | .ended result => some (.worker name result)
      | _ => none
  | .logger => if world.logHealthy then none else some .logger

/-- The public server or one of its connections is there to send events to the log. -/
def sending (world : ServeWorld) : Bool :=
  match (world.servers .publicTask).phase with
  | .ended _ => (world.servers .publicTask).connections.any fun connection =>
      connection.isOpen || decide (connection = .aborted)
  | _ => true

def awaitServer (name : ServerName) (world : ServeWorld) : ServeWorld :=
  { world with serversAwaited := Function.update world.serversAwaited name true }

def awaitWorker (name : WorkerName) (world : ServeWorld) : ServeWorld :=
  { world with workersAwaited := Function.update world.workersAwaited name true }

/-- The handles that the `select!` has awaited to their end. -/
def awaitStopped (world : ServeWorld) : Stopped → ServeWorld
  | .server name _ => world.awaitServer name
  | .worker name _ => world.awaitWorker name
  | .signal | .logger => world

/-- What `run` does behind the `select!`, one wait after the other. -/
def advance (world : ServeWorld) : Option ServeWorld :=
  match world.main with
  | .awaiting (name :: rest) workers result =>
      if world.serversAwaited name then some { world with main := .panicked }
      else
        match (world.servers name).phase with
        | .ended answer =>
            let result := andThen result (flattenServerResult answer)
            some { world.awaitServer name with main := .awaiting rest workers result }
        | _ => none
  | .awaiting [] workers result => some { world with main := .stopping workers result }
  | .stopping (name :: rest) result =>
      match world.workers name with
      | .running => some { world with workers := Function.update world.workers name .aborted }
      | .aborted => none
      | .ended _ =>
          if world.workersAwaited name then some { world with main := .panicked }
          else some { world.awaitWorker name with main := .stopping rest result }
  | .stopping [] result => some { world with main := .joining (world.now + auditShutdownGrace) result }
  | .joining deadline result =>
      match world.log with
      | .ended answer => some { world with main := .returned result answer }
      | .running =>
          if deadline ≤ world.now then
            let timeout := "audit writer exceeded the 5s shutdown grace and was detached"
            some { world with main := .returned result (.error timeout) }
          else none
  | _ => none

def step (world : ServeWorld) : ServeOp → Option ServeWorld
  | .tick milliseconds => some { world with now := world.now + milliseconds }
  | .server name op =>
      ((world.servers name).step name.text world.shutdown world.now op).map fun server =>
        { world with servers := Function.update world.servers name server }
  | .workerEnds name result =>
      match world.workers name with
      | .ended _ => none
      | _ => some { world with workers := Function.update world.workers name (.ended result) }
  | .loseHealth => if world.logHealthy then some { world with logHealthy := false } else none
  | .logEnds result =>
      match world.log with
      | .running =>
          if result = .ok () ∧ world.sending = true then none
          else some { world with log := .ended result, logHealthy := false }
      | .ended _ => none
  | .select branch =>
      if world.main = .selecting then
        (world.ready branch).map fun stopped =>
          { world.awaitStopped stopped with
            shutdown := true
            stopped := some stopped
            main := .awaiting stopped.servers stopped.workers stopped.result }
      else none
  | .advance => world.advance

/-- The result of `run`: that of the servers first, and then that of the log. -/
def exitResult (serveResult logResult : Except String Unit) : Except String Unit := andThen serveResult logResult

def start : ServeWorld where
  now := 0
  shutdown := false
  servers := fun _ => .empty
  workers := fun _ => .running
  log := .running
  logHealthy := true
  serversAwaited := fun _ => false
  workersAwaited := fun _ => false
  stopped := none
  main := .selecting

end ServeWorld

/-- A process of `serve` from the moment that its tasks are spawned. -/
def serveSystem : System ServeWorld ServeOp where
  initial := fun world => world = .start
  step := ServeWorld.step

theorem andThen_eq_ok {first next : Except String Unit} :
    andThen first next = .ok () ↔ first = .ok () ∧ next = .ok () := by
  cases first with
  | ok => simp [andThen]
  | error error => simp [andThen]

theorem flattenServerResult_eq_ok {result : TaskResult} :
    flattenServerResult result = .ok () ↔ result = .ok (.ok ()) := by
  cases result with
  | ok result => simp [flattenServerResult]
  | error error => simp [flattenServerResult]

theorem unexpectedWorkerStop_ne_ok (name : String) (result : TaskResult) :
    unexpectedWorkerStop name result ≠ .ok () := by
  rcases result with error | error | _ <;> simp [unexpectedWorkerStop]

namespace Stopped

variable {stopped : Stopped}

theorem notMem_servers {name : ServerName} : name ∉ stopped.servers ↔ ∃ answer, stopped = .server name answer := by
  cases stopped with
  | server other answer => cases other <;> cases name <;> simp [servers]
  | signal | worker | logger => cases name <;> simp [servers]

theorem notMem_workers {name : WorkerName} : name ∉ stopped.workers ↔ ∃ answer, stopped = .worker name answer := by
  cases stopped with
  | worker other answer => cases other <;> cases name <;> simp [workers]
  | signal | server | logger => cases name <;> simp [workers]

theorem nodup_servers (stopped : Stopped) : stopped.servers.Nodup := by
  cases stopped with
  | server name answer => cases name <;> simp [servers]
  | signal | worker | logger => simp [servers]

theorem nodup_workers (stopped : Stopped) : stopped.workers.Nodup := by
  cases stopped with
  | worker name answer => cases name <;> simp [workers]
  | signal | server | logger => simp [workers]

theorem result_eq_ok : stopped.result = .ok () ↔ stopped = .signal ∨ ∃ name, stopped = .server name (.ok (.ok ())) := by
  cases stopped with
  | signal => simp [result]
  | server name answer => simp [result, flattenServerResult_eq_ok]
  | worker name answer => simp [result, unexpectedWorkerStop_ne_ok]
  | logger => simp [result]

end Stopped

namespace ServeWorld

variable {world next : ServeWorld} {servers : List ServerName} {workers : List WorkerName}
variable {result : Except String Unit}

theorem sending_eq_false : world.sending = false ↔
    (∃ result, (world.servers .publicTask).phase = .ended result) ∧ (world.servers .publicTask).Quiet := by
  unfold sending
  cases hphase : (world.servers .publicTask).phase with
  | ended result => simp [Server.Quiet]
  | accepting | draining | aborting => simp

/-- What `run` knows on its way down, with these servers and workers still to be awaited. -/
structure Taken (world : ServeWorld) (servers : List ServerName) (workers : List WorkerName)
    (result : Except String Unit) : Prop where
  shutdown : world.shutdown = true
  serversAwaited : ∀ name, world.serversAwaited name = true ↔ name ∉ servers
  workersAwaited : ∀ name, world.workersAwaited name = true ↔ name ∉ workers
  serversNodup : servers.Nodup
  workersNodup : workers.Nodup
  serversEnded : ∀ name, name ∉ servers → ∃ answer, (world.servers name).phase = .ended answer
  workersEnded : ∀ name, name ∉ workers → ∃ answer, world.workers name = .ended answer
  result_eq : result = .ok () ↔ world.stopped = some .signal ∧
    ∀ name, name ∉ servers → (world.servers name).phase = .ended (.ok (.ok ()))

theorem Taken.move (h : world.Taken servers workers result) (main : MainPhase) :
    { world with main := main }.Taken servers workers result :=
  ⟨h.shutdown, h.serversAwaited, h.workersAwaited, h.serversNodup, h.workersNodup, h.serversEnded, h.workersEnded,
    h.result_eq⟩

theorem Taken.awaitServer {name : ServerName} {answer : TaskResult} (h : world.Taken (name :: servers) workers result)
    (hanswer : (world.servers name).phase = .ended answer) :
    (world.awaitServer name).Taken servers workers (andThen result (flattenServerResult answer)) := by
  have hfresh : name ∉ servers := (List.nodup_cons.mp h.serversNodup).1
  have hother : ∀ other, other ∉ servers ↔ other = name ∨ other ∉ name :: servers := by
    intro other
    by_cases heq : other = name
    · simp [heq, hfresh]
    · simp [heq]
  refine ⟨h.shutdown, ?_, h.workersAwaited, (List.nodup_cons.mp h.serversNodup).2, h.workersNodup, ?_,
    h.workersEnded, ?_⟩
  · intro other
    by_cases heq : other = name
    · subst heq
      simp [ServeWorld.awaitServer, hfresh]
    · have hbefore := h.serversAwaited other
      simpa [ServeWorld.awaitServer, heq] using hbefore
  · intro other hmem
    rcases (hother other).mp hmem with rfl | hmem
    · exact ⟨answer, hanswer⟩
    · exact h.serversEnded other hmem
  · rw [andThen_eq_ok, flattenServerResult_eq_ok, h.result_eq, and_assoc]
    apply and_congr_right
    intro _
    constructor
    · rintro ⟨hothers, rfl⟩ other hmem
      rcases (hother other).mp hmem with rfl | hmem
      · exact hanswer
      · exact hothers other hmem
    · intro hall
      refine ⟨fun other hmem => hall other ((hother other).mpr (.inr hmem)), ?_⟩
      have hsame := hanswer.symm.trans (hall name hfresh)
      exact ServerPhase.ended.inj hsame

theorem Taken.awaitWorker {name : WorkerName} {answer : TaskResult} (h : world.Taken servers (name :: workers) result)
    (hanswer : world.workers name = .ended answer) : (world.awaitWorker name).Taken servers workers result := by
  have hfresh : name ∉ workers := (List.nodup_cons.mp h.workersNodup).1
  refine ⟨h.shutdown, h.serversAwaited, ?_, h.serversNodup, (List.nodup_cons.mp h.workersNodup).2, h.serversEnded, ?_,
    h.result_eq⟩
  · intro other
    by_cases heq : other = name
    · subst heq
      simp [ServeWorld.awaitWorker, hfresh]
    · have hbefore := h.workersAwaited other
      simpa [ServeWorld.awaitWorker, heq] using hbefore
  · intro other hmem
    by_cases heq : other = name
    · subst heq
      exact ⟨answer, hanswer⟩
    · exact h.workersEnded other (by simp [heq, hmem])

/-- What holds of the world for the place where `run` is. -/
def MainSound (world : ServeWorld) : Prop :=
  match world.main with
  | .selecting => world.shutdown = false ∧ (∀ name, world.serversAwaited name = false) ∧
      ∀ name, world.workersAwaited name = false
  | .awaiting servers workers result => world.Taken servers workers result
  | .stopping workers result => world.Taken [] workers result
  | .joining deadline result => world.Taken [] [] result ∧ deadline ≤ world.now + auditShutdownGrace
  | .returned serveResult logResult => world.Taken [] [] serveResult ∧
    (logResult = .ok () → world.log = .ended (.ok ()))
  | .panicked => False

/-- What the steps of other tasks leave to `run`. -/
structure Leaves (world next : ServeWorld) : Prop where
  main : next.main = world.main
  shutdown : next.shutdown = world.shutdown
  serversAwaited : next.serversAwaited = world.serversAwaited
  workersAwaited : next.workersAwaited = world.workersAwaited
  stopped : next.stopped = world.stopped
  now : world.now ≤ next.now
  servers : ∀ name result, (world.servers name).phase = .ended result → (next.servers name).phase = .ended result
  workers : ∀ name result, world.workers name = .ended result → next.workers name = .ended result
  log : ∀ result, world.log = .ended result → next.log = .ended result

theorem Leaves.taken (h : Leaves world next) (htaken : world.Taken servers workers result) :
    next.Taken servers workers result := by
  refine ⟨h.shutdown.trans htaken.shutdown, ?_, ?_, htaken.serversNodup, htaken.workersNodup, ?_, ?_, ?_⟩
  · rw [h.serversAwaited]
    exact htaken.serversAwaited
  · rw [h.workersAwaited]
    exact htaken.workersAwaited
  · intro name hmem
    obtain ⟨answer, hanswer⟩ := htaken.serversEnded name hmem
    exact ⟨answer, h.servers name answer hanswer⟩
  · intro name hmem
    obtain ⟨answer, hanswer⟩ := htaken.workersEnded name hmem
    exact ⟨answer, h.workers name answer hanswer⟩
  · rw [htaken.result_eq, h.stopped]
    apply and_congr_right
    intro _
    apply forall₂_congr
    intro name hmem
    obtain ⟨answer, hanswer⟩ := htaken.serversEnded name hmem
    rw [hanswer, h.servers name answer hanswer]

theorem Leaves.mainSound (h : Leaves world next) (hmain : world.MainSound) : next.MainSound := by
  unfold MainSound at hmain ⊢
  rw [h.main]
  cases hcase : world.main with
  | selecting =>
      rw [hcase] at hmain
      simp only at hmain ⊢
      rw [h.shutdown, h.serversAwaited, h.workersAwaited]
      exact hmain
  | awaiting | stopping =>
      rw [hcase] at hmain
      exact h.taken hmain
  | joining deadline result =>
      rw [hcase] at hmain
      have hnow := h.now
      exact ⟨h.taken hmain.1, Nat.le_trans hmain.2 (by omega)⟩
  | returned serveResult logResult =>
      rw [hcase] at hmain
      exact ⟨h.taken hmain.1, fun hok => h.log _ (hmain.2 hok)⟩
  | panicked =>
      rw [hcase] at hmain
      exact hmain

end ServeWorld

/-- The steps of `run` itself. -/
def ServeOp.isMain : ServeOp → Bool
  | .select _ | .advance => true
  | _ => false

namespace ServeWorld

variable {world next : ServeWorld} {op : ServeOp}

theorem server_step {name : ServerName} {serverOp : ServerOp} (h : world.step (.server name serverOp) = some next) :
    ∃ server, Server.Steps world.shutdown world.now (world.servers name) serverOp server ∧
      next = { world with servers := Function.update world.servers name server } := by
  obtain ⟨server, hserver, rfl⟩ := Option.map_eq_some_iff.mp h
  exact ⟨server, Server.step_steps hserver, rfl⟩

theorem leaves_of_step (hop : op.isMain = false) (h : world.step op = some next) : world.Leaves next := by
  cases op with
  | tick milliseconds =>
      cases h
      exact ⟨rfl, rfl, rfl, rfl, rfl, Nat.le_add_right _ _, fun _ _ h => h, fun _ _ h => h, fun _ h => h⟩
  | server name serverOp =>
      obtain ⟨server, hsteps, rfl⟩ := server_step h
      refine ⟨rfl, rfl, rfl, rfl, rfl, Nat.le_refl _, ?_, fun _ _ h => h, fun _ h => h⟩
      intro other result hresult
      by_cases heq : other = name
      · subst heq
        simpa using hsteps.ended hresult
      · simpa [heq] using hresult
  | workerEnds name result =>
      simp only [step] at h
      split at h
      · cases h
      · rename_i hrunning
        cases h
        refine ⟨rfl, rfl, rfl, rfl, rfl, Nat.le_refl _, fun _ _ h => h, ?_, fun _ h => h⟩
        intro other answer hanswer
        by_cases heq : other = name
        · exact absurd (heq ▸ hanswer) (hrunning answer)
        · simpa [heq] using hanswer
  | loseHealth =>
      obtain ⟨-, hnext⟩ := Option.ite_none_right_eq_some.mp h
      cases hnext
      exact ⟨rfl, rfl, rfl, rfl, rfl, Nat.le_refl _, fun _ _ h => h, fun _ _ h => h, fun _ h => h⟩
  | logEnds result =>
      simp only [step] at h
      split at h
      · rename_i hrunning
        obtain ⟨-, hnext⟩ := Option.ite_none_left_eq_some.mp h
        cases hnext
        refine ⟨rfl, rfl, rfl, rfl, rfl, Nat.le_refl _, fun _ _ h => h, fun _ _ h => h, ?_⟩
        intro answer hanswer
        rw [hrunning] at hanswer
        cases hanswer
      · cases h
  | select | advance => cases hop

theorem ready_some {branch : SelectBranch} {stopped : Stopped} (h : world.ready branch = some stopped) :
    (∀ name answer, stopped = .server name answer → (world.servers name).phase = .ended answer) ∧
      ∀ name answer, stopped = .worker name answer → world.workers name = .ended answer := by
  cases branch with
  | signal =>
      cases h
      exact ⟨by simp, by simp⟩
  | server name =>
      simp only [ready] at h
      split at h
      · rename_i answer hphase
        cases h
        refine ⟨?_, by simp⟩
        intro other result heq
        cases heq
        exact hphase
      · cases h
  | worker name =>
      simp only [ready] at h
      split at h
      · rename_i answer hended
        cases h
        refine ⟨by simp, ?_⟩
        intro other result heq
        cases heq
        exact hended
      · cases h
  | logger =>
      simp only [ready] at h
      split at h
      · cases h
      · cases h
        exact ⟨by simp, by simp⟩

theorem awaitStopped_servers (world : ServeWorld) (stopped : Stopped) :
    (world.awaitStopped stopped).servers = world.servers ∧ (world.awaitStopped stopped).workers = world.workers := by
  cases stopped <;> exact ⟨rfl, rfl⟩

theorem awaitStopped_serversAwaited (h : ∀ name, world.serversAwaited name = false) (stopped : Stopped)
    (name : ServerName) : (world.awaitStopped stopped).serversAwaited name = true ↔ name ∉ stopped.servers := by
  rw [Stopped.notMem_servers]
  cases stopped with
  | server other answer => simp [awaitStopped, awaitServer, Function.update_apply, h, eq_comm]
  | signal | worker | logger => simp [awaitStopped, awaitWorker, h]

theorem awaitStopped_workersAwaited (h : ∀ name, world.workersAwaited name = false) (stopped : Stopped)
    (name : WorkerName) : (world.awaitStopped stopped).workersAwaited name = true ↔ name ∉ stopped.workers := by
  rw [Stopped.notMem_workers]
  cases stopped with
  | worker other answer => simp [awaitStopped, awaitWorker, Function.update_apply, h, eq_comm]
  | signal | server | logger => simp [awaitStopped, awaitServer, h]

theorem mainSound_select {branch : SelectBranch} (hmain : world.MainSound)
    (hsound : ∀ name, (world.servers name).Sound world.shutdown) (h : world.step (.select branch) = some next) :
    next.MainSound := by
  obtain ⟨hselecting, hready⟩ := Option.ite_none_right_eq_some.mp h
  obtain ⟨stopped, hstopped, rfl⟩ := Option.map_eq_some_iff.mp hready
  unfold MainSound at hmain
  rw [hselecting] at hmain
  obtain ⟨hshutdown, hservers, hworkers⟩ := hmain
  obtain ⟨hserver, hworker⟩ := ready_some hstopped
  obtain ⟨hsameServers, hsameWorkers⟩ := world.awaitStopped_servers stopped
  refine ⟨rfl, awaitStopped_serversAwaited hservers stopped, awaitStopped_workersAwaited hworkers stopped,
    stopped.nodup_servers, stopped.nodup_workers, ?_, ?_, ?_⟩
  · intro name hmem
    obtain ⟨answer, heq⟩ := Stopped.notMem_servers.mp hmem
    refine ⟨answer, ?_⟩
    change ((world.awaitStopped stopped).servers name).phase = _
    rw [hsameServers]
    exact hserver name answer heq
  · intro name hmem
    obtain ⟨answer, heq⟩ := Stopped.notMem_workers.mp hmem
    refine ⟨answer, ?_⟩
    change (world.awaitStopped stopped).workers name = _
    rw [hsameWorkers]
    exact hworker name answer heq
  · constructor
    · intro hok
      rcases Stopped.result_eq_ok.mp hok with rfl | ⟨name, rfl⟩
      · refine ⟨rfl, ?_⟩
        intro name hmem
        obtain ⟨answer, heq⟩ := Stopped.notMem_servers.mp hmem
        cases heq
      · -- before the signal no server ends well
        have hsignal := (((hsound name).ended _ (hserver name _ rfl)).2 _ rfl).2 rfl
        rw [hshutdown] at hsignal
        cases hsignal
    · rintro ⟨hsignal, -⟩
      cases hsignal
      rfl

/-- What `run` does behind the `select!`, as long as no handle has been awaited before. -/
inductive Advances (world : ServeWorld) : ServeWorld → Prop
  | server (name : ServerName) (servers : List ServerName) (workers : List WorkerName) (result : Except String Unit)
      (answer : TaskResult) (hmain : world.main = .awaiting (name :: servers) workers result)
      (hanswer : (world.servers name).phase = .ended answer) :
      Advances world { world.awaitServer name with
        main := .awaiting servers workers (andThen result (flattenServerResult answer)) }
  | serversDone (workers : List WorkerName) (result : Except String Unit)
      (hmain : world.main = .awaiting [] workers result) :
      Advances world { world with main := .stopping workers result }
  | abort (name : WorkerName) (workers : List WorkerName) (result : Except String Unit)
      (hmain : world.main = .stopping (name :: workers) result) (hrunning : world.workers name = .running) :
      Advances world { world with workers := Function.update world.workers name .aborted }
  | worker (name : WorkerName) (workers : List WorkerName) (result : Except String Unit) (answer : TaskResult)
      (hmain : world.main = .stopping (name :: workers) result) (hanswer : world.workers name = .ended answer) :
      Advances world { world.awaitWorker name with main := .stopping workers result }
  | workersDone (result : Except String Unit) (hmain : world.main = .stopping [] result) :
      Advances world { world with main := .joining (world.now + auditShutdownGrace) result }
  | logged (deadline : Nat) (result answer : Except String Unit) (hmain : world.main = .joining deadline result)
      (hanswer : world.log = .ended answer) : Advances world { world with main := .returned result answer }
  | timedOut (deadline : Nat) (result : Except String Unit) (error : String)
      (hmain : world.main = .joining deadline result) :
      Advances world { world with main := .returned result (.error error) }

theorem advance_advances (hsound : world.MainSound) (h : world.advance = some next) : world.Advances next := by
  unfold MainSound at hsound
  unfold advance at h
  split at h
  · rename_i name rest workers result hmain
    rw [hmain] at hsound
    have hfresh : world.serversAwaited name = false := by
      rw [← Bool.not_eq_true, hsound.serversAwaited]
      simp
    rw [hfresh] at h
    split at h
    · rename_i hcontra
      cases hcontra
    · split at h
      · rename_i answer hanswer
        cases h
        exact .server name rest workers result answer hmain hanswer
      · cases h
  · rename_i workers result hmain
    cases h
    exact .serversDone workers result hmain
  · rename_i name rest result hmain
    rw [hmain] at hsound
    have hfresh : world.workersAwaited name = false := by
      rw [← Bool.not_eq_true, hsound.workersAwaited]
      simp
    split at h
    · rename_i hrunning
      cases h
      exact .abort name rest result hmain hrunning
    · cases h
    · rename_i answer hanswer
      rw [hfresh] at h
      cases h
      exact .worker name rest result answer hmain hanswer
  · rename_i result hmain
    cases h
    exact .workersDone result hmain
  · rename_i deadline result hmain
    split at h
    · rename_i answer hanswer
      cases h
      exact .logged deadline result answer hmain hanswer
    · obtain ⟨-, hnext⟩ := Option.ite_none_right_eq_some.mp h
      cases hnext
      exact .timedOut deadline result _ hmain
  · cases h

end ServeWorld

namespace ServeWorld

variable {world next : ServeWorld} {op : ServeOp} {record : List (Step ServeWorld ServeOp)}

theorem mainSound_advance (h : world.Advances next) (hsound : world.MainSound) : next.MainSound := by
  unfold MainSound at hsound
  cases h with
  | server name servers workers result answer hmain hanswer =>
      rw [hmain] at hsound
      exact (Taken.awaitServer hsound hanswer).move _
  | serversDone workers result hmain =>
      rw [hmain] at hsound
      exact Taken.move hsound _
  | abort name workers result hmain hrunning =>
      rw [hmain] at hsound
      have hleaves : world.Leaves { world with workers := Function.update world.workers name .aborted } := by
        refine ⟨rfl, rfl, rfl, rfl, rfl, Nat.le_refl _, fun _ _ h => h, ?_, fun _ h => h⟩
        intro other answer hanswer
        have hne : other ≠ name := by
          rintro rfl
          rw [hrunning] at hanswer
          cases hanswer
        simpa [hne] using hanswer
      apply hleaves.mainSound
      unfold MainSound
      rw [hmain]
      exact hsound
  | worker name workers result answer hmain hanswer =>
      rw [hmain] at hsound
      exact (Taken.awaitWorker hsound hanswer).move _
  | workersDone result hmain =>
      rw [hmain] at hsound
      exact ⟨Taken.move hsound _, Nat.le_refl _⟩
  | logged deadline result answer hmain hanswer =>
      rw [hmain] at hsound
      refine ⟨hsound.1.move _, ?_⟩
      rintro rfl
      exact hanswer
  | timedOut deadline result error hmain =>
      rw [hmain] at hsound
      exact ⟨hsound.1.move _, by simp⟩

/-- The servers were told to stop at this moment. -/
def ToldToStop (record : List (Step ServeWorld ServeOp)) (moment : Nat) : Prop :=
  ∃ step ∈ record, (∃ branch, step.action = .select branch) ∧ step.before.now = moment

theorem ToldToStop.cons {moment : Nat} (h : ToldToStop record moment) (step : Step ServeWorld ServeOp) :
    ToldToStop (step :: record) moment := by
  obtain ⟨older, hmem, hstep⟩ := h
  exact ⟨older, List.mem_cons_of_mem _ hmem, hstep⟩

structure Sound (record : List (Step ServeWorld ServeOp)) (world : ServeWorld) : Prop where
  servers : ∀ name, (world.servers name).Sound world.shutdown
  patient : ∀ name, (world.servers name).Patient (ToldToStop record) world.now
  told : world.shutdown = true → ∃ moment, ToldToStop record moment ∧ moment ≤ world.now
  main : world.MainSound
  logged : world.log = .ended (.ok ()) → world.sending = false

theorem sound_start : Sound [] start :=
  ⟨fun _ => Server.sound_empty _, fun _ => Server.patient_empty _ _, by simp [start], ⟨rfl, fun _ => rfl, fun _ => rfl⟩,
    by simp [start]⟩

/-- The fields that the servers and the log are in are those of before, but for the time and the signal. -/
theorem Sound.keep (h : Sound record world) (step : Step ServeWorld ServeOp) (hservers : next.servers = world.servers)
    (hlog : next.log = world.log) (hshutdown : next.shutdown = world.shutdown) (hnow : world.now ≤ next.now)
    (hmain : next.MainSound) : Sound (step :: record) next := by
  refine ⟨?_, ?_, ?_, hmain, ?_⟩
  · rw [hservers, hshutdown]
    exact h.servers
  · intro name
    rw [hservers]
    exact (h.patient name).later (fun _ htold => htold.cons step) hnow
  · intro hsignal
    rw [hshutdown] at hsignal
    obtain ⟨moment, htold, hle⟩ := h.told hsignal
    exact ⟨moment, htold.cons step, Nat.le_trans hle hnow⟩
  · unfold sending
    rw [hlog, hservers]
    exact h.logged

theorem sound_server {name : ServerName} {serverOp : ServerOp} (h : Sound record world)
    (hstep : world.step (.server name serverOp) = some next) (hmain : next.MainSound)
    (step : Step ServeWorld ServeOp) : Sound (step :: record) next := by
  obtain ⟨server, hsteps, rfl⟩ := server_step hstep
  have htold : world.shutdown = true → ∃ moment, ToldToStop record moment ∧ moment ≤ world.now := h.told
  refine ⟨?_, ?_, ?_, hmain, ?_⟩
  · intro other
    by_cases heq : other = name
    · subst heq
      simpa using Server.sound_step (h.servers other) hsteps
    · simpa [heq] using h.servers other
  · intro other
    by_cases heq : other = name
    · subst heq
      have hpatient := Server.patient_step (h.patient other) htold hsteps
      simpa using hpatient.later (fun _ hmoment => ToldToStop.cons hmoment step) (Nat.le_refl _)
    · simpa [heq] using (h.patient other).later (fun _ hmoment => ToldToStop.cons hmoment step) (Nat.le_refl _)
  · intro hsignal
    obtain ⟨moment, hmoment, hle⟩ := htold hsignal
    exact ⟨moment, hmoment.cons step, hle⟩
  · intro hlog
    obtain ⟨⟨result, hphase⟩, hquiet⟩ := sending_eq_false.mp (h.logged hlog)
    rw [sending_eq_false]
    by_cases heq : ServerName.publicTask = name
    · subst heq
      simp only [Function.update_self]
      exact ⟨⟨result, hsteps.ended hphase⟩, hsteps.quiet hphase hquiet⟩
    · simp only [Function.update_of_ne heq]
      exact ⟨⟨result, hphase⟩, hquiet⟩

theorem sound_step (h : Sound record world) (hstep : world.step op = some next) :
    Sound (⟨world, op, next⟩ :: record) next := by
  cases op with
  | tick milliseconds =>
      have hmain := (leaves_of_step rfl hstep).mainSound h.main
      cases hstep
      exact h.keep _ rfl rfl rfl (Nat.le_add_right _ _) hmain
  | server name serverOp => exact sound_server h hstep ((leaves_of_step rfl hstep).mainSound h.main) _
  | workerEnds name result =>
      have hmain := (leaves_of_step rfl hstep).mainSound h.main
      simp only [step] at hstep
      split at hstep
      · cases hstep
      · cases hstep
        exact h.keep _ rfl rfl rfl (Nat.le_refl _) hmain
  | loseHealth =>
      have hmain := (leaves_of_step rfl hstep).mainSound h.main
      obtain ⟨-, hnext⟩ := Option.ite_none_right_eq_some.mp hstep
      cases hnext
      exact h.keep _ rfl rfl rfl (Nat.le_refl _) hmain
  | logEnds result =>
      have hmain := (leaves_of_step rfl hstep).mainSound h.main
      simp only [step] at hstep
      split at hstep
      · obtain ⟨hquiet, hnext⟩ := Option.ite_none_left_eq_some.mp hstep
        cases hnext
        refine ⟨h.servers, fun name => (h.patient name).later (fun _ htold => htold.cons _) (Nat.le_refl _), ?_,
          hmain, ?_⟩
        · intro hsignal
          obtain ⟨moment, htold, hle⟩ := h.told hsignal
          exact ⟨moment, htold.cons _, hle⟩
        · intro hlog
          have hresult : result = .ok () := LogThread.ended.inj hlog
          exact Bool.eq_false_iff.mpr (fun hsending => hquiet ⟨hresult, hsending⟩)
      · cases hstep
  | select branch =>
      have hmain := mainSound_select h.main h.servers hstep
      obtain ⟨hselecting, hready⟩ := Option.ite_none_right_eq_some.mp hstep
      obtain ⟨stopped, hstopped, rfl⟩ := Option.map_eq_some_iff.mp hready
      obtain ⟨hsame, -⟩ := world.awaitStopped_servers stopped
      have hnow : (world.awaitStopped stopped).now = world.now := by cases stopped <;> rfl
      have hlog : (world.awaitStopped stopped).log = world.log := by cases stopped <;> rfl
      refine ⟨?_, ?_, ?_, hmain, ?_⟩
      · intro name
        change ((world.awaitStopped stopped).servers name).Sound true
        rw [hsame]
        exact (h.servers name).shutDown
      · intro name
        change ((world.awaitStopped stopped).servers name).Patient _ (world.awaitStopped stopped).now
        rw [hsame, hnow]
        exact (h.patient name).later (fun _ htold => htold.cons _) (Nat.le_refl _)
      · intro _
        exact ⟨world.now, ⟨_, List.mem_cons_self, ⟨branch, rfl⟩, rfl⟩, by simp [hnow]⟩
      · intro hended
        change (world.awaitStopped stopped).log = _ at hended
        rw [hlog] at hended
        have hquiet := h.logged hended
        unfold sending at hquiet ⊢
        simpa only [hsame] using hquiet
  | advance =>
      have hadvances := advance_advances h.main hstep
      have hmain := mainSound_advance hadvances h.main
      cases hadvances with
      | server | serversDone | abort | worker | workersDone | logged | timedOut =>
          exact h.keep _ rfl rfl rfl (Nat.le_refl _) hmain

theorem sound_of_run (hrun : Run serveSystem Free record world) : Sound record world := by
  refine hrun.induct ?_ (fun _ _ _ _ _ h _ hstep => sound_step h hstep)
  rintro world rfl
  exact sound_start

end ServeWorld

/-- However the tasks interleave and whichever of them fails, no handle is awaited twice; a connection is aborted only
if its server fails or the time that the connections are given since the stop is over; and none is asked to end, and no
server ends well, before the stop. When `run` returns, no connection is open, the servers that did not panic have joined
all of theirs, and the workers have ended. The process succeeds if and only if a signal stopped it, both servers ended
well and the log was written; and then it was written to its end when nothing was left that could send to it. -/
theorem serve_ends_in_order (record : List (Step ServeWorld ServeOp)) (world : ServeWorld)
    (hrun : Run serveSystem Free record world) :
    world.main ≠ .panicked ∧
      (∀ name, .aborted ∈ (world.servers name).connections → (world.servers name).Failed ∨
        ∃ moment, ServeWorld.ToldToStop record moment ∧ moment + serverShutdownGrace ≤ world.now) ∧
      (world.shutdown = false → ∀ name, .closing ∉ (world.servers name).connections ∧
        (world.servers name).phase ≠ .ended (.ok (.ok ()))) ∧
      ∀ serveResult logResult, world.main = .returned serveResult logResult →
        (∀ name, ∃ answer, (world.servers name).phase = .ended answer ∧
          (∀ connection ∈ (world.servers name).connections, connection.isOpen = false) ∧
          ∀ result, answer = .ok result → (world.servers name).drained = true) ∧
        (∀ name, ∃ answer, world.workers name = .ended answer) ∧
        (ServeWorld.exitResult serveResult logResult = .ok () ↔ world.stopped = some .signal ∧
          (∀ name, (world.servers name).phase = .ended (.ok (.ok ()))) ∧ logResult = .ok ()) ∧
        (logResult = .ok () → world.log = .ended (.ok ()) ∧ world.sending = false) := by
  have h := ServeWorld.sound_of_run hrun
  have hmain := h.main
  unfold ServeWorld.MainSound at hmain
  refine ⟨?_, fun name => (h.patient name).aborted, ?_, ?_⟩
  · intro hpanicked
    rw [hpanicked] at hmain
    exact hmain
  · intro hshutdown name
    constructor
    · intro hmem
      rw [(h.servers name).closing hmem] at hshutdown
      cases hshutdown
    · intro hended
      rw [(((h.servers name).ended _ hended).2 _ rfl).2 rfl] at hshutdown
      cases hshutdown
  · intro serveResult logResult hreturned
    rw [hreturned] at hmain
    obtain ⟨htaken, hlog⟩ := hmain
    refine ⟨?_, fun name => htaken.workersEnded name List.not_mem_nil, ?_, fun hok => ⟨hlog hok, h.logged (hlog hok)⟩⟩
    · intro name
      obtain ⟨answer, hanswer⟩ := htaken.serversEnded name List.not_mem_nil
      obtain ⟨hclosed, hdrained⟩ := (h.servers name).ended answer hanswer
      exact ⟨answer, hanswer, hclosed, fun result heq => (hdrained result heq).1⟩
    · rw [ServeWorld.exitResult, andThen_eq_ok, htaken.result_eq, and_assoc]
      simp

/-- A signal comes while a client keeps its connection open for longer than it is given. -/
def signalScript : List ServeOp :=
  [.server .publicTask .accept, .tick 7, .select .signal, .server .publicTask .stopAccepting,
    .server .publicTask (.close 0), .server .controlTask .stopAccepting, .server .controlTask .finish, .tick 30000,
    .server .publicTask .graceElapses, .server .publicTask (.cancel 0), .server .publicTask (.joinNext 0),
    .server .publicTask .finish, .advance, .advance, .advance, .advance,
    .workerEnds .telemetryTask (.error "task was cancelled"), .advance, .advance,
    .workerEnds .readinessTask (.error "task was cancelled"), .advance, .advance, .logEnds (.ok ()), .advance]

theorem serve_ends_in_order_signal :
    ∃ record world, Run serveSystem Free record world ∧ world.main = .returned (.ok ()) (.ok ()) ∧
      world.stopped = some .signal ∧ world.log = .ended (.ok ()) ∧ world.sending = false ∧
      (world.servers .publicTask).connections = [.joined (.error "task was cancelled")] ∧
      (world.servers .publicTask).drained = true := by
  have hfacts : (serveSystem.follow ServeWorld.start signalScript).any (fun world =>
      decide (world.main = .returned (.ok ()) (.ok ())) && decide ((world.servers .publicTask).connections =
        [.joined (.error "task was cancelled")])) = true := by decide +kernel
  obtain ⟨world, hworld, hfacts⟩ := (Option.any_eq_true _ _).mp hfacts
  obtain ⟨hreturned, hconnections⟩ := Bool.and_eq_true_iff.mp hfacts
  have hreturned : world.main = .returned (.ok ()) (.ok ()) := of_decide_eq_true hreturned
  have hstart : Run serveSystem Free [] ServeWorld.start := .start rfl
  have hrun := hstart.follow_unguarded signalScript hworld (fun _ _ _ => trivial)
  obtain ⟨-, -, -, hends⟩ := serve_ends_in_order _ world hrun
  obtain ⟨hservers, -, hexit, hlog⟩ := hends _ _ hreturned
  obtain ⟨hstopped, hall, -⟩ := hexit.mp rfl
  obtain ⟨answer, hanswer, -, hdrained⟩ := hservers .publicTask
  rw [hall .publicTask] at hanswer
  exact ⟨_, world, hrun, hreturned, hstopped, (hlog rfl).1, (hlog rfl).2, of_decide_eq_true hconnections,
    hdrained _ (ServerPhase.ended.inj hanswer).symm⟩

end MistralrsProxy
