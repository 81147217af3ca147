import MistralrsProxy.TransitionSystem
import MistralrsProxy.BackendState
import MistralrsProxy.RoutingSelect
import MistralrsProxy.RoutingFailures

/-! The control plane and everything that runs beside it. Commands hold the lifecycle lock and go on step
by step; one selection at a time, any number of requests, drain tasks, scrapes and readiness probes run in
between. Reading the status of a backend is one step. -/

open Transition

namespace MistralrsProxy

/-- What the control plane reads of a backend. -/
structure BackendStatusSnapshot where
  mode : BackendMode
  readiness : ReadinessState
  telemetry : TelemetryState
  proxyActive : Nat
  running : Option Nat
  waiting : Option Nat
  metricsScrapesStarted : Nat
  metricsObservationSerial : Nat
  engineIdleStreak : Nat
  deriving DecidableEq, Repr

def LiveBackend.telemetry (now staleAfter : Nat) (live : LiveBackend) : TelemetryState :=
  match live.metrics with
  | some observation => if now - observation.observedAt ≤ staleAfter then .fresh else .stale
  | none => .unavailable

def statusSnapshot (snapshot : BackendSnapshot) (live : LiveBackend) (now staleAfter : Nat) :
    BackendStatusSnapshot where
  mode := snapshot.mode
  readiness := live.readiness
  telemetry := live.telemetry now staleAfter
  proxyActive := snapshot.localActive
  running := live.metrics.map (·.metrics.sequencesRunning)
  waiting := live.metrics.map (·.metrics.sequencesWaiting)
  metricsScrapesStarted := live.metricsScrapesStarted
  metricsObservationSerial := (live.metrics.map (·.scrapeSerial)).getD 0
  engineIdleStreak := live.engineIdleStreak

namespace RoutingState

/-- `RoutingState::status`: a backend that is registered, published and live under its generation. -/
def status (id : BackendId) (now : Nat) (state : RoutingState) : Option BackendStatusSnapshot :=
  (BackendRegistry.get id state.runtime.registry).bind fun slot =>
    (state.runtime.published.backendInstances.find? fun entry => decide (entry.1.id = id)).bind fun entry =>
      (state.synchronised.backends id).bind fun live =>
        if live.topologyGeneration ≠ entry.2 then none
        else some (statusSnapshot (slot.snapshot now) live now
          state.runtime.published.config.telemetry.staleAfter)

/-- The live state after any function that synchronises it. -/
def synchronise (state : RoutingState) : RoutingState := { state with inner := state.synchronised }

def setRegistry (registry : BackendRegistry) (state : RoutingState) : RoutingState :=
  { state with runtime := { state.runtime with registry := registry } }

end RoutingState

inductive DrainPhase where
  | draining
  | complete
  | failed
  | cancelled
  deriving DecidableEq, Repr

structure DrainProgress where
  phase : DrainPhase
  safeToStop : Bool
  elapsedMs : Nat
  proxyActive : Nat
  engineRunning : Option Nat
  engineWaiting : Option Nat
  telemetry : TelemetryState
  message : Option String
  deriving DecidableEq, Repr

/-- Where the task of a drain operation is. -/
inductive Driver where
  | polling
  /-- About to send a progress; after the last one the task returns. -/
  | sending (progress : DrainProgress) (last : Bool)
  /-- Found the backend idle and awaits the lifecycle lock. -/
  | awaiting (status : BackendStatusSnapshot)
  | committing
  | sleeping
  | finished
  deriving DecidableEq, Repr

structure DrainOperation where
  backendId : BackendId
  startedAt : Nat
  metricsScrapesStartedAtStart : Nat
  progress : DrainProgress
  driver : Driver
  deriving DecidableEq, Repr

namespace DrainOperation

def elapsedMs (now : Nat) (operation : DrainOperation) : Nat := durationMs (now - operation.startedAt)

def progressFromStatus (operation : DrainOperation) (now : Nat) (status : BackendStatusSnapshot)
    (phase : DrainPhase) (safeToStop : Bool) (message : Option String) : DrainProgress :=
  ⟨phase, safeToStop, operation.elapsedMs now, status.proxyActive, status.running, status.waiting,
    status.telemetry, message⟩

/-- The engine was idle on two scrapes that count for this operation, and still is. -/
def engineIdle (operation : DrainOperation) (status : BackendStatusSnapshot) : Bool :=
  decide (status.telemetry = .fresh) && decide (status.running = some 0) && decide (status.waiting = some 0) &&
    decide (2 ≤ min status.engineIdleStreak
      (status.metricsObservationSerial - operation.metricsScrapesStartedAtStart))

/-- One reading of the status in the loop of `drive_drain`, before the lock is asked for. -/
def decideNext (operation : DrainOperation) (now : Nat) (status : Option BackendStatusSnapshot) : Driver :=
  match status with
  | none =>
      .sending ⟨.failed, false, operation.elapsedMs now, 0, none, none, .unavailable,
        some "backend disappeared while draining"⟩ true
  | some status =>
      if status.mode = .disabled then
        .sending (operation.progressFromStatus now status .complete true (some "backend is disabled")) true
      else if status.mode = .active then
        .sending (operation.progressFromStatus now status .cancelled false (some "drain was superseded")) true
      else if status.proxyActive = 0 ∧ operation.engineIdle status then .awaiting status
      else .sending (operation.progressFromStatus now status .draining false none) false

/-- The second reading, under the lock. -/
def confirms (operation : DrainOperation) (status : BackendStatusSnapshot) : Bool :=
  decide (status.mode = .draining) && decide (status.proxyActive = 0) && operation.engineIdle status

end DrainOperation

inductive ControlError where
  | unknownBackend (id : BackendId)
  | drainFence (error : String)
  | stillDraining
  | notReady (readiness : ReadinessState)
  | telemetry (state : TelemetryState)
  | removeFence (error : String)
  | notActivated (error : ModeChangeError) (rollback : Option String)
  | inFlight (count : Nat)
  | disabledState (error : String)
  | reload (error : RuntimeApplyError)
  deriving DecidableEq, Repr

/-- What a command answers. -/
inductive ControlReply where
  | drainStarted (id : BackendId) (operation : Nat)
  | action (id : BackendId) (mode : BackendMode) (message : String)
  | reloaded (report : RuntimeReloadReport)
  | failed (error : ControlError)
  deriving DecidableEq, Repr

abbrev ValidConfig := { config : RuntimeConfig // config.Distinct }

/-- Who holds the lifecycle lock, and what is next for them. -/
inductive Lifecycle where
  | free
  | drainSave (id : BackendId) (before : BackendMode)
  | drainUndo (id : BackendId) (before : BackendMode) (error : String)
  | drainEnsure (id : BackendId) (before : BackendMode)
  | activateSave (id : BackendId)
  | activateOpen (id : BackendId)
  | disableSave (id : BackendId) (force : Bool) (inFlight : Nat)
  | disableClose (id : BackendId) (force : Bool) (inFlight : Nat)
  | reloadReconcile (config : ValidConfig)
  /-- The modes still to be set before the configuration is published. -/
  | reloadRestore (config : ValidConfig) (report : ReconcileReport) (pending : List (BackendId × BackendMode))
  /-- The drains still to be resumed. -/
  | reloadResume (report : RuntimeReloadReport) (pending : List BackendId)
  | commitSave (operation : Nat) (id : BackendId) (status confirmed : BackendStatusSnapshot)
  | commitClose (operation : Nat) (id : BackendId) (confirmed : BackendStatusSnapshot)
  | commitSend (operation : Nat) (id : BackendId) (confirmed : BackendStatusSnapshot)
  deriving DecidableEq

/-- Where the selection in progress is. -/
inductive Selector where
  | idle
  | snapshotted (now : Nat) (snapshots : List BackendSnapshot)
  | configured (now : Nat) (snapshots : List BackendSnapshot) (instances : List (Backend × Nat))
      (staleAfter : Nat) (kvSoftLimit : ℚ)
  | trying (eligible : Nat) (candidates : List Candidate)
  | permitted (eligible : Nat) (candidate : Candidate) (permit : CircuitPermit) (rest : List Candidate)

/-- A request that was dispatched: its selection, then the guard of its response. An unresolved selection
is dropped lease first. -/
inductive RoutedRequest where
  | selected (lease : BackendLease) (permit : CircuitPermit)
  | guarded (lease : BackendLease) (observer : Option BodyFailureObserver)
  | unleased (permit : CircuitPermit)
  deriving DecidableEq, Repr

def RoutedRequest.lease : RoutedRequest → Option BackendLease
  | .selected lease _ | .guarded lease _ => some lease
  | .unleased _ => none

inductive RequestEvent where
  | transportFailure
  | response (status : Nat)
  | bodyError
  | release
  | resolve
  deriving DecidableEq, Repr

structure ControlWorld where
  now : Nat
  routing : RoutingState
  store : BackendStateStore
  operations : List DrainOperation
  lifecycle : Lifecycle
  selector : Selector
  requests : Nat → Option RoutedRequest
  /-- The scrape the telemetry worker has under way for a backend, with its generation. -/
  scrapes : BackendId → Option (Nat × MetricsScrapeContext)
  /-- Answers given, newest first. -/
  replies : List ControlReply

inductive ControlOp where
  /-- The next step of the selection in progress, or the first of a new one, for the given request. -/
  | select (request : Nat)
  | request (request : Nat) (event : RequestEvent)
  | readiness (id : BackendId) (generation : Nat) (config : ReadinessConfig)
      (failure : Option (ReadinessFailureKind × String))
  | beginScrape (id : BackendId) (generation : Nat)
  | endScrape (id : BackendId) (result : Except String MistralRsMetrics)
  | drain (id : BackendId)
  | activate (id : BackendId)
  | disable (id : BackendId) (force : Bool)
  | reload (config : ValidConfig)
  /-- The next step of the holder of the lifecycle lock, with the error of a save that fails. -/
  | proceed (failure : Option String)
  /-- The next step of a drain task. -/
  | drive (operation : Nat)
  | elapse (time : Nat)
  | restart (config : ValidConfig)
  deriving DecidableEq

namespace ControlWorld

def registry (world : ControlWorld) : BackendRegistry := world.routing.runtime.registry

def published (world : ControlWorld) : PublishedRuntime := world.routing.runtime.published

def setRegistry (registry : BackendRegistry) (world : ControlWorld) : ControlWorld :=
  { world with routing := world.routing.setRegistry registry }

def setInner (inner : RoutingInner) (world : ControlWorld) : ControlWorld :=
  { world with routing := { world.routing with inner := inner } }

def synchronise (world : ControlWorld) : ControlWorld := { world with routing := world.routing.synchronise }

def status (id : BackendId) (world : ControlWorld) : Option BackendStatusSnapshot :=
  world.routing.status id world.now

/-- The lock is released with an answer. -/
def reply (reply : ControlReply) (world : ControlWorld) : ControlWorld :=
  { world with lifecycle := .free, replies := reply :: world.replies }

/-- An operation for this backend that is still in phase `draining`. -/
def joinable (id : BackendId) (operation : DrainOperation) : Bool :=
  decide (operation.backendId = id) && decide (operation.progress.phase = .draining)

def newOperation (id : BackendId) (world : ControlWorld) : DrainOperation :=
  let status := world.status id
  { backendId := id
    startedAt := world.now
    metricsScrapesStartedAtStart := (status.map (·.metricsScrapesStarted)).getD 0
    progress :=
      { phase := .draining
        safeToStop := false
        elapsedMs := 0
        proxyActive := (status.map (·.proxyActive)).getD 0
        engineRunning := status.bind (·.running)
        engineWaiting := status.bind (·.waiting)
        telemetry := (status.map (·.telemetry)).getD .unavailable
        message := none }
    driver := .polling }

/-- Join the operation in progress or start one. -/
def ensureDrainOperation (id : BackendId) (world : ControlWorld) : ControlWorld × Nat :=
  match world.operations.findIdx? (joinable id) with
  | some index => (world, index)
  | none =>
      ({ world.synchronise with operations := world.operations ++ [world.newOperation id] },
        world.operations.length)

/-- The draining backends `resume_persisted_drains` goes through. -/
def drainingIds (world : ControlWorld) : List BackendId :=
  ((BackendRegistry.snapshots world.now world.registry).filter fun snapshot =>
    decide (snapshot.mode = .draining)).map (·.spec.id)

/-- A process that has loaded its state and serves nothing yet. -/
def fresh (runtime : RuntimeState) (store : BackendStateStore) (now : Nat) : ControlWorld where
  now := now
  routing := ⟨runtime, RoutingInner.new runtime.published⟩
  store := store
  operations := []
  lifecycle := .free
  selector := .idle
  requests := fun _ => none
  scrapes := fun _ => none
  replies := []

def resumePersistedDrains (world : ControlWorld) : ControlWorld :=
  world.drainingIds.foldl (fun world id => (world.ensureDrainOperation id).1) world

/-- A process start: load, `from_config`, `restore_modes`, and the drains resumed. -/
def boot (config : ValidConfig) (store : BackendStateStore) (now : Nat) : Option ControlWorld :=
  match registryFromConfig config.val with
  | .error _ => none
  | .ok registry =>
      let runtime := ⟨PublishedRuntime.fromConfig config.val config.property, restoreModes store.modes registry⟩
      some (fresh runtime store now).resumePersistedDrains

/-- One step of `RoutingState::select`. -/
def selectStep (request : Nat) (world : ControlWorld) : Option ControlWorld :=
  match world.selector with
  | .idle =>
      some { world with
        selector := .snapshotted world.now (BackendRegistry.snapshots world.now world.registry) }
  | .snapshotted now snapshots =>
      some { world with
        selector := .configured now snapshots world.published.backendInstances
          world.published.config.telemetry.staleAfter world.published.config.routing.kvSoftLimit }
  | .configured now snapshots instances staleAfter kvSoftLimit =>
      let inner := world.routing.synchronised
      let candidates := snapshots.filterMap (candidateOf instances inner now staleAfter kvSoftLimit)
      let advanced := world.setInner { inner with rotatingCursor := (inner.rotatingCursor + 1) % 2 ^ 64 }
      some { advanced with
        selector :=
          if candidates.isEmpty then .idle
          else .trying candidates.length (orderCandidates inner.rotatingCursor candidates) }
  | .trying _ [] => some { world with selector := .idle }
  | .trying eligible (candidate :: rest) =>
      match world.routing.inner.tryCircuitPermit candidate.id world.now with
      | (inner, none) => some { world.setInner inner with selector := .trying eligible rest }
      | (inner, some permit) => some { world.setInner inner with selector := .permitted eligible candidate permit rest }
  | .permitted eligible candidate permit rest =>
      match BackendRegistry.tryAcquire candidate.id world.now world.registry with
      | .error _ =>
          some { world.setInner (world.routing.inner.dropPermit permit world.now) with
            selector := .trying eligible rest }
      | .ok (registry, lease) =>
          if (world.requests request).isSome then none
          else
            some { world.setRegistry registry with
              selector := .idle
              requests := Function.update world.requests request (some (.selected lease permit)) }

/-- Drop a lease. -/
def releaseLease (lease : BackendLease) (world : ControlWorld) : Option ControlWorld :=
  (world.registry.find? lease.spec.id).bind fun slot =>
    (slot.release lease.key).map fun slot => world.setRegistry (world.registry.put slot)

def setRequest (request : Nat) (routed : Option RoutedRequest) (world : ControlWorld) : ControlWorld :=
  { world with requests := Function.update world.requests request routed }

/-- What happens to a dispatched request. -/
def requestStep (request : Nat) (event : RequestEvent) (world : ControlWorld) : Option ControlWorld :=
  match world.requests request, event with
  | some (.selected lease permit), .transportFailure =>
      let inner := (world.routing.inner.updateBreaker permit.backendId fun breaker =>
        ((permit.failure world.now breaker).2, ())).1
      some ((world.setInner inner).setRequest request (some (.guarded lease none)))
  | some (.selected lease permit), .response status =>
      let result := world.routing.inner.updateBreaker permit.backendId
        (permit.intoResponseGuard status world.now)
      some ((world.setInner result.1).setRequest request (some (.guarded lease result.2.join)))
  | some (.selected lease permit), .release =>
      (world.releaseLease lease).map (·.setRequest request (some (.unleased permit)))
  | some (.guarded lease (some observer)), .bodyError =>
      let inner := (world.routing.inner.updateBreaker observer.backendId fun breaker =>
        (observer.failure world.now breaker, ())).1
      some ((world.setInner inner).setRequest request (some (.guarded lease none)))
  | some (.guarded lease _), .release => (world.releaseLease lease).map (·.setRequest request none)
  | some (.unleased permit), .resolve =>
      some ((world.setInner (world.routing.inner.dropPermit permit world.now)).setRequest request none)
  | _, _ => none

/-- The first step of a command, with the lock. -/
def drain (id : BackendId) (world : ControlWorld) : ControlWorld :=
  match BackendRegistry.get id world.registry with
  | none => world.reply (.failed (.unknownBackend id))
  | some slot =>
      let closed := world.setRegistry (world.registry.put slot.beginDrain.1)
      { closed with
        lifecycle := if slot.mode = .draining then .drainEnsure id slot.mode else .drainSave id slot.mode }

def activate (id : BackendId) (world : ControlWorld) : ControlWorld :=
  match world.status id with
  | none => world.synchronise.reply (.failed (.unknownBackend id))
  | some status =>
      match status.mode with
      | .active => world.synchronise.reply (.action id .active "backend is already active")
      | .draining => world.synchronise.reply (.failed .stillDraining)
      | .disabled =>
          if status.readiness ≠ .ready then world.synchronise.reply (.failed (.notReady status.readiness))
          else if status.telemetry ≠ .fresh then world.synchronise.reply (.failed (.telemetry status.telemetry))
          else { world.synchronise with lifecycle := .activateSave id }

def disable (id : BackendId) (force : Bool) (world : ControlWorld) : ControlWorld :=
  match world.status id with
  | none => world.synchronise.reply (.failed (.unknownBackend id))
  | some status =>
      if status.mode = .disabled then
        world.synchronise.reply (.action id .disabled "backend is already disabled")
      else if force = false ∧ 0 < status.proxyActive then
        world.synchronise.reply (.failed (.inFlight status.proxyActive))
      else { world.synchronise with lifecycle := .disableSave id force status.proxyActive }

def reload (config : ValidConfig) (world : ControlWorld) : ControlWorld :=
  match checkReload config.val world.published.config.backends world.registry with
  | .error error => world.reply (.failed (.reload error))
  | .ok () => { world with lifecycle := .reloadReconcile config }

/-- The modes a reload sets: those of added and revived backends, then every stored fence again. -/
def restorations (report : ReconcileReport) (registry : BackendRegistry) (store : BackendStateStore) :
    List (BackendId × BackendMode) :=
  (report.added ++ report.revived).map (fun id => (id, store.mode id)) ++
    (BackendRegistry.registeredIds registry).filterMap fun id => (store.modes id).map fun mode => (id, mode)

def disabledMessage (force : Bool) (inFlight : Nat) : String :=
  if force ∧ 0 < inFlight then
    "backend disabled with " ++ toString inFlight ++ " in-flight request" ++
      (if inFlight = 1 then "" else "s") ++ " still running"
  else "backend disabled"

/-- The task of an operation sends its last progress and returns. -/
def finishOperation (index : Nat) (progress : DrainOperation → DrainProgress) (world : ControlWorld) :
    ControlWorld :=
  { world with operations := world.operations.modify index fun operation =>
      { operation with progress := progress operation, driver := .finished } }

/-- The next step of the holder of the lifecycle lock. A save happens as a whole or not at all. -/
def proceed (failure : Option String) (world : ControlWorld) : Option ControlWorld :=
  match world.lifecycle with
  | .free => none
  | .drainSave id before =>
      match failure with
      | none => some { world with store := world.store.setMode id .draining, lifecycle := .drainEnsure id before }
      | some error => some { world with lifecycle := .drainUndo id before error }
  | .drainUndo id before error =>
      some ((world.setRegistry (world.registry.update id (SlotState.restore before))).reply
        (.failed (.drainFence error)))
  | .drainEnsure id _ =>
      let (ensured, index) := world.ensureDrainOperation id
      some (ensured.reply (.drainStarted id index))
  | .activateSave id =>
      match failure with
      | none => some { world with store := world.store.setMode id .active, lifecycle := .activateOpen id }
      | some error => some (world.reply (.failed (.removeFence error)))
  | .activateOpen id =>
      (BackendRegistry.getRetained id world.registry).map fun slot =>
        match slot.activate with
        | .ok opened =>
            (world.setRegistry (world.registry.put opened)).reply (.action id .active "backend activated")
        | .error error =>
            { world with store := if failure = none then world.store.setMode id .disabled else world.store }.reply
              (.failed (.notActivated error failure))
  | .disableSave id force inFlight =>
      match failure with
      | none =>
          some { world with store := world.store.setMode id .disabled, lifecycle := .disableClose id force inFlight }
      | some error => some (world.reply (.failed (.disabledState error)))
  | .disableClose id force inFlight =>
      some ((world.setRegistry (world.registry.update id SlotState.disable)).reply
        (.action id .disabled (disabledMessage force inFlight)))
  | .reloadReconcile config =>
      match BackendRegistry.reconcile (config.val.backends.map Backend.registrySpec) world.registry with
      | .error error => some (world.reply (.failed (.reload (.reconcile error))))
      | .ok (registry, report) =>
          some { world.setRegistry registry with
            lifecycle := .reloadRestore config report (restorations report registry world.store) }
  | .reloadRestore config report ((id, mode) :: pending) =>
      some { world.setRegistry (world.registry.update id (SlotState.restore mode)) with
        lifecycle := .reloadRestore config report pending }
  | .reloadRestore config report [] =>
      let published := world.published.publish config.val config.property
      some { world with
        routing := { world.routing with runtime := { world.routing.runtime with published := published } }
        lifecycle := .reloadResume ⟨published.revision, report⟩ world.drainingIds }
  | .reloadResume report (id :: pending) =>
      some { (world.ensureDrainOperation id).1 with lifecycle := .reloadResume report pending }
  | .reloadResume report [] => some (world.reply (.reloaded report))
  | .commitSave index id status confirmed =>
      match failure with
      | none =>
          some { world with store := world.store.setMode id .disabled, lifecycle := .commitClose index id confirmed }
      | some error =>
          some { world.finishOperation index (fun operation => operation.progressFromStatus world.now status .failed
            false (some ("could not persist disabled state: " ++ error))) with lifecycle := .free }
  | .commitClose index id confirmed =>
      some { world.setRegistry (world.registry.update id SlotState.disable) with
        lifecycle := .commitSend index id confirmed }
  | .commitSend index id confirmed =>
      let final := (world.status id).getD confirmed
      some { world.synchronise.finishOperation index (fun operation => operation.progressFromStatus world.now final
        .complete true (some "proxy and engine are idle")) with lifecycle := .free }

def setDriver (index : Nat) (driver : Driver) (world : ControlWorld) : ControlWorld :=
  { world with operations := world.operations.modify index fun operation => { operation with driver := driver } }

/-- The next step of a drain task that does not hold the lock. -/
def driveStep (index : Nat) (world : ControlWorld) : Option ControlWorld :=
  (world.operations[index]?).bind fun operation =>
    match operation.driver with
    | .polling =>
        some (world.synchronise.setDriver index
          (operation.decideNext world.now (world.status operation.backendId)))
    | .sending progress last =>
        some { world with operations := world.operations.modify index fun operation =>
          { operation with progress := progress, driver := if last then .finished else .sleeping } }
    | .sleeping => some (world.setDriver index .polling)
    | .awaiting status =>
        match world.lifecycle with
        | .free =>
            some (match world.status operation.backendId with
              | none => world.synchronise.setDriver index .polling
              | some confirmed =>
                  if operation.confirms confirmed then
                    { world.synchronise.setDriver index .committing with
                      lifecycle := .commitSave index operation.backendId status confirmed }
                  else world.synchronise.setDriver index .polling)
        | _ => none
    | .committing | .finished => none

/-- A command starts only when nobody holds the lock. -/
def command (start : ControlWorld → ControlWorld) (world : ControlWorld) : Option ControlWorld :=
  match world.lifecycle with
  | .free => some (start world)
  | _ => none

def step (world : ControlWorld) : ControlOp → Option ControlWorld
  | .select request => world.selectStep request
  | .request request event => world.requestStep request event
  | .readiness id generation config none =>
      some (world.setInner (world.routing.inner.recordReadinessSuccessFor world.published config id generation
        world.now).1)
  | .readiness id generation config (some (kind, error)) =>
      some (world.setInner (world.routing.inner.recordReadinessFailureFor world.published config id generation
        kind error world.now).1)
  | .beginScrape id generation =>
      if (world.scrapes id).isSome then none
      else
        let (inner, scrape) := world.routing.inner.beginMetricsScrape world.published world.registry id generation
          world.now
        some { world.setInner inner with
          scrapes := Function.update world.scrapes id (scrape.map fun scrape => (generation, scrape)) }
  | .endScrape id result =>
      (world.scrapes id).map fun (generation, scrape) =>
        let inner := match result with
          | .ok metrics =>
              world.routing.inner.recordMetricsSuccessFor world.published id generation metrics scrape world.now
          | .error error =>
              world.routing.inner.recordMetricsFailureFor world.published id generation scrape.serial error world.now
        { world.setInner inner with scrapes := Function.update world.scrapes id none }
  | .drain id => world.command (drain id)
  | .activate id => world.command (activate id)
  | .disable id force => world.command (disable id force)
  | .reload config => world.command (reload config)
  | .proceed failure => world.proceed failure
  | .drive index => world.driveStep index
  | .elapse time => some { world with now := world.now + time }
  | .restart config =>
      match world.lifecycle with
      | .free => boot config world.store world.now
      | _ => none

end ControlWorld

/-- A recorded step of the control plane. -/
abbrev ControlStep := Step ControlWorld ControlOp

/-- The control plane from the start of a process with any configuration and any stored state. -/
def controlSystem : System ControlWorld ControlOp where
  initial world := ∃ config store now, ControlWorld.boot config store now = some world
  step := ControlWorld.step

end MistralrsProxy
