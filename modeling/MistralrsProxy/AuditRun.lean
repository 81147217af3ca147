import MistralrsProxy.TransitionSystem
import MistralrsProxy.AuditLog

/-! Requests, the bounded event queue and the writer, interleaved. A request goes through admission, the
proxy handler and its response body; responsibility for its last event moves from the guard of the handler
to that of the body. The handler can be dropped while its guard is armed, the body anywhere. -/

open Transition

namespace MistralrsProxy

def maxEventsPerRequest : Nat := 5

/-- A response as `finish` receives it; `endStream` is what its body says before the first poll. -/
structure ProxyResponse where
  status : Nat
  streaming : Bool
  endStream : Bool
  deriving DecidableEq, Repr

/-- `CompletionGuard` of a body that has not finished. -/
structure Completion where
  firstByteAtUnixMs : Option Nat
  responseBytes : Nat
  sniffer : UsageSniffer
  deriving DecidableEq

namespace Completion

def new : Completion := ⟨none, 0, UsageSniffer.new⟩

/-- A data frame on its way to the client. -/
def observe (decode : List UInt8 → Option UsageFields) (bytes : List UInt8) (nowUnixMs : Nat)
    (completion : Completion) : Completion where
  firstByteAtUnixMs := completion.firstByteAtUnixMs.or (some nowUnixMs)
  responseBytes := min (completion.responseBytes + bytes.length) u64Max
  sniffer := completion.sniffer.feed decode bytes

def observation (completion : Completion) : BodyObservation :=
  ⟨completion.firstByteAtUnixMs, completion.responseBytes, completion.sniffer.usage.getD Usage.unknown⟩

end Completion

/-- Where a request is. -/
inductive Phase where
  | idle
  /-- The writer was healthy when asked the first time. -/
  | checked (info : RequestInfo)
  /-- A permit is reserved. -/
  | reserved (info : RequestInfo)
  /-- The writer was healthy when asked again. -/
  | cleared (info : RequestInfo)
  | refused (error : AuditAdmissionError)
  /-- `request_started` returned; the guard of the handler is armed. -/
  | admitted (info : RequestInfo)
  /-- Dispatched to a backend, awaiting its response. -/
  | routed
  /-- The handler has a response for `finish`; its guard is disarmed. -/
  | responding (response : ProxyResponse)
  | started (response : ProxyResponse)
  | streaming (completion : Completion)
  /-- The handler was dropped with its guard armed. -/
  | abandoned
  /-- The guard of the body has finished. -/
  | finished
  deriving DecidableEq

/-- A request with the events it has reported. -/
structure AuditedRequest where
  phase : Phase
  sent : List EventBody
  deriving DecidableEq

def AuditedRequest.fresh : AuditedRequest := ⟨.idle, []⟩

structure AuditWorld where
  healthy : Bool
  admitted : Nat
  queue : List LogEvent
  hand : Option LogEvent
  writer : Writer
  closed : Bool
  arrived : List RequestId
  requests : RequestId → AuditedRequest
  /-- Events `try_send` could not place. -/
  lost : List LogEvent

/-- What polling the inner body returned. A body reports its end by the flag after a frame or by `none`. -/
inductive BodyPoll where
  | pending
  | frame (data : Option (List UInt8)) (endStream : Bool)
  | error (text : String)
  | none
  deriving DecidableEq, Repr

/-- A reading of the clock that comes with an operation was taken before the event is sent, with nothing to keep it in
step with those of other requests; it can be any number. -/
inductive AuditOp where
  | arrive (id : RequestId) (info : RequestInfo)
  | reserve (id : RequestId)
  | recheck (id : RequestId)
  | enqueue (id : RequestId) (nowUnixMs : Nat)
  | reject (id : RequestId) (response : ProxyResponse)
  | noBackend (id : RequestId) (nowUnixMs : Nat) (response : ProxyResponse)
  | route (id : RequestId) (nowUnixMs : Nat) (decision : RoutingDecision)
  | respond (id : RequestId) (response : ProxyResponse)
  | transportError (id : RequestId) (text : String) (response : ProxyResponse)
  | abandon (id : RequestId) (nowUnixMs : Nat)
  | responseStarted (id : RequestId)
  | responseBody (id : RequestId) (nowUnixMs : Nat)
  | poll (id : RequestId) (nowUnixMs : Nat) (result : BodyPoll)
  | dropBody (id : RequestId) (nowUnixMs : Nat)
  | receive
  | handle
  | shutDown (nowUnixMs : Nat)

/-- A request that holds no sender of the channel. -/
def Phase.isQuiet : Phase → Bool
  | .idle | .refused _ | .abandoned | .finished => true
  | _ => false

namespace AuditWorld

def setRequest (id : RequestId) (request : AuditedRequest) (world : AuditWorld) : AuditWorld :=
  { world with requests := Function.update world.requests id request }

/-- `fetch_sub(1)` on the admission counter, which wraps at zero. -/
def releasePermit (world : AuditWorld) : AuditWorld :=
  { world with admitted := if world.admitted = 0 then u64Max else world.admitted - 1 }

/-- `try_send` into the bounded channel. A full queue loses the event and marks the writer as failed. -/
def trySend (slots : Nat) (event : LogEvent) (world : AuditWorld) : AuditWorld × Bool :=
  if world.queue.length < slots * maxEventsPerRequest then
    ({ world with queue := world.queue ++ [event] }, true)
  else ({ world with healthy := false, lost := event :: world.lost }, false)

/-- Report an event of a request and move it to its next phase. -/
def report (slots : Nat) (id : RequestId) (body : EventBody) (phase : Phase) (world : AuditWorld) :
    AuditWorld :=
  (world.trySend slots ⟨id, body⟩).1.setRequest id ⟨phase, (world.requests id).sent ++ [body]⟩

def setPhase (id : RequestId) (phase : Phase) (world : AuditWorld) : AuditWorld :=
  world.setRequest id { world.requests id with phase := phase }

def step (decode : List UInt8 → Option UsageFields) (slots : Nat) (world : AuditWorld) :
    AuditOp → Option AuditWorld
  | .arrive id info =>
      if id ∈ world.arrived ∨ world.closed then none
      else
        let phase := if world.healthy then Phase.checked info else .refused .unavailable
        some { world.setPhase id phase with arrived := id :: world.arrived }
  | .reserve id =>
      match (world.requests id).phase with
      | .checked info =>
          if world.admitted < slots then
            some { world.setPhase id (.reserved info) with admitted := world.admitted + 1 }
          else some (world.setPhase id (.refused .saturated))
      | _ => none
  | .recheck id =>
      match (world.requests id).phase with
      | .reserved info =>
          if world.healthy then some (world.setPhase id (.cleared info))
          else some (world.setPhase id (.refused .unavailable)).releasePermit
      | _ => none
  | .enqueue id nowUnixMs =>
      match (world.requests id).phase with
      | .cleared info =>
          let event : EventBody := .requestStarted nowUnixMs info
          match world.trySend slots ⟨id, event⟩ with
          | (sent, true) => some (sent.setRequest id ⟨.admitted info, [event]⟩)
          | (failed, false) => some (failed.setPhase id (.refused .unavailable)).releasePermit
      | _ => none
  | .reject id response =>
      match (world.requests id).phase with
      | .admitted info => if info.authorized then none else some (world.setPhase id (.responding response))
      | _ => none
  | .noBackend id nowUnixMs response =>
      match (world.requests id).phase with
      | .admitted info =>
          if info.authorized then
            some (world.report slots id (.requestRouted nowUnixMs (.unavailable "no_eligible_backend"))
              (.responding response))
          else none
      | _ => none
  | .route id nowUnixMs decision =>
      match (world.requests id).phase with
      | .admitted info =>
          if info.authorized then
            some (world.report slots id (.requestRouted nowUnixMs (.ofDecision decision)) .routed)
          else none
      | _ => none
  -- an upstream response, or a URI the upstream cannot be asked for
  | .respond id response =>
      match (world.requests id).phase with
      | .routed => some (world.setPhase id (.responding response))
      | _ => none
  | .transportError id text response =>
      match (world.requests id).phase with
      | .routed =>
          some (world.report slots id (.requestError ("backend request failed: " ++ text)) (.responding response))
      | _ => none
  | .abandon id nowUnixMs =>
      match (world.requests id).phase with
      | .admitted _ | .routed =>
          some (world.report slots id (.responseFinished nowUnixMs .abandoned .nothing) .abandoned)
      | _ => none
  | .responseStarted id =>
      match (world.requests id).phase with
      | .responding response =>
          some (world.report slots id (.responseStarted response.status response.streaming) (.started response))
      | _ => none
  -- some bodies of length zero are never polled, so their end is observed at construction
  | .responseBody id nowUnixMs =>
      match (world.requests id).phase with
      | .started response =>
          if response.endStream then
            some (world.report slots id (.responseFinished nowUnixMs .complete Completion.new.observation) .finished)
          else some (world.setPhase id (.streaming Completion.new))
      | _ => none
  | .poll id nowUnixMs result =>
      match (world.requests id).phase, result with
      | .streaming _, .pending => some world
      | .streaming completion, .frame data endStream =>
          let observed := data.elim completion fun bytes => completion.observe decode bytes nowUnixMs
          if endStream then
            some (world.report slots id (.responseFinished nowUnixMs .complete observed.observation) .finished)
          else some (world.setPhase id (.streaming observed))
      | .streaming completion, .error text =>
          some (world.report slots id (.responseFinished nowUnixMs (.error text) completion.observation) .finished)
      | .streaming completion, .none =>
          some (world.report slots id (.responseFinished nowUnixMs .complete completion.observation) .finished)
      -- a body that has ended or failed has no more data
      | .finished, .frame (some _) _ => none
      | .finished, _ => some world
      | _, _ => none
  | .dropBody id nowUnixMs =>
      match (world.requests id).phase with
      | .streaming completion =>
          some (world.report slots id (.responseFinished nowUnixMs .aborted completion.observation) .finished)
      | .finished => some world
      | _ => none
  | .receive =>
      match world.hand, world.queue with
      | none, event :: rest => some { world with hand := some event, queue := rest }
      | _, _ => none
  | .handle =>
      match world.hand with
      | none => none
      | some event =>
          let handled := { world with hand := none, writer := world.writer.handleEvent event }
          if (world.writer.account event.id).released event.body = 0 then some handled
          else some handled.releasePermit
  -- every sender of the channel is gone
  | .shutDown nowUnixMs =>
      if world.closed = false ∧ world.hand = none ∧ world.queue = [] ∧
          world.arrived.all (fun id => (world.requests id).phase.isQuiet) then
        some { world with closed := true, writer := world.writer.shutDown world.arrived nowUnixMs }
      else none

section Growth

variable {decode : List UInt8 → Option UsageFields} {slots : Nat} {world next : AuditWorld}

theorem writer_trySend (event : LogEvent) : (world.trySend slots event).1.writer = world.writer := by
  unfold trySend
  split <;> rfl

@[simp] theorem writer_report (id : RequestId) (body : EventBody) (phase : Phase) :
    (world.report slots id body phase).writer = world.writer :=
  writer_trySend _

/-- Only the writer writes: the log grows at its end by what one event or the end of the channel makes of the
entries, and no other operation touches it. -/
theorem step_records {op : AuditOp} (h : world.step decode slots op = some next) :
    world.writer.records <+: next.writer.records := by
  cases op with
  | arrive | reserve | recheck | reject | noBackend | route | respond | transportError | abandon
  | responseStarted | responseBody | poll | dropBody | receive =>
      simp only [step] at h
      repeat' split at h
      all_goals first
        | (cases h; simp [setPhase, setRequest, releasePermit])
        | cases h
  | enqueue id nowUnixMs =>
      simp only [step] at h
      split at h
      · split at h
        all_goals
          rename_i info _ _ _ heq
          have hwriter : (world.trySend slots ⟨id, .requestStarted nowUnixMs info⟩).1.writer = world.writer :=
            writer_trySend _
          rw [heq] at hwriter
          cases h
          simp only [setPhase, setRequest, releasePermit]
          rw [hwriter]
      · cases h
  | handle =>
      simp only [step] at h
      repeat' split at h
      all_goals first
        | (cases h; exact List.prefix_append _ _)
        | cases h
  | shutDown nowUnixMs =>
      simp only [step] at h
      split at h
      · cases h
        exact List.prefix_append _ _
      · cases h

end Growth

end AuditWorld

/-- A logger that has just been started. -/
def AuditWorld.start : AuditWorld :=
  ⟨true, 0, [], none, ⟨fun _ => none, []⟩, false, [], fun _ => .fresh, []⟩

def auditSystem (decode : List UInt8 → Option UsageFields) (slots : Nat) : System AuditWorld AuditOp where
  initial world := world = AuditWorld.start
  step := AuditWorld.step decode slots

end MistralrsProxy
