import MistralrsProxy.Keys
import MistralrsProxy.RoutingSelect
import MistralrsProxy.Usage

/-! The audit log: the events a request reports, the entry the writer keeps for it, and the one record
that entry becomes. Times are milliseconds since the epoch. -/

namespace MistralrsProxy

abbrev RequestId := Nat

inductive AuditAdmissionError where
  | unavailable
  | saturated
  deriving DecidableEq, Repr

/-- How a request ended. -/
inductive BodyOutcome where
  | complete
  | aborted
  | abandoned
  | error (text : String)
  deriving DecidableEq, Repr

/-- Whether the response was complete, the name of its termination, and the error it ended with. -/
def BodyOutcome.describe : BodyOutcome → Bool × String × Option String
  | .complete => (true, "complete", none)
  | .aborted => (false, "body_dropped", none)
  | .abandoned => (false, "client_disconnected", none)
  | .error text => (false, "body_error", some text)

structure OpenWebUiUser where
  name : Option String
  id : Option String
  chatId : Option String
  deriving DecidableEq, Repr

/-- Everything recorded about an inbound request. No body, no key. -/
structure RequestInfo where
  clientIp : String
  clientPort : Nat
  method : String
  uri : String
  httpVersion : String
  host : Option String
  userAgent : Option String
  contentLength : Option Nat
  keySha256 : Option String
  identity : Option KeyIdentity
  authorized : Bool
  authError : Option String
  openwebuiUser : Option OpenWebUiUser
  deriving DecidableEq, Repr

/-- Routing context copied into the record. -/
structure RoutingInfo where
  backendId : Option BackendId
  routingPolicy : Option String
  routingReason : Option String
  eligibleBackendCount : Option Nat
  backendPressureAtDispatch : Option ℚ
  backendRunningAtDispatch : Option Nat
  backendWaitingAtDispatch : Option Nat
  backendCapacityAtDispatch : Option Nat
  backendKvPressureAtDispatch : Option (Option ℚ)
  backendMetricsAgeMs : Option Nat
  backendProxyActiveAtDispatch : Option Nat
  deriving DecidableEq

namespace RoutingInfo

def ofDecision (decision : RoutingDecision) : RoutingInfo where
  backendId := some decision.backendId
  routingPolicy := some decision.routingPolicy
  routingReason := some decision.routingReason.text
  eligibleBackendCount := some decision.eligibleBackendCount
  backendPressureAtDispatch := decision.backendPressureAtDispatch
  backendRunningAtDispatch := decision.backendRunningAtDispatch
  backendWaitingAtDispatch := decision.backendWaitingAtDispatch
  backendCapacityAtDispatch := decision.backendCapacityAtDispatch
  backendKvPressureAtDispatch := decision.backendKvPressureAtDispatch
  backendMetricsAgeMs := decision.backendMetricsAgeMs
  backendProxyActiveAtDispatch := some decision.backendProxyActiveAtDispatch

/-- The fields of a request that was not routed; `none` throughout for one rejected before routing. -/
def absent : RoutingInfo := ⟨none, none, none, none, none, none, none, none, none, none, none⟩

def unavailable (reason : String) : RoutingInfo :=
  { absent with
    routingPolicy := some "least-pressure-v1"
    routingReason := some reason
    eligibleBackendCount := some 0 }

end RoutingInfo

/-- What the body path counted. -/
structure BodyObservation where
  firstByteAtUnixMs : Option Nat
  responseBytes : Nat
  usage : Usage
  deriving DecidableEq

def BodyObservation.nothing : BodyObservation := ⟨none, 0, Usage.unknown⟩

/-- The events of one request. The permit of the request travels with the first. -/
inductive EventBody where
  | requestStarted (atUnixMs : Nat) (info : RequestInfo)
  | responseStarted (status : Nat) (streaming : Bool)
  | requestError (error : String)
  | requestRouted (atUnixMs : Nat) (routing : RoutingInfo)
  | responseFinished (atUnixMs : Nat) (outcome : BodyOutcome) (observation : BodyObservation)
  deriving DecidableEq

namespace EventBody

def isStart : EventBody → Bool
  | .requestStarted _ _ => true
  | _ => false

def isFinish : EventBody → Bool
  | .responseFinished _ _ _ => true
  | _ => false

/-- An event between the first and the last of a request. -/
def isMiddle : EventBody → Bool
  | .requestStarted _ _ | .responseFinished _ _ _ => false
  | _ => true

def response? : EventBody → Option (Nat × Bool)
  | .responseStarted status streaming => some (status, streaming)
  | _ => none

def error? : EventBody → Option String
  | .requestError error => some error
  | _ => none

def routed? : EventBody → Option (Nat × RoutingInfo)
  | .requestRouted atUnixMs routing => some (atUnixMs, routing)
  | _ => none

theorem of_isMiddle {event : EventBody} (h : event.isMiddle = true) :
    event.isStart = false ∧ event.isFinish = false := by
  cases event with
  | requestStarted | responseFinished => cases h
  | responseStarted | requestError | requestRouted => exact ⟨rfl, rfl⟩

end EventBody

/-- The last value the events give. -/
def latest {α : Type} (field : EventBody → Option α) (events : List EventBody) : Option α :=
  (events.filterMap field).getLast?

theorem latest_snoc {α : Type} (field : EventBody → Option α) (events : List EventBody) (event : EventBody) :
    latest field (events ++ [event]) = (field event).or (latest field events) := by
  unfold latest
  rw [List.filterMap_append]
  cases hfield : field event with
  | none => simp [hfield]
  | some value => simp [hfield]

structure LogEvent where
  id : RequestId
  body : EventBody
  deriving DecidableEq

/-- The writer's entry for a request in progress; it holds the request's permit. -/
structure Pending where
  startedAtUnixMs : Nat
  info : RequestInfo
  status : Option Nat
  streaming : Bool
  firstByteAtUnixMs : Option Nat
  responseBytes : Nat
  usage : Usage
  error : Option String
  routing : Option RoutingInfo
  routedAtUnixMs : Option Nat
  deriving DecidableEq

def Pending.new (startedAtUnixMs : Nat) (info : RequestInfo) : Pending :=
  ⟨startedAtUnixMs, info, none, false, none, 0, Usage.unknown, none, none, none⟩

/-- The entry holds what the events after the first said, the later ones in place of the earlier. -/
structure Pending.Reflects (startedAtUnixMs : Nat) (info : RequestInfo) (events : List EventBody)
    (entry : Pending) : Prop where
  startedAtUnixMs : entry.startedAtUnixMs = startedAtUnixMs
  info : entry.info = info
  status : entry.status = (latest EventBody.response? events).map Prod.fst
  streaming : entry.streaming = ((latest EventBody.response? events).map Prod.snd).getD false
  error : entry.error = latest EventBody.error? events
  routing : entry.routing = (latest EventBody.routed? events).map Prod.snd
  routedAtUnixMs : entry.routedAtUnixMs = (latest EventBody.routed? events).map Prod.fst

/-- One line of the audit log. -/
structure RequestRecord where
  requestId : RequestId
  startedAtUnixMs : Nat
  finishedAtUnixMs : Nat
  durationMs : Nat
  timeToFirstByteMs : Option Nat
  info : RequestInfo
  routing : RoutingInfo
  proxyQueueMs : Option Nat
  status : Option Nat
  streaming : Bool
  responseBytes : Nat
  usage : Usage
  complete : Bool
  termination : String
  error : Option String
  deriving DecidableEq

def writeRecord (id : RequestId) (entry : Pending) (finishedAtUnixMs : Nat) (outcome : BodyOutcome) :
    RequestRecord where
  requestId := id
  startedAtUnixMs := entry.startedAtUnixMs
  finishedAtUnixMs := finishedAtUnixMs
  durationMs := finishedAtUnixMs - entry.startedAtUnixMs
  timeToFirstByteMs := entry.firstByteAtUnixMs.map (· - entry.startedAtUnixMs)
  info := entry.info
  routing := entry.routing.getD RoutingInfo.absent
  proxyQueueMs := entry.routedAtUnixMs.map (· - entry.startedAtUnixMs)
  status := entry.status
  streaming := entry.streaming
  responseBytes := entry.responseBytes
  usage := entry.usage
  complete := outcome.describe.1
  termination := outcome.describe.2.1
  error := entry.error.or outcome.describe.2.2

/-- What the writer knows about one request: its entry and the records written for it. -/
structure Account where
  pending : Option Pending
  records : List RequestRecord

namespace Account

def blank : Account := ⟨none, []⟩

/-- `handle_event`, as far as the request of the event is concerned. -/
def handle (id : RequestId) (account : Account) : EventBody → Account
  | .requestStarted atUnixMs info => { account with pending := some (Pending.new atUnixMs info) }
  | .responseStarted status streaming =>
      { account with pending := account.pending.map fun entry =>
          { entry with status := some status, streaming := streaming } }
  | .requestError error =>
      { account with pending := account.pending.map fun entry => { entry with error := some error } }
  | .requestRouted atUnixMs routing =>
      { account with pending := account.pending.map fun entry =>
          { entry with routing := some routing, routedAtUnixMs := some atUnixMs } }
  | .responseFinished atUnixMs outcome observation =>
      match account.pending with
      | none => account
      | some entry =>
          let observed : Pending := { entry with
            firstByteAtUnixMs := observation.firstByteAtUnixMs
            responseBytes := observation.responseBytes
            usage := observation.usage }
          ⟨none, account.records ++ [writeRecord id observed atUnixMs outcome]⟩

/-- How many permits handling the event drops: that of the entry it removes or replaces. -/
def released (account : Account) : EventBody → Nat
  | .requestStarted _ _ => if account.pending.isSome then 1 else 0
  | .responseFinished _ _ _ => if account.pending.isSome then 1 else 0
  | _ => 0

/-- The account of a request whose events so far were handled in this order. -/
def after (id : RequestId) (events : List EventBody) : Account := events.foldl (handle id) blank

theorem after_snoc (id : RequestId) (events : List EventBody) (event : EventBody) :
    after id (events ++ [event]) = (after id events).handle id event := by
  rw [after, List.foldl_append]
  rfl

/-- Until its last event a request has an entry and no record. -/
theorem after_open (id : RequestId) (startedAtUnixMs : Nat) (info : RequestInfo) (rest : List EventBody)
    (hrest : ∀ event ∈ rest, event.isMiddle = true) :
    ∃ entry : Pending, after id (.requestStarted startedAtUnixMs info :: rest) = ⟨some entry, []⟩ ∧
      entry.Reflects startedAtUnixMs info rest := by
  induction rest using List.reverseRecOn with
  | nil => exact ⟨Pending.new startedAtUnixMs info, rfl, ⟨rfl, rfl, rfl, rfl, rfl, rfl, rfl⟩⟩
  | append_singleton rest event ih =>
      obtain ⟨entry, hafter, hentry⟩ := ih (fun other hother => hrest other (List.mem_append_left _ hother))
      have hmiddle := hrest event (List.mem_append_right _ List.mem_cons_self)
      rw [← List.cons_append, after_snoc, hafter]
      obtain ⟨hstarted, hinfo, hstatus, hstreaming, herror, hrouting, hrouted⟩ := hentry
      cases event with
      | requestStarted | responseFinished => cases hmiddle
      | responseStarted status streaming =>
          refine ⟨_, rfl, hstarted, hinfo, ?_, ?_, ?_, ?_, ?_⟩ <;>
            simp [latest_snoc, EventBody.response?, EventBody.error?, EventBody.routed?, herror, hrouting, hrouted]
      | requestError error =>
          refine ⟨_, rfl, hstarted, hinfo, ?_, ?_, ?_, ?_, ?_⟩ <;>
            simp [latest_snoc, EventBody.response?, EventBody.error?, EventBody.routed?, hstatus, hstreaming,
              hrouting, hrouted]
      | requestRouted atUnixMs routing =>
          refine ⟨_, rfl, hstarted, hinfo, ?_, ?_, ?_, ?_, ?_⟩ <;>
            simp [latest_snoc, EventBody.response?, EventBody.error?, EventBody.routed?, hstatus, hstreaming,
              herror]

/-- The last event turns the entry into the record. -/
theorem after_closed (id : RequestId) (startedAtUnixMs atUnixMs : Nat) (info : RequestInfo)
    (rest : List EventBody) (outcome : BodyOutcome) (observation : BodyObservation)
    (hrest : ∀ event ∈ rest, event.isMiddle = true) :
    ∃ entry : Pending, entry.Reflects startedAtUnixMs info rest ∧
      after id (.requestStarted startedAtUnixMs info ::
        (rest ++ [.responseFinished atUnixMs outcome observation])) =
        ⟨none, [writeRecord id { entry with
          firstByteAtUnixMs := observation.firstByteAtUnixMs
          responseBytes := observation.responseBytes
          usage := observation.usage } atUnixMs outcome]⟩ := by
  obtain ⟨entry, hafter, hentry⟩ := after_open id startedAtUnixMs info rest hrest
  refine ⟨entry, hentry, ?_⟩
  rw [← List.cons_append, after_snoc, hafter]
  rfl

/-- An event in between touches neither the records nor the permits. -/
theorem handle_middle (id : RequestId) (account : Account) {event : EventBody} (h : event.isMiddle = true) :
    (account.handle id event).records = account.records ∧ account.released event = 0 := by
  cases event with
  | requestStarted | responseFinished => cases h
  | responseStarted | requestError | requestRouted => exact ⟨rfl, rfl⟩

end Account

/-- The writer: an entry per request in progress and the records in the order they were written. -/
structure Writer where
  pending : RequestId → Option Pending
  records : List RequestRecord

namespace Writer

def account (id : RequestId) (writer : Writer) : Account :=
  ⟨writer.pending id, writer.records.filter fun record => record.requestId == id⟩

/-- `handle_event`. -/
def handleEvent (event : LogEvent) (writer : Writer) : Writer :=
  let handled := (⟨writer.pending event.id, []⟩ : Account).handle event.id event.body
  ⟨Function.update writer.pending event.id handled.pending, writer.records ++ handled.records⟩

/-- The end of `run_worker`: requests still in progress when every sender is gone. -/
def shutDown (ids : List RequestId) (nowUnixMs : Nat) (writer : Writer) : Writer :=
  let left := ids.filterMap fun id => (writer.pending id).map fun entry =>
    writeRecord id entry nowUnixMs (.error "the logger shut down before the response finished")
  ⟨fun _ => none, writer.records ++ left⟩

/-- An event changes the account of its own request only, as `Account.handle` says. -/
theorem account_handleEvent (event : LogEvent) (writer : Writer) (id : RequestId) :
    (writer.handleEvent event).account id =
      if id = event.id then (writer.account id).handle id event.body else writer.account id := by
  obtain ⟨sender, body⟩ := event
  by_cases hid : id = sender
  · subst hid
    rw [if_pos rfl]
    cases body with
    | responseFinished atUnixMs outcome observation =>
        cases hpending : writer.pending id with
        | none => simp [account, handleEvent, Account.handle, hpending]
        | some entry => simp [account, handleEvent, Account.handle, hpending, writeRecord]
    | requestStarted | responseStarted | requestError | requestRouted =>
        simp [account, handleEvent, Account.handle]
  · rw [if_neg hid]
    cases body with
    | responseFinished atUnixMs outcome observation =>
        cases hpending : writer.pending sender with
        | none => simp [account, handleEvent, Account.handle, hpending, hid]
        | some entry => simp [account, handleEvent, Account.handle, hpending, writeRecord, hid, Ne.symm hid]
    | requestStarted | responseStarted | requestError | requestRouted =>
        simp [account, handleEvent, Account.handle, hid]

theorem shutDown_of_idle {writer : Writer} (h : writer.pending = fun _ => none) (ids : List RequestId)
    (nowUnixMs : Nat) : writer.shutDown ids nowUnixMs = writer := by
  obtain ⟨pending, records⟩ := writer
  obtain rfl : pending = fun _ => none := h
  simp [shutDown]

end Writer

end MistralrsProxy
