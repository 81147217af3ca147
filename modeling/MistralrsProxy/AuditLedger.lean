import MistralrsProxy.AuditRun
import MistralrsProxy.Counting
import Mathlib.Tactic.SplitIfs

/-! The invariant of the audit log. Of each request the writer has handled a first part of what the
request reported and the rest is in flight, in order; what it reported follows from where it is; and the
admission counter counts the admitted requests whose record is not written yet. -/

open Transition

namespace MistralrsProxy

/-- How a response body came to its end. -/
inductive BodyEnding where
  | endOfStream
  | error (text : String)
  | dropped
  deriving DecidableEq, Repr

namespace BodyEnding

def outcome : BodyEnding → BodyOutcome
  | .endOfStream => .complete
  | .error text => .error text
  | .dropped => .aborted

def error? : BodyEnding → Option String
  | .error text => some text
  | _ => none

end BodyEnding

def BodyPoll.ending : BodyPoll → Option BodyEnding
  | .frame _ true | .none => some .endOfStream
  | .error text => some (.error text)
  | .frame _ false | .pending => Option.none

abbrev AuditStep := Step AuditWorld AuditOp

/-- The data the body of the request yielded in this step. -/
def AuditOp.data (id : RequestId) : AuditOp → List (List UInt8)
  | .poll sender _ (.frame data _) => if sender = id then data.toList else []
  | _ => []

/-- What this step showed of the end of the body of the request. -/
def bodyEnding (id : RequestId) (world : AuditWorld) : AuditOp → Option BodyEnding
  | .responseBody sender _ =>
      match (world.requests sender).phase with
      | .started response => if sender = id ∧ response.endStream then some .endOfStream else none
      | _ => none
  | .poll sender _ result => if sender = id then result.ending else none
  | .dropBody sender _ => if sender = id then some .dropped else none
  | _ => none

/-- The data frames the body of the request yielded. -/
def yielded (id : RequestId) : List AuditStep → List (List UInt8)
  | [] => []
  | step :: older => yielded id older ++ step.action.data id

/-- What came first: the end of the body of the request, an error of it or its drop. -/
def firstEnding (id : RequestId) : List AuditStep → Option BodyEnding
  | [] => none
  | step :: older => (firstEnding id older).or (bodyEnding id step.before step.action)

/-- The bytes in the frames, as a saturating counter has them. -/
def byteCount (frames : List (List UInt8)) : Nat := min (frames.map List.length).sum u64Max

theorem byteCount_snoc (frames : List (List UInt8)) (bytes : List UInt8) :
    byteCount (frames ++ [bytes]) = min (byteCount frames + bytes.length) u64Max := by
  simp only [byteCount, List.map_append, List.sum_append, List.map_cons, List.map_nil, List.sum_singleton]
  omega

namespace Phase

/-- `request_started` has not returned `Ok`. -/
def isEarly : Phase → Bool
  | .idle | .checked _ | .reserved _ | .cleared _ | .refused _ => true
  | _ => false

/-- The permit is in the hands of `request_started`. -/
def isReserving : Phase → Bool
  | .reserved _ | .cleared _ => true
  | _ => false

/-- The events after the first that a request in a handler phase can have reported. -/
def middleEvents : Phase → Option Nat
  | .admitted _ => some 0
  | .routed => some 1
  | .responding _ => some 2
  | .started _ => some 3
  | _ => none

theorem of_middleEvents {phase : Phase} {count : Nat} (h : phase.middleEvents = some count) :
    phase.isEarly = false ∧ phase.isQuiet = false ∧ count ≤ 3 := by
  cases phase with
  | admitted | routed | responding | started =>
      cases h
      exact ⟨rfl, rfl, by decide⟩
  | _ => cases h

end Phase

/-- What a request has reported, from where it is, given what its body yielded and how that ended. -/
inductive Story : List (List UInt8) → Option BodyEnding → AuditedRequest → Prop
  | early {phase : Phase} (hphase : phase.isEarly = true) : Story [] none ⟨phase, []⟩
  | handler {phase : Phase} {count startedAtUnixMs : Nat} {info : RequestInfo} {rest : List EventBody}
      (hphase : phase.middleEvents = some count) (hcount : rest.length ≤ count)
      (hrest : ∀ event ∈ rest, event.isMiddle = true) :
      Story [] none ⟨phase, .requestStarted startedAtUnixMs info :: rest⟩
  | streaming {frames : List (List UInt8)} {completion : Completion} {startedAtUnixMs : Nat}
      {info : RequestInfo} {rest : List EventBody} (hcount : rest.length ≤ 3)
      (hrest : ∀ event ∈ rest, event.isMiddle = true) (hbytes : completion.responseBytes = byteCount frames) :
      Story frames none ⟨.streaming completion, .requestStarted startedAtUnixMs info :: rest⟩
  | abandoned {startedAtUnixMs atUnixMs : Nat} {info : RequestInfo} {rest : List EventBody}
      (hcount : rest.length ≤ 3) (hrest : ∀ event ∈ rest, event.isMiddle = true) :
      Story [] none ⟨.abandoned, .requestStarted startedAtUnixMs info ::
        (rest ++ [.responseFinished atUnixMs .abandoned .nothing])⟩
  | finished {frames : List (List UInt8)} {ending : BodyEnding} {observation : BodyObservation}
      {startedAtUnixMs atUnixMs : Nat} {info : RequestInfo} {rest : List EventBody}
      (hcount : rest.length ≤ 3) (hrest : ∀ event ∈ rest, event.isMiddle = true)
      (hbytes : observation.responseBytes = byteCount frames) :
      Story frames (some ending) ⟨.finished, .requestStarted startedAtUnixMs info ::
        (rest ++ [.responseFinished atUnixMs ending.outcome observation])⟩

/-- One view of a request that has reported anything: a start, then events in between, then, once it is
quiet, its last event. -/
theorem Story.cases_sent {frames : List (List UInt8)} {ending : Option BodyEnding} {request : AuditedRequest}
    (h : Story frames ending request) :
    (request.phase.isEarly = true ∧ request.sent = []) ∨
      ∃ startedAtUnixMs info rest, rest.length ≤ 3 ∧ (∀ event ∈ rest, event.isMiddle = true) ∧
        ((request.phase.isQuiet = false ∧ request.sent = .requestStarted startedAtUnixMs info :: rest) ∨
          (request.phase.isQuiet = true ∧ ∃ atUnixMs outcome observation, request.sent =
            .requestStarted startedAtUnixMs info ::
              (rest ++ [.responseFinished atUnixMs outcome observation]))) := by
  cases h with
  | early hphase => exact .inl ⟨hphase, rfl⟩
  | @handler _ _ startedAtUnixMs info rest hphase hcount hrest =>
      obtain ⟨_, hquiet, hbound⟩ := Phase.of_middleEvents hphase
      exact .inr ⟨startedAtUnixMs, info, rest, le_trans hcount hbound, hrest, .inl ⟨hquiet, rfl⟩⟩
  | streaming hcount hrest _ => exact .inr ⟨_, _, _, hcount, hrest, .inl ⟨rfl, rfl⟩⟩
  | abandoned hcount hrest => exact .inr ⟨_, _, _, hcount, hrest, .inr ⟨rfl, _, _, _, rfl⟩⟩
  | finished hcount hrest _ => exact .inr ⟨_, _, _, hcount, hrest, .inr ⟨rfl, _, _, _, rfl⟩⟩

section Split

variable {frames : List (List UInt8)} {ending : Option BodyEnding} {request : AuditedRequest}
  {handled flight : List EventBody}

/-- Where the writer is with a request of which it has handled a first part: it knows nothing yet, or has
an entry, or has written the record and nothing is in flight any more. -/
theorem Story.account (h : Story frames ending request) (id : RequestId)
    (hsplit : request.sent = handled ++ flight) :
    (handled = [] ∧ Account.after id handled = Account.blank) ∨
      (handled ≠ [] ∧ (request.phase.isQuiet = true → flight ≠ []) ∧
        ∃ entry, Account.after id handled = ⟨some entry, []⟩) ∨
      (request.phase.isQuiet = true ∧ flight = [] ∧ ∃ line, Account.after id handled = ⟨none, [line]⟩) := by
  cases handled with
  | nil => exact .inl ⟨rfl, rfl⟩
  | cons first rest' =>
      refine .inr ?_
      rcases h.cases_sent with ⟨_, hsent⟩ | ⟨at₀, info, rest, _, hrest, ⟨hquiet, hsent⟩ | ⟨hquiet, at₁,
        outcome, observation, hsent⟩⟩
      · rw [hsent] at hsplit
        cases hsplit
      · rw [hsent] at hsplit
        obtain ⟨rfl, rfl⟩ := List.cons_eq_cons.mp hsplit
        obtain ⟨entry, hafter, _⟩ := Account.after_open id at₀ info rest'
          (fun event hevent => hrest event (List.mem_append_left _ hevent))
        exact .inl ⟨List.cons_ne_nil _ _, by simp [hquiet], entry, hafter⟩
      · rw [hsent, List.cons_append] at hsplit
        obtain ⟨rfl, htail⟩ := List.cons_eq_cons.mp hsplit
        -- either the last event is still in flight, or nothing is
        rcases List.eq_nil_or_concat flight with rfl | ⟨before, last, rfl⟩
        · rw [List.append_nil] at htail
          subst htail
          obtain ⟨entry, _, hafter⟩ := Account.after_closed id at₀ at₁ info rest outcome observation hrest
          exact .inr ⟨hquiet, rfl, _, hafter⟩
        · rw [List.concat_eq_append, ← List.append_assoc] at htail
          obtain ⟨rfl, _⟩ := List.append_inj' htail rfl
          obtain ⟨entry, hafter, _⟩ := Account.after_open id at₀ info rest'
            (fun event hevent => hrest event (List.mem_append_left _ hevent))
          exact .inl ⟨List.cons_ne_nil _ _, by simp, entry, hafter⟩

/-- What handling the next event of a request does: the last one writes the record and gives the permit
back, no other one does either. -/
theorem Story.handle_next (h : Story frames ending request) (id : RequestId) {event : EventBody}
    (hsplit : request.sent = handled ++ event :: flight) :
    ((Account.after id handled).released event = 0 ∧
        ((Account.after id handled).handle id event).records = (Account.after id handled).records) ∨
      ((Account.after id handled).released event = 1 ∧ (Account.after id handled).records = [] ∧
        ((Account.after id handled).handle id event).records ≠ []) := by
  rcases h.cases_sent with ⟨_, hsent⟩ | ⟨at₀, info, rest, _, hrest, hsent⟩
  · rw [hsent] at hsplit
    simp at hsplit
  · cases handled with
    | nil =>
        have hevent : event = .requestStarted at₀ info := by
          rcases hsent with ⟨_, hsent⟩ | ⟨_, _, _, _, hsent⟩
          · rw [hsent] at hsplit
            exact (List.cons_eq_cons.mp hsplit).1.symm
          · rw [hsent] at hsplit
            exact (List.cons_eq_cons.mp hsplit).1.symm
        subst hevent
        exact .inl ⟨rfl, rfl⟩
    | cons first rest' =>
        rcases hsent with ⟨_, hsent⟩ | ⟨_, at₁, outcome, observation, hsent⟩
        · rw [hsent] at hsplit
          obtain ⟨_, rfl⟩ := List.cons_eq_cons.mp hsplit
          exact .inl (Account.handle_middle id _ (hrest event (by simp))).symm
        · rw [hsent, List.cons_append] at hsplit
          obtain ⟨rfl, htail⟩ := List.cons_eq_cons.mp hsplit
          rcases List.eq_nil_or_concat flight with rfl | ⟨before, last, rfl⟩
          · obtain ⟨rfl, hevent⟩ := List.append_inj' htail rfl
            obtain ⟨entry, hafter, _⟩ := Account.after_open id at₀ info rest hrest
            rw [List.singleton_inj] at hevent
            subst hevent
            rw [hafter]
            exact .inr ⟨rfl, rfl, by simp [Account.handle]⟩
          · rw [List.concat_eq_append, ← List.cons_append, ← List.append_assoc] at htail
            obtain ⟨rfl, _⟩ := List.append_inj' htail rfl
            exact .inl (Account.handle_middle id _ (hrest event (by simp))).symm

end Split

theorem Story.of_early {frames : List (List UInt8)} {ending : Option BodyEnding} {request : AuditedRequest}
    (h : Story frames ending request) (hphase : request.phase.isEarly = true) :
    frames = [] ∧ ending = none ∧ request.sent = [] := by
  cases h with
  | early => exact ⟨rfl, rfl, rfl⟩
  | handler hmiddle =>
      rw [(Phase.of_middleEvents hmiddle).1] at hphase
      cases hphase
  | streaming | abandoned | finished => cases hphase

theorem Story.of_handler {frames : List (List UInt8)} {ending : Option BodyEnding} {request : AuditedRequest}
    {count : Nat} (h : Story frames ending request) (hphase : request.phase.middleEvents = some count) :
    frames = [] ∧ ending = none ∧ ∃ startedAtUnixMs info rest, rest.length ≤ count ∧
      (∀ event ∈ rest, event.isMiddle = true) ∧ request.sent = .requestStarted startedAtUnixMs info :: rest := by
  cases h with
  | early hearly =>
      rw [(Phase.of_middleEvents hphase).1] at hearly
      cases hearly
  | handler hmiddle hcount hrest =>
      obtain rfl : _ = count := Option.some.inj (hmiddle.symm.trans hphase)
      exact ⟨rfl, rfl, _, _, _, hcount, hrest, rfl⟩
  | streaming | abandoned | finished => cases hphase

theorem Story.of_streaming {frames : List (List UInt8)} {ending : Option BodyEnding} {request : AuditedRequest}
    {completion : Completion} (h : Story frames ending request) (hphase : request.phase = .streaming completion) :
    ending = none ∧ completion.responseBytes = byteCount frames ∧ ∃ startedAtUnixMs info rest, rest.length ≤ 3 ∧
      (∀ event ∈ rest, event.isMiddle = true) ∧ request.sent = .requestStarted startedAtUnixMs info :: rest := by
  cases h with
  | early hearly => subst hphase; cases hearly
  | handler hmiddle => subst hphase; cases hmiddle
  | streaming hcount hrest hbytes =>
      cases hphase
      exact ⟨rfl, hbytes, _, _, _, hcount, hrest, rfl⟩
  | abandoned | finished => cases hphase

/-- Whatever else is seen of a body that has ended does not count. -/
theorem Story.of_finished {frames : List (List UInt8)} {ending : Option BodyEnding} {request : AuditedRequest}
    (h : Story frames ending request) (hphase : request.phase = .finished) (later : Option BodyEnding) :
    ending.or later = ending := by
  cases h with
  | early hearly => subst hphase; cases hearly
  | handler hmiddle => subst hphase; cases hmiddle
  | streaming | abandoned => cases hphase
  | finished => rfl

theorem Story.sent_length {frames : List (List UInt8)} {ending : Option BodyEnding} {request : AuditedRequest}
    (h : Story frames ending request) : request.sent.length ≤ maxEventsPerRequest := by
  rcases h.cases_sent with ⟨_, hsent⟩ | ⟨_, _, rest, hcount, _, ⟨_, hsent⟩ | ⟨_, _, _, _, hsent⟩⟩ <;>
    rw [hsent] <;> simp [maxEventsPerRequest] <;> omega

namespace AuditWorld

/-- The events sent and not yet handled, in the order the writer gets them. -/
def inFlight (world : AuditWorld) : List LogEvent := world.hand.toList ++ world.queue

def inFlightOf (id : RequestId) (world : AuditWorld) : List EventBody :=
  (world.inFlight.filter fun event => event.id == id).map LogEvent.body

/-- A permit of the request is alive: its caller has reserved one, or it is admitted and its record is not
written. -/
def holdsPermit (world : AuditWorld) (id : RequestId) : Bool :=
  (world.requests id).phase.isReserving ||
    (!(world.requests id).sent.isEmpty && (world.writer.account id).records.isEmpty)

end AuditWorld

/-- The request an operation is about. -/
def AuditOp.sender : AuditOp → Option RequestId
  | .arrive id _ | .reserve id | .recheck id | .enqueue id _ | .reject id _ | .noBackend id _ _ | .route id _ _
  | .respond id _ | .transportError id _ _ | .abandon id _ | .responseStarted id | .responseBody id _
  | .poll id _ _ | .dropBody id _ => some id
  | .receive | .handle | .shutDown _ => none

theorem AuditOp.data_of_ne {op : AuditOp} {id : RequestId} (h : op.sender ≠ some id) : op.data id = [] := by
  cases op with
  | poll sender _ result =>
      have hne : sender ≠ id := fun heq => h (congrArg some heq)
      cases result <;> simp [AuditOp.data, hne]
  | _ => rfl

theorem bodyEnding_of_ne {world : AuditWorld} {op : AuditOp} {id : RequestId} (h : op.sender ≠ some id) :
    bodyEnding id world op = none := by
  cases op with
  | poll sender _ _ | dropBody sender _ =>
      have hne : sender ≠ id := fun heq => h (congrArg some heq)
      simp [bodyEnding, hne]
  | responseBody sender _ =>
      have hne : sender ≠ id := fun heq => h (congrArg some heq)
      simp only [bodyEnding]
      split <;> simp [hne]
  | _ => rfl

structure Ledger (slots : Nat) (record : List AuditStep) (world : AuditWorld) : Prop where
  nodup : world.arrived.Nodup
  fresh : ∀ id, id ∉ world.arrived → world.requests id = .fresh
  story : ∀ id, Story (yielded id record) (firstEnding id record) (world.requests id)
  told : ∀ id, ∃ handled, (world.requests id).sent = handled ++ world.inFlightOf id ∧
    world.writer.account id = Account.after id handled
  healthy : world.healthy = true
  lost : world.lost = []
  counted : world.admitted = world.arrived.countP world.holdsPermit
  bounded : world.admitted ≤ slots
  closed : world.closed = true → world.inFlight = [] ∧ ∀ id, (world.requests id).phase.isQuiet = true

namespace Ledger

variable {slots : Nat} {record : List AuditStep} {world next : AuditWorld} {id : RequestId} {op : AuditOp}
  {decode : List UInt8 → Option UsageFields}

/-- A request that is doing something has arrived, and the channel is open. -/
theorem active (h : Ledger slots record world) (hactive : (world.requests id).phase.isQuiet = false) :
    id ∈ world.arrived ∧ world.closed = false := by
  constructor
  · by_contra hmem
    rw [h.fresh id hmem] at hactive
    cases hactive
  · cases hclosed : world.closed with
    | false => rfl
    | true =>
        rw [(h.closed hclosed).2 id] at hactive
        cases hactive

/-- No event of a request without a permit is in flight. -/
theorem inFlightOf_length (h : Ledger slots record world) (id : RequestId) :
    (world.inFlightOf id).length ≤ (world.holdsPermit id).toNat * maxEventsPerRequest := by
  obtain ⟨handled, hsplit, haccount⟩ := h.told id
  have hlength : (world.inFlightOf id).length ≤ maxEventsPerRequest := by
    refine le_trans ?_ (h.story id).sent_length
    rw [hsplit, List.length_append]
    exact Nat.le_add_left _ _
  cases hholds : world.holdsPermit id with
  | true => simpa using hlength
  | false =>
      simp only [AuditWorld.holdsPermit, Bool.or_eq_false_iff, Bool.and_eq_false_iff] at hholds
      have hnil : world.inFlightOf id = [] := by
        rcases hholds.2 with hsent | hrecords
        · rw [Bool.not_eq_false', List.isEmpty_iff, hsplit] at hsent
          exact (List.append_eq_nil_iff.mp hsent).2
        · rw [haccount] at hrecords
          rcases (h.story id).account id hsplit with ⟨_, hafter⟩ | ⟨_, _, _, hafter⟩ | ⟨_, hflight, _⟩
          · rw [hafter] at hrecords
            cases hrecords
          · rw [hafter] at hrecords
            cases hrecords
          · exact hflight
      simp [hnil]

theorem inFlight_arrived (h : Ledger slots record world) : ∀ event ∈ world.inFlight, event.id ∈ world.arrived := by
  intro event hevent
  by_contra hmem
  obtain ⟨handled, hsplit, _⟩ := h.told event.id
  rw [h.fresh event.id hmem] at hsplit
  have hnil := (List.append_eq_nil_iff.mp hsplit.symm).2
  rw [AuditWorld.inFlightOf, List.map_eq_nil_iff, List.filter_eq_nil_iff] at hnil
  exact hnil event hevent (by simp)

/-- There is room for an event that its request may still report. -/
theorem room (h : Ledger slots record world) (hid : id ∈ world.arrived) (hholds : world.holdsPermit id = true)
    (hsent : (world.requests id).sent.length < maxEventsPerRequest) :
    world.queue.length < slots * maxEventsPerRequest := by
  obtain ⟨handled, hsplit, _⟩ := h.told id
  rw [hsplit, List.length_append] at hsent
  -- the events in flight together with one more of this request
  have hlength := Counting.length_le_of_fibres LogEvent.id (⟨id, .requestError ""⟩ :: world.inFlight)
    world.holdsPermit maxEventsPerRequest h.nodup
    (fun event hevent => by
      rcases List.mem_cons.mp hevent with rfl | hevent
      · exact hid
      · exact h.inFlight_arrived event hevent)
    (fun other _ => by
      have hother := h.inFlightOf_length other
      rw [AuditWorld.inFlightOf, List.length_map, ← List.countP_eq_length_filter] at hother
      rw [List.countP_cons]
      by_cases heq : id = other
      · subst heq
        rw [AuditWorld.inFlightOf, List.length_map, ← List.countP_eq_length_filter] at hsent
        simp only [beq_self_eq_true, if_true, hholds, Bool.toNat_true, Nat.one_mul]
        omega
      · simpa [heq] using hother)
  have hqueue : world.queue.length ≤ world.inFlight.length := by
    rw [AuditWorld.inFlight, List.length_append]
    exact Nat.le_add_left _ _
  rw [← h.counted, List.length_cons] at hlength
  calc world.queue.length < world.inFlight.length + 1 := Nat.lt_succ_of_le hqueue
    _ ≤ world.admitted * maxEventsPerRequest := hlength
    _ ≤ slots * maxEventsPerRequest := Nat.mul_le_mul_right _ h.bounded

theorem records_of_active (h : Ledger slots record world) (hactive : (world.requests id).phase.isQuiet = false) :
    (world.writer.account id).records = [] := by
  obtain ⟨handled, hsplit, haccount⟩ := h.told id
  rw [haccount]
  rcases (h.story id).account id hsplit with ⟨_, hafter⟩ | ⟨_, _, entry, hafter⟩ | ⟨hquiet, _⟩
  · rw [hafter]
    rfl
  · rw [hafter]
  · rw [hactive] at hquiet
    cases hquiet

/-- A step of one request keeps the stories of the others. -/
theorem story_step (h : Ledger slots record world) (hsender : op.sender = some id)
    (hframe : ∀ other, other ≠ id → next.requests other = world.requests other)
    (hstory : Story (yielded id record ++ op.data id) ((firstEnding id record).or (bodyEnding id world op))
      (next.requests id)) (other : RequestId) :
    Story (yielded other (⟨world, op, next⟩ :: record)) (firstEnding other (⟨world, op, next⟩ :: record))
      (next.requests other) := by
  by_cases hother : other = id
  · subst hother
    exact hstory
  · have hne : op.sender ≠ some other := by
      rw [hsender]
      exact fun heq => hother (Option.some.inj heq).symm
    rw [yielded, firstEnding, AuditOp.data_of_ne hne, bodyEnding_of_ne hne, List.append_nil, Option.or_none,
      hframe other hother]
    exact h.story other

/-- A request goes to another phase without reporting anything. -/
theorem move (h : Ledger slots record world) (hsender : op.sender = some id)
    (hactive : (world.requests id).phase.isQuiet = false) {phase : Phase} (admitted : Nat)
    (hstory : Story (yielded id record ++ op.data id)
      ((firstEnding id record).or (bodyEnding id world op))
      ⟨phase, (world.requests id).sent⟩)
    (hcount : admitted + (world.holdsPermit id).toNat = world.admitted +
      (AuditWorld.holdsPermit { world.setPhase id phase with admitted := admitted } id).toNat)
    (hbound : admitted ≤ slots) :
    Ledger slots (⟨world, op, { world.setPhase id phase with admitted := admitted }⟩ :: record)
      { world.setPhase id phase with admitted := admitted } := by
  obtain ⟨hid, hopen⟩ := h.active hactive
  have hframe : ∀ other, other ≠ id → (world.setPhase id phase).requests other = world.requests other :=
    fun other hother => Function.update_of_ne hother _ _
  have hself : (world.setPhase id phase).requests id = ⟨phase, (world.requests id).sent⟩ :=
    Function.update_self _ _ _
  refine ⟨h.nodup, ?_, ?_, ?_, h.healthy, h.lost, ?_, hbound, ?_⟩
  · intro other hother
    exact (hframe other (fun heq => hother (heq ▸ hid))).trans (h.fresh other hother)
  · exact h.story_step hsender hframe (hself ▸ hstory)
  · intro other
    obtain ⟨handled, hsplit, haccount⟩ := h.told other
    refine ⟨handled, ?_, haccount⟩
    by_cases hother : other = id
    · subst hother
      exact (congrArg AuditedRequest.sent hself).trans hsplit
    · exact (congrArg AuditedRequest.sent (hframe other hother)).trans hsplit
  · have hmoved := Counting.countP_of_frame (p := world.holdsPermit)
      (q := AuditWorld.holdsPermit { world.setPhase id phase with admitted := admitted }) h.nodup hid (by
        intro other hother
        simp only [AuditWorld.holdsPermit]
        rw [hframe other hother]
        rfl)
    have hcounted := h.counted
    show admitted = world.arrived.countP _
    omega
  · intro hclosed
    rw [show world.closed = true from hclosed] at hopen
    cases hopen

/-- A request reports an event. -/
theorem report (h : Ledger slots record world) (hsender : op.sender = some id)
    (hactive : (world.requests id).phase.isQuiet = false) (hholds : world.holdsPermit id = true)
    {body : EventBody} {phase : Phase}
    (hstory : Story (yielded id record ++ op.data id)
      ((firstEnding id record).or (bodyEnding id world op))
      ⟨phase, (world.requests id).sent ++ [body]⟩) :
    Ledger slots (⟨world, op, world.report slots id body phase⟩ :: record) (world.report slots id body phase) := by
  obtain ⟨hid, hopen⟩ := h.active hactive
  have hsent : (world.requests id).sent.length < maxEventsPerRequest := by
    have hlength := hstory.sent_length
    rw [List.length_append] at hlength
    exact hlength
  have hroom := h.room hid hholds hsent
  have hnext : world.report slots id body phase =
      { world with
        queue := world.queue ++ [⟨id, body⟩]
        requests := Function.update world.requests id ⟨phase, (world.requests id).sent ++ [body]⟩ } := by
    simp [AuditWorld.report, AuditWorld.trySend, hroom, AuditWorld.setRequest]
  rw [hnext]
  have hframe : ∀ other, other ≠ id → Function.update world.requests id
      ⟨phase, (world.requests id).sent ++ [body]⟩ other = world.requests other :=
    fun other hother => Function.update_of_ne hother _ _
  refine ⟨h.nodup, ?_, ?_, ?_, h.healthy, h.lost, ?_, h.bounded, ?_⟩
  · intro other hother
    exact (hframe other (fun heq => hother (heq ▸ hid))).trans (h.fresh other hother)
  · exact h.story_step hsender hframe (by simpa using hstory)
  · intro other
    obtain ⟨handled, hsplit, haccount⟩ := h.told other
    refine ⟨handled, ?_, haccount⟩
    by_cases hother : other = id
    · subst hother
      simp only [Function.update_self]
      rw [hsplit, List.append_assoc]
      simp [AuditWorld.inFlightOf, AuditWorld.inFlight]
    · simp only [Function.update_of_ne hother]
      rw [hsplit]
      simp [AuditWorld.inFlightOf, AuditWorld.inFlight, Ne.symm hother]
  · rw [h.counted]
    apply List.countP_congr
    intro other _
    by_cases hother : other = id
    · subst hother
      have hrecords := h.records_of_active hactive
      rw [hholds]
      simp [AuditWorld.holdsPermit, hrecords]
    · simp [AuditWorld.holdsPermit, Function.update_of_ne hother]
  · intro hclosed
    rw [show world.closed = true from hclosed] at hopen
    cases hopen

theorem live (h : Ledger slots record world) (hactive : (world.requests id).phase.isQuiet = false)
    (hsent : (world.requests id).sent ≠ []) : world.holdsPermit id = true := by
  simp [AuditWorld.holdsPermit, h.records_of_active hactive, hsent]

/-- The handler changes its phase and reports nothing. -/
theorem move_handler (h : Ledger slots record world) (hsender : op.sender = some id) {phase : Phase}
    {count count' : Nat}
    (hphase : (world.requests id).phase.middleEvents = some count) (hphase' : phase.middleEvents = some count')
    (hcount : count ≤ count') (hdata : op.data id = [])
    (hending : bodyEnding id world op = none) :
    Ledger slots (⟨world, op, world.setPhase id phase⟩ :: record) (world.setPhase id phase) := by
  obtain ⟨hframes, hnone, at₀, info, rest, hlength, hrest, hsent⟩ := (h.story id).of_handler hphase
  have hactive := (Phase.of_middleEvents hphase).2.1
  have hlive := h.live hactive (by rw [hsent]; exact List.cons_ne_nil _ _)
  refine h.move hsender hactive world.admitted ?_ ?_ h.bounded
  · rw [hframes, hnone, hdata, hending, hsent]
    exact .handler hphase' (le_trans hlength hcount) hrest
  · rw [hlive]
    simp [AuditWorld.holdsPermit, AuditWorld.setPhase, AuditWorld.setRequest, hsent,
      h.records_of_active hactive]

/-- The handler reports an event in between. -/
theorem report_handler (h : Ledger slots record world) (hsender : op.sender = some id) {body : EventBody}
    {phase : Phase} {count count' : Nat}
    (hphase : (world.requests id).phase.middleEvents = some count) (hphase' : phase.middleEvents = some count')
    (hcount : count < count') (hbody : body.isMiddle = true) (hdata : op.data id = [])
    (hending : bodyEnding id world op = none) :
    Ledger slots (⟨world, op, world.report slots id body phase⟩ :: record) (world.report slots id body phase) := by
  obtain ⟨hframes, hnone, at₀, info, rest, hlength, hrest, hsent⟩ := (h.story id).of_handler hphase
  have hactive := (Phase.of_middleEvents hphase).2.1
  apply h.report hsender hactive (h.live hactive (by rw [hsent]; exact List.cons_ne_nil _ _))
  rw [hframes, hnone, hdata, hending, hsent, List.cons_append]
  refine .handler hphase' ?_ ?_
  · rw [List.length_append]
    exact le_trans (Nat.add_le_add_right hlength 1) hcount
  · intro event hevent
    rcases List.mem_append.mp hevent with hevent | hevent
    · exact hrest event hevent
    · rw [List.mem_singleton.mp hevent]
      exact hbody

/-- The guard of the body finishes. -/
theorem finish_body (h : Ledger slots record world) (hsender : op.sender = some id) (ending : BodyEnding)
    {observation : BodyObservation} {startedAtUnixMs atUnixMs : Nat} {info : RequestInfo} {rest : List EventBody}
    (hactive : (world.requests id).phase.isQuiet = false) (hnone : firstEnding id record = none)
    (hlength : rest.length ≤ 3) (hrest : ∀ event ∈ rest, event.isMiddle = true)
    (hsent : (world.requests id).sent = .requestStarted startedAtUnixMs info :: rest)
    (hbytes : observation.responseBytes = byteCount (yielded id record ++ op.data id))
    (hending : bodyEnding id world op = some ending) :
    Ledger slots (⟨world, op,
      world.report slots id (.responseFinished atUnixMs ending.outcome observation) .finished⟩ :: record)
      (world.report slots id (.responseFinished atUnixMs ending.outcome observation) .finished) := by
  apply h.report hsender hactive (h.live hactive (by rw [hsent]; exact List.cons_ne_nil _ _))
  rw [hnone, hending, hsent, List.cons_append]
  exact .finished hlength hrest hbytes

/-- Steps after which everything but the record of the run is as before. -/
theorem stay (h : Ledger slots record world)
    (hstory : ∀ other, Story (yielded other (⟨world, op, world⟩ :: record))
      (firstEnding other (⟨world, op, world⟩ :: record)) (world.requests other)) :
    Ledger slots (⟨world, op, world⟩ :: record) world :=
  ⟨h.nodup, h.fresh, hstory, h.told, h.healthy, h.lost, h.counted, h.bounded, h.closed⟩

/-- A step that is not about one request keeps every story. -/
theorem story_other (h : Ledger slots record world) (hsender : op.sender = none)
    (hrequests : next.requests = world.requests)
    (other : RequestId) :
    Story (yielded other (⟨world, op, next⟩ :: record)) (firstEnding other (⟨world, op, next⟩ :: record))
      (next.requests other) := by
  have hne : op.sender ≠ some other := by
    rw [hsender]
    exact Option.some_ne_none other |>.symm
  rw [yielded, firstEnding, AuditOp.data_of_ne hne, bodyEnding_of_ne hne, List.append_nil, Option.or_none,
    hrequests]
  exact h.story other

theorem step_arrive (h : Ledger slots record world) (info : RequestInfo)
    (hnext : world.step decode slots (.arrive id info) = some next) :
    Ledger slots (⟨world, .arrive id info, next⟩ :: record) next := by
  simp only [AuditWorld.step, h.healthy, if_true] at hnext
  split at hnext
  · cases hnext
  · rename_i hnew
    push Not at hnew
    obtain ⟨hmem, hopen⟩ := hnew
    cases hnext
    have hfresh := h.fresh id hmem
    have hframe : ∀ other, other ≠ id → (world.setPhase id (.checked info)).requests other = world.requests other :=
      fun other hother => Function.update_of_ne hother _ _
    have hself : (world.setPhase id (.checked info)).requests id = ⟨.checked info, []⟩ := by
      simp [AuditWorld.setPhase, AuditWorld.setRequest, hfresh, AuditedRequest.fresh]
    refine ⟨List.nodup_cons.mpr ⟨hmem, h.nodup⟩, ?_, ?_, ?_, h.healthy, h.lost, ?_, h.bounded, ?_⟩
    · intro other hother
      rw [List.mem_cons, not_or] at hother
      exact (hframe other hother.1).trans (h.fresh other hother.2)
    · apply h.story_step rfl hframe
      obtain ⟨hframes, hnone, _⟩ := (h.story id).of_early (by rw [hfresh]; rfl)
      rw [hframes, hnone]
      show Story [] none ((world.setPhase id (.checked info)).requests id)
      rw [hself]
      exact .early rfl
    · intro other
      obtain ⟨handled, hsplit, haccount⟩ := h.told other
      refine ⟨handled, ?_, haccount⟩
      by_cases hother : other = id
      · subst hother
        rw [hfresh] at hsplit
        exact (congrArg AuditedRequest.sent hself).trans hsplit
      · exact (congrArg AuditedRequest.sent (hframe other hother)).trans hsplit
    · rw [List.countP_cons_of_neg]
      · show world.admitted = _
        rw [h.counted]
        apply List.countP_congr
        intro other hother
        have hne : other ≠ id := fun heq => hmem (heq ▸ hother)
        simp only [AuditWorld.holdsPermit]
        rw [hframe other hne]
        rfl
      · simp only [AuditWorld.holdsPermit]
        rw [hself]
        simp [Phase.isReserving]
    · intro hclosed
      exact absurd hclosed hopen

theorem step_receive (h : Ledger slots record world) (hnext : world.step decode slots .receive = some next) :
    Ledger slots (⟨world, .receive, next⟩ :: record) next := by
  simp only [AuditWorld.step] at hnext
  split at hnext
  · rename_i event rest hhand hqueue
    cases hnext
    have hflight : AuditWorld.inFlight { world with hand := some event, queue := rest } = world.inFlight := by
      simp [AuditWorld.inFlight, hhand, hqueue]
    refine ⟨h.nodup, h.fresh, h.story_other rfl rfl, ?_, h.healthy, h.lost, h.counted, h.bounded, ?_⟩
    · intro id
      obtain ⟨handled, hsplit, haccount⟩ := h.told id
      refine ⟨handled, ?_, haccount⟩
      rw [AuditWorld.inFlightOf, hflight]
      exact hsplit
    · intro hclosed
      rw [hflight]
      exact h.closed hclosed
  · cases hnext

/-- The writer handles the event it holds, the oldest of its request in flight. -/
theorem told_handle (h : Ledger slots record world) {event : LogEvent} (hhand : world.hand = some event) :
    ∃ handled, (world.requests event.id).sent = handled ++ event.body ::
        AuditWorld.inFlightOf event.id { world with hand := none } ∧
      world.writer.account event.id = Account.after event.id handled := by
  obtain ⟨handled, hsplit, haccount⟩ := h.told event.id
  refine ⟨handled, ?_, haccount⟩
  rw [hsplit]
  simp [AuditWorld.inFlightOf, AuditWorld.inFlight, hhand]

theorem step_handle (h : Ledger slots record world) (hnext : world.step decode slots .handle = some next) :
    Ledger slots (⟨world, .handle, next⟩ :: record) next := by
  cases hhand : world.hand with
  | none => simp [AuditWorld.step, hhand] at hnext
  | some event =>
      obtain ⟨handled, hsplit, haccount⟩ := h.told_handle hhand
      have hid : event.id ∈ world.arrived := h.inFlight_arrived event (by simp [AuditWorld.inFlight, hhand])
      -- what the step does to every request but the counter
      have hbase : ∀ admitted, admitted ≤ slots →
          admitted = world.arrived.countP
            (AuditWorld.holdsPermit { world with hand := none, writer := world.writer.handleEvent event }) →
          Ledger slots (⟨world, .handle, { world with
              hand := none, writer := world.writer.handleEvent event, admitted := admitted }⟩ :: record)
            { world with hand := none, writer := world.writer.handleEvent event, admitted := admitted } := by
        intro admitted hbound hcounted
        refine ⟨h.nodup, h.fresh, h.story_other rfl rfl, ?_, h.healthy, h.lost, hcounted, hbound, ?_⟩
        · intro other
          by_cases hother : other = event.id
          · subst hother
            refine ⟨handled ++ [event.body], ?_, ?_⟩
            · rw [List.append_assoc]
              exact hsplit
            · rw [Writer.account_handleEvent, if_pos rfl, haccount, Account.after_snoc]
          · obtain ⟨before, hbefore, hafter⟩ := h.told other
            refine ⟨before, ?_, ?_⟩
            · rw [show (world.requests other).sent = before ++ world.inFlightOf other from hbefore]
              simp [AuditWorld.inFlightOf, AuditWorld.inFlight, hhand, Ne.symm hother]
            · rw [Writer.account_handleEvent, if_neg hother, hafter]
        · intro hclosed
          have hflight := (h.closed hclosed).1
          simp [AuditWorld.inFlight, hhand] at hflight
      have hmoved := Counting.countP_of_frame (p := world.holdsPermit)
        (q := AuditWorld.holdsPermit { world with hand := none, writer := world.writer.handleEvent event })
        h.nodup hid (by
          intro other hother
          simp only [AuditWorld.holdsPermit]
          rw [Writer.account_handleEvent, if_neg hother])
      have hafter : AuditWorld.holdsPermit
          { world with hand := none, writer := world.writer.handleEvent event } event.id =
          ((world.requests event.id).phase.isReserving ||
            (!(world.requests event.id).sent.isEmpty &&
              ((Account.after event.id handled).handle event.id event.body).records.isEmpty)) := by
        simp only [AuditWorld.holdsPermit]
        rw [Writer.account_handleEvent, if_pos rfl, haccount]
      have hsent : (world.requests event.id).sent.isEmpty = false := by
        rw [hsplit]
        simp
      have hbefore : world.holdsPermit event.id = ((world.requests event.id).phase.isReserving ||
          (Account.after event.id handled).records.isEmpty) := by
        rw [AuditWorld.holdsPermit, haccount, hsent]
        simp
      have hreserving : (world.requests event.id).phase.isReserving = false := by
        cases hphase : (world.requests event.id).phase.isReserving with
        | false => rfl
        | true =>
            have hearly : (world.requests event.id).phase.isEarly = true := by
              cases hcase : (world.requests event.id).phase <;> rw [hcase] at hphase <;> first | rfl | cases hphase
            rw [((h.story event.id).of_early hearly).2.2] at hsent
            cases hsent
      rw [hsent, hreserving] at hafter
      rw [hreserving] at hbefore
      simp only [AuditWorld.step, hhand] at hnext
      rw [haccount] at hnext
      rcases (h.story event.id).handle_next event.id hsplit with ⟨hreleased, hrecords⟩ | ⟨hreleased, hnone, hsome⟩
      · rw [if_pos hreleased] at hnext
        cases hnext
        apply hbase world.admitted h.bounded
        rw [hafter, hbefore, hrecords] at hmoved
        have hcounted := h.counted
        simp only [Bool.not_false, Bool.true_and, Bool.false_or] at hmoved
        omega
      · rw [if_neg (by rw [hreleased]; decide)] at hnext
        cases hnext
        rw [hafter, hbefore, hnone] at hmoved
        have hcounted := h.counted
        have hbound := h.bounded
        have hempty : ((Account.after event.id handled).handle event.id event.body).records.isEmpty = false := by
          simpa using hsome
        rw [hempty] at hmoved
        simp only [Bool.not_false, Bool.true_and, Bool.false_or, List.isEmpty_nil, Bool.toNat_true,
          Bool.toNat_false] at hmoved
        have hpositive : world.admitted ≠ 0 := by omega
        simp only [AuditWorld.releasePermit, if_neg hpositive]
        exact hbase (world.admitted - 1) (by omega) (by omega)

/-- With every sender gone nothing is pending. -/
theorem pending_of_quiet (h : Ledger slots record world) (hflight : world.inFlight = [])
    (hquiet : ∀ id, (world.requests id).phase.isQuiet = true) : world.writer.pending = fun _ => none := by
  funext id
  obtain ⟨handled, hsplit, haccount⟩ := h.told id
  have hnil : world.inFlightOf id = [] := by simp [AuditWorld.inFlightOf, hflight]
  have hpending : world.writer.pending id = (Account.after id handled).pending := by
    rw [← haccount]
    rfl
  rw [hpending]
  rcases (h.story id).account id hsplit with ⟨_, hafter⟩ | ⟨_, hsome, _⟩ | ⟨_, _, _, hafter⟩
  · rw [hafter]
    rfl
  · exact absurd hnil (hsome (hquiet id))
  · rw [hafter]

theorem step_shutDown (h : Ledger slots record world) (nowUnixMs : Nat)
    (hnext : world.step decode slots (.shutDown nowUnixMs) = some next) :
    Ledger slots (⟨world, .shutDown nowUnixMs, next⟩ :: record) next := by
  simp only [AuditWorld.step] at hnext
  split at hnext
  · rename_i hidle
    obtain ⟨_, hhand, hqueue, hall⟩ := hidle
    cases hnext
    have hflight : world.inFlight = [] := by simp [AuditWorld.inFlight, hhand, hqueue]
    have hquiet : ∀ id, (world.requests id).phase.isQuiet = true := by
      intro id
      by_cases hmem : id ∈ world.arrived
      · exact List.all_eq_true.mp hall id hmem
      · rw [h.fresh id hmem]
        rfl
    rw [Writer.shutDown_of_idle (h.pending_of_quiet hflight hquiet)]
    exact ⟨h.nodup, h.fresh, h.story_other rfl rfl, h.told, h.healthy, h.lost, h.counted, h.bounded,
      fun _ => ⟨hflight, hquiet⟩⟩
  · cases hnext

theorem step_poll (h : Ledger slots record world) (nowUnixMs : Nat) (result : BodyPoll)
    (hnext : world.step decode slots (.poll id nowUnixMs result) = some next) :
    Ledger slots (⟨world, .poll id nowUnixMs result, next⟩ :: record) next := by
  cases hphase : (world.requests id).phase with
  | streaming completion =>
      obtain ⟨hnone, hbytes, at₀, info, rest, hlength, hrest, hsent⟩ := (h.story id).of_streaming hphase
      have hactive : (world.requests id).phase.isQuiet = false := by rw [hphase]; rfl
      simp only [AuditWorld.step, hphase] at hnext
      cases result with
      | pending =>
          cases hnext
          refine h.stay (h.story_step rfl (fun _ _ => rfl) ?_)
          simpa [AuditOp.data, bodyEnding, BodyPoll.ending] using h.story id
      | frame data endStream =>
          have hdata : (data.elim completion fun bytes => completion.observe decode bytes nowUnixMs).responseBytes =
              byteCount (yielded id record ++ AuditOp.data id (.poll id nowUnixMs (.frame data endStream))) := by
            cases data with
            | none => simpa [AuditOp.data] using hbytes
            | some bytes => simp [AuditOp.data, Completion.observe, byteCount_snoc, hbytes]
          cases endStream with
          | true =>
              cases hnext
              exact h.finish_body rfl .endOfStream hactive hnone hlength hrest hsent hdata
                (by simp [bodyEnding, BodyPoll.ending])
          | false =>
              cases hnext
              refine h.move rfl hactive world.admitted ?_ ?_ h.bounded
              · rw [hnone, hsent]
                simp only [bodyEnding, BodyPoll.ending, if_true, Option.or_none]
                exact .streaming hlength hrest hdata
              · rw [h.live hactive (by rw [hsent]; exact List.cons_ne_nil _ _)]
                simp [AuditWorld.holdsPermit, AuditWorld.setPhase, AuditWorld.setRequest, hsent,
                  h.records_of_active hactive]
      | error text =>
          cases hnext
          exact h.finish_body rfl (.error text) hactive hnone hlength hrest hsent
            (by simpa [AuditOp.data, Completion.observation] using hbytes) (by simp [bodyEnding, BodyPoll.ending])
      | none =>
          cases hnext
          exact h.finish_body rfl .endOfStream hactive hnone hlength hrest hsent
            (by simpa [AuditOp.data, Completion.observation] using hbytes) (by simp [bodyEnding, BodyPoll.ending])
  | finished =>
      have hdata : AuditOp.data id (.poll id nowUnixMs result) = [] ∧ next = world := by
        simp only [AuditWorld.step, hphase] at hnext
        rcases result with _ | ⟨_ | _, _⟩ | _ | _ <;> cases hnext <;> exact ⟨by simp [AuditOp.data], rfl⟩
      obtain ⟨hdata, rfl⟩ := hdata
      refine h.stay (h.story_step rfl (fun _ _ => rfl) ?_)
      rw [hdata, List.append_nil, (h.story id).of_finished hphase]
      exact h.story id
  | _ =>
      simp only [AuditWorld.step, hphase] at hnext
      cases hnext

theorem step_dropBody (h : Ledger slots record world) (nowUnixMs : Nat)
    (hnext : world.step decode slots (.dropBody id nowUnixMs) = some next) :
    Ledger slots (⟨world, .dropBody id nowUnixMs, next⟩ :: record) next := by
  cases hphase : (world.requests id).phase with
  | streaming completion =>
      obtain ⟨hnone, hbytes, at₀, info, rest, hlength, hrest, hsent⟩ := (h.story id).of_streaming hphase
      have hactive : (world.requests id).phase.isQuiet = false := by rw [hphase]; rfl
      simp only [AuditWorld.step, hphase] at hnext
      cases hnext
      exact h.finish_body rfl .dropped hactive hnone hlength hrest hsent
        (by simpa [AuditOp.data, Completion.observation] using hbytes) (by simp [bodyEnding])
  | finished =>
      simp only [AuditWorld.step, hphase] at hnext
      cases hnext
      refine h.stay (h.story_step rfl (fun _ _ => rfl) ?_)
      rw [(h.story id).of_finished hphase]
      simpa [AuditOp.data] using h.story id
  | _ =>
      simp only [AuditWorld.step, hphase] at hnext
      cases hnext

theorem step_responseBody (h : Ledger slots record world) (nowUnixMs : Nat)
    (hnext : world.step decode slots (.responseBody id nowUnixMs) = some next) :
    Ledger slots (⟨world, .responseBody id nowUnixMs, next⟩ :: record) next := by
  cases hphase : (world.requests id).phase with
  | started response =>
      obtain ⟨hframes, hnone, at₀, info, rest, hlength, hrest, hsent⟩ :=
        (h.story id).of_handler (show (world.requests id).phase.middleEvents = some 3 by rw [hphase]; rfl)
      have hactive : (world.requests id).phase.isQuiet = false := by rw [hphase]; rfl
      have hzero : byteCount (yielded id record ++ AuditOp.data id (.responseBody id nowUnixMs)) = 0 := by
        rw [hframes]
        rfl
      simp only [AuditWorld.step, hphase] at hnext
      split at hnext
      · rename_i hend
        cases hnext
        exact h.finish_body rfl .endOfStream hactive hnone hlength hrest hsent hzero.symm
          (by simp [bodyEnding, hphase, hend])
      · rename_i hend
        cases hnext
        refine h.move rfl hactive world.admitted ?_ ?_ h.bounded
        · have hending : bodyEnding id world (.responseBody id nowUnixMs) = none := by
            simp [bodyEnding, hphase, hend]
          rw [hnone, hsent, hending]
          exact .streaming hlength hrest hzero.symm
        · rw [h.live hactive (by rw [hsent]; exact List.cons_ne_nil _ _)]
          simp [AuditWorld.holdsPermit, AuditWorld.setPhase, AuditWorld.setRequest, hsent,
            h.records_of_active hactive]
  | _ =>
      simp only [AuditWorld.step, hphase] at hnext
      cases hnext

theorem step_reserve (h : Ledger slots record world) (hnext : world.step decode slots (.reserve id) = some next) :
    Ledger slots (⟨world, .reserve id, next⟩ :: record) next := by
  cases hphase : (world.requests id).phase with
  | checked info =>
      obtain ⟨hframes, hnone, hsent⟩ := (h.story id).of_early (by rw [hphase]; rfl)
      have hactive : (world.requests id).phase.isQuiet = false := by rw [hphase]; rfl
      have hfree : world.holdsPermit id = false := by
        simp [AuditWorld.holdsPermit, hphase, hsent, Phase.isReserving]
      simp only [AuditWorld.step, hphase] at hnext
      split at hnext
      · rename_i hroom
        cases hnext
        refine h.move rfl hactive (world.admitted + 1) ?_ ?_ hroom
        · rw [hframes, hnone, hsent]
          exact .early rfl
        · rw [hfree]
          simp [AuditWorld.holdsPermit, AuditWorld.setPhase, AuditWorld.setRequest, Phase.isReserving]
      · cases hnext
        refine h.move rfl hactive world.admitted ?_ ?_ h.bounded
        · rw [hframes, hnone, hsent]
          exact .early rfl
        · rw [hfree]
          simp [AuditWorld.holdsPermit, AuditWorld.setPhase, AuditWorld.setRequest, hsent, Phase.isReserving]
  | _ =>
      simp only [AuditWorld.step, hphase] at hnext
      cases hnext

theorem step_recheck (h : Ledger slots record world) (hnext : world.step decode slots (.recheck id) = some next) :
    Ledger slots (⟨world, .recheck id, next⟩ :: record) next := by
  cases hphase : (world.requests id).phase with
  | reserved info =>
      obtain ⟨hframes, hnone, hsent⟩ := (h.story id).of_early (by rw [hphase]; rfl)
      simp only [AuditWorld.step, hphase, h.healthy, if_true] at hnext
      cases hnext
      refine h.move rfl (by rw [hphase]; rfl) world.admitted ?_ ?_ h.bounded
      · rw [hframes, hnone, hsent]
        exact .early rfl
      · simp [AuditWorld.holdsPermit, AuditWorld.setPhase, AuditWorld.setRequest, hphase, Phase.isReserving]
  | _ =>
      simp only [AuditWorld.step, hphase] at hnext
      cases hnext

theorem step_enqueue (h : Ledger slots record world) (nowUnixMs : Nat)
    (hnext : world.step decode slots (.enqueue id nowUnixMs) = some next) :
    Ledger slots (⟨world, .enqueue id nowUnixMs, next⟩ :: record) next := by
  cases hphase : (world.requests id).phase with
  | cleared info =>
      obtain ⟨hframes, hnone, hsent⟩ := (h.story id).of_early (by rw [hphase]; rfl)
      have hactive : (world.requests id).phase.isQuiet = false := by rw [hphase]; rfl
      have hholds : world.holdsPermit id = true := by
        simp [AuditWorld.holdsPermit, hphase, Phase.isReserving]
      have hroom := h.room (h.active hactive).1 hholds (by rw [hsent]; decide)
      have hreport : next = world.report slots id (.requestStarted nowUnixMs info) (.admitted info) := by
        simp only [AuditWorld.step, hphase, AuditWorld.trySend, hroom, if_true, Option.some.injEq] at hnext
        rw [← hnext, AuditWorld.report, hsent, AuditWorld.trySend, if_pos hroom]
        rfl
      rw [hreport]
      apply h.report rfl hactive hholds
      rw [hframes, hnone, hsent]
      exact .handler (show (Phase.admitted info).middleEvents = some 0 from rfl) (Nat.le_refl 0) (by simp)
  | _ =>
      simp only [AuditWorld.step, hphase] at hnext
      cases hnext

theorem step_abandon (h : Ledger slots record world) (nowUnixMs : Nat)
    (hnext : world.step decode slots (.abandon id nowUnixMs) = some next) :
    Ledger slots (⟨world, .abandon id nowUnixMs, next⟩ :: record) next := by
  have hhandler : ∃ count, (world.requests id).phase.middleEvents = some count ∧
      next = world.report slots id (.responseFinished nowUnixMs .abandoned .nothing) .abandoned := by
    cases hphase : (world.requests id).phase with
    | admitted | routed =>
        simp only [AuditWorld.step, hphase] at hnext
        exact ⟨_, rfl, (Option.some.inj hnext).symm⟩
    | _ =>
        simp only [AuditWorld.step, hphase] at hnext
        cases hnext
  obtain ⟨count, hphase, rfl⟩ := hhandler
  obtain ⟨hframes, hnone, at₀, info, rest, hlength, hrest, hsent⟩ := (h.story id).of_handler hphase
  obtain ⟨_, hactive, hcount⟩ := Phase.of_middleEvents hphase
  apply h.report rfl hactive (h.live hactive (by rw [hsent]; exact List.cons_ne_nil _ _))
  rw [hframes, hnone, hsent, List.cons_append]
  exact .abandoned (le_trans hlength hcount) hrest

/-- Every step keeps the invariant. -/
theorem step (h : Ledger slots record world) (hnext : world.step decode slots op = some next) :
    Ledger slots (⟨world, op, next⟩ :: record) next := by
  cases op with
  | arrive id info => exact h.step_arrive info hnext
  | reserve id => exact h.step_reserve hnext
  | recheck id => exact h.step_recheck hnext
  | enqueue id nowUnixMs => exact h.step_enqueue nowUnixMs hnext
  | abandon id nowUnixMs => exact h.step_abandon nowUnixMs hnext
  | responseBody id nowUnixMs => exact h.step_responseBody nowUnixMs hnext
  | poll id nowUnixMs result => exact h.step_poll nowUnixMs result hnext
  | dropBody id nowUnixMs => exact h.step_dropBody nowUnixMs hnext
  | receive => exact h.step_receive hnext
  | handle => exact h.step_handle hnext
  | shutDown nowUnixMs => exact h.step_shutDown nowUnixMs hnext
  -- the remaining operations are those of the handler
  | reject id response =>
      simp only [AuditWorld.step] at hnext
      split at hnext
      · rename_i hphase
        split at hnext
        · cases hnext
        · cases hnext
          exact h.move_handler rfl (by rw [hphase]; rfl) rfl (Nat.zero_le 2) rfl rfl
      · cases hnext
  | noBackend id nowUnixMs response =>
      simp only [AuditWorld.step] at hnext
      split at hnext
      · rename_i hphase
        split at hnext
        · cases hnext
          exact h.report_handler rfl (by rw [hphase]; rfl) rfl (Nat.zero_lt_succ 1) rfl rfl rfl
        · cases hnext
      · cases hnext
  | route id nowUnixMs decision =>
      simp only [AuditWorld.step] at hnext
      split at hnext
      · rename_i hphase
        split at hnext
        · cases hnext
          exact h.report_handler rfl (by rw [hphase]; rfl) rfl Nat.zero_lt_one rfl rfl rfl
        · cases hnext
      · cases hnext
  | respond id response =>
      simp only [AuditWorld.step] at hnext
      split at hnext
      · rename_i hphase
        cases hnext
        exact h.move_handler rfl (by rw [hphase]; rfl) rfl (Nat.le_succ 1) rfl rfl
      · cases hnext
  | transportError id text response =>
      simp only [AuditWorld.step] at hnext
      split at hnext
      · rename_i hphase
        cases hnext
        exact h.report_handler rfl (by rw [hphase]; rfl) rfl (Nat.lt_succ_self 1) rfl rfl rfl
      · cases hnext
  | responseStarted id =>
      simp only [AuditWorld.step] at hnext
      split at hnext
      · rename_i hphase
        cases hnext
        exact h.report_handler rfl (by rw [hphase]; rfl) rfl (Nat.lt_succ_self 2) rfl rfl rfl
      · cases hnext

/-- The invariant of every run. -/
theorem of_run (hrun : Run (auditSystem decode slots) Free record world) : Ledger slots record world := by
  refine hrun.induct (motive := fun record world => Ledger slots record world) ?_ ?_
  · rintro world rfl
    refine ⟨List.nodup_nil, fun _ _ => rfl, fun _ => .early rfl, ?_, rfl, rfl, rfl, Nat.zero_le _, ?_⟩
    · intro id
      exact ⟨[], rfl, rfl⟩
    · intro hclosed
      cases hclosed
  · intro record world op next _ h _ hnext
    exact h.step hnext

end Ledger

end MistralrsProxy
