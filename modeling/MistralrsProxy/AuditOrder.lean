import MistralrsProxy.AuditAdmission

/-! The order of the audit log. The channel hands the writer every event once, in the order the requests
reported them, and each last event becomes one line at the end of the log. So the log lists the requests in
the order they finished. -/

open Transition

namespace MistralrsProxy

/-- The request and the time of its last event. -/
def LogEvent.finish : LogEvent → Option (RequestId × Nat)
  | ⟨id, .responseFinished atUnixMs _ _⟩ => some (id, atUnixMs)
  | _ => none

def RequestRecord.finish (record : RequestRecord) : RequestId × Nat := (record.requestId, record.finishedAtUnixMs)

/-- What the request of this step reported in it. -/
def reportedIn (step : AuditStep) : List LogEvent :=
  match step.action.sender with
  | none => []
  | some id => ((step.after.requests id).sent.drop (step.before.requests id).sent.length).map fun body => ⟨id, body⟩

/-- The event the writer handled in this step. -/
def handledIn (step : AuditStep) : List LogEvent :=
  match step.action with
  | .handle => step.before.hand.toList
  | _ => []

/-- All events reported in a run, oldest first. -/
def reported : List AuditStep → List LogEvent
  | [] => []
  | step :: older => reported older ++ reportedIn step

/-- All events handled in a run, oldest first. -/
def handled : List AuditStep → List LogEvent
  | [] => []
  | step :: older => handled older ++ handledIn step

/-- The requests that finished in a run, in that order, with the times. -/
def finishes (record : List AuditStep) : List (RequestId × Nat) := (reported record).filterMap LogEvent.finish

namespace AuditWorld

variable {world next : AuditWorld} {id : RequestId} {slots : Nat}

/-- A step in which the request reported these events and nothing else happened to the channel or the writer. -/
structure Sends (id : RequestId) (world : AuditWorld) (events : List EventBody) (next : AuditWorld) : Prop where
  sent : (next.requests id).sent = (world.requests id).sent ++ events
  queue : next.queue = world.queue ++ events.map fun body => ⟨id, body⟩
  hand : next.hand = world.hand
  writer : next.writer = world.writer
  others : ∀ other, other ≠ id → next.requests other = world.requests other

/-- A change of phase, of the admission counter and of the list of arrived requests. -/
theorem Sends.quiet {phase : Phase} {admitted : Nat} {arrived : List RequestId} :
    Sends id world [] { world.setPhase id phase with admitted := admitted, arrived := arrived } := by
  refine ⟨?_, (List.append_nil _).symm, rfl, rfl, fun other hother => Function.update_of_ne hother _ _⟩
  simp [setPhase, setRequest]

theorem Sends.refl : Sends id world [] world :=
  ⟨(List.append_nil _).symm, (List.append_nil _).symm, rfl, rfl, fun _ _ => rfl⟩

theorem Sends.report {body : EventBody} {phase : Phase} (hlost : (world.report slots id body phase).lost = []) :
    Sends id world [body] (world.report slots id body phase) := by
  unfold AuditWorld.report trySend at hlost ⊢
  split at hlost
  · rename_i hroom
    rw [if_pos hroom]
    exact ⟨by simp [setRequest], rfl, rfl, rfl, fun other hother => Function.update_of_ne hother _ _⟩
  · cases hlost

end AuditWorld

namespace Ledger

variable {slots : Nat} {record : List AuditStep} {world next : AuditWorld} {id : RequestId} {op : AuditOp}
  {decode : List UInt8 → Option UsageFields}

/-- What a step of one request does to the channel. -/
theorem sends (h : Ledger slots record world) (hsender : op.sender = some id)
    (hnext : world.step decode slots op = some next) : ∃ events, AuditWorld.Sends id world events next := by
  have hlost := (h.step hnext).lost
  cases op with
  | receive | handle | shutDown => cases hsender
  | arrive | reserve | recheck | reject | respond =>
      cases hsender
      simp only [AuditWorld.step] at hnext
      repeat' split at hnext
      all_goals first
        | (cases hnext; exact ⟨[], .quiet⟩)
        | cases hnext
  | noBackend | route | transportError | responseStarted =>
      cases hsender
      simp only [AuditWorld.step] at hnext
      repeat' split at hnext
      all_goals first
        | (cases hnext; exact ⟨[_], .report hlost⟩)
        | cases hnext
  | abandon | responseBody | poll | dropBody =>
      cases hsender
      simp only [AuditWorld.step] at hnext
      repeat' split at hnext
      all_goals first
        | (cases hnext; exact ⟨[_], .report hlost⟩)
        | (cases hnext; exact ⟨[], .quiet⟩)
        | (cases hnext; exact ⟨[], .refl⟩)
        | cases hnext
  | enqueue sender nowUnixMs =>
      cases hsender
      cases hphase : (world.requests id).phase with
      | cleared info =>
          obtain ⟨_, _, hsent⟩ := (h.story id).of_early (by rw [hphase]; rfl)
          have hactive : (world.requests id).phase.isQuiet = false := by rw [hphase]; rfl
          have hholds : world.holdsPermit id = true := by
            simp [AuditWorld.holdsPermit, hphase, Phase.isReserving]
          have hroom := h.room (h.active hactive).1 hholds (by rw [hsent]; decide)
          simp only [AuditWorld.step, hphase, AuditWorld.trySend, hroom, if_true] at hnext
          cases hnext
          refine ⟨[.requestStarted nowUnixMs info], ?_, rfl, rfl, rfl,
            fun other hother => Function.update_of_ne hother _ _⟩
          simp [AuditWorld.setRequest, hsent]
      | _ =>
          simp only [AuditWorld.step, hphase] at hnext
          cases hnext

/-- The writer has an entry for a request whose last event it is about to handle. -/
theorem pending_of_finish (h : Ledger slots record world) {event : LogEvent} (hhand : world.hand = some event)
    {finish : RequestId × Nat} (hfinish : event.finish = some finish) :
    ∃ entry, world.writer.pending event.id = some entry := by
  obtain ⟨handled, hsplit, haccount⟩ := h.told_handle hhand
  rcases (h.story event.id).account event.id hsplit with ⟨rfl, _⟩ | ⟨_, _, entry, hafter⟩ | ⟨_, hflight, _⟩
  · -- nothing handled, so the event is the first one and a start
    rcases (h.story event.id).cases_sent with ⟨_, hsent⟩ | ⟨_, _, _, _, _, ⟨_, hsent⟩ | ⟨_, _, _, _, hsent⟩⟩
    · rw [hsent] at hsplit
      cases hsplit
    all_goals
      obtain ⟨id, body⟩ := event
      rw [hsent] at hsplit
      obtain ⟨rfl, _⟩ := List.cons_eq_cons.mp hsplit
      cases hfinish
  · refine ⟨entry, ?_⟩
    calc world.writer.pending event.id = (world.writer.account event.id).pending := rfl
      _ = some entry := by rw [haccount, hafter]
  · cases hflight

end Ledger

/-- An event with an entry to end writes one line, any other event none. -/
theorem Writer.finish_handleEvent {event : LogEvent} {writer : Writer}
    (h : ∀ finish, event.finish = some finish → ∃ entry, writer.pending event.id = some entry) :
    (writer.handleEvent event).records.map RequestRecord.finish =
      writer.records.map RequestRecord.finish ++ event.finish.toList := by
  obtain ⟨id, body⟩ := event
  cases body with
  | responseFinished atUnixMs outcome observation =>
      obtain ⟨entry, hentry⟩ := h _ rfl
      simp only at hentry
      simp [handleEvent, Account.handle, hentry, LogEvent.finish, RequestRecord.finish, writeRecord]
  | requestStarted | responseStarted | requestError | requestRouted =>
      simp [handleEvent, Account.handle, LogEvent.finish]

/-- The reported events of one request. -/
def reportedBy (id : RequestId) (record : List AuditStep) : List EventBody :=
  ((reported record).filter fun event => event.id == id).map LogEvent.body

/-- The channel is first in, first out, and the log has a line for each last event that was handled. -/
structure InOrder (record : List AuditStep) (world : AuditWorld) : Prop where
  told : ∀ id, reportedBy id record = (world.requests id).sent
  channel : handled record ++ world.inFlight = reported record
  log : world.writer.records.map RequestRecord.finish = (handled record).filterMap LogEvent.finish

namespace InOrder

variable {slots : Nat} {record : List AuditStep} {world next : AuditWorld} {op : AuditOp}
  {decode : List UInt8 → Option UsageFields}

theorem step_sender {id : RequestId} (h : InOrder record world) (hsender : op.sender = some id)
    {events : List EventBody} (hevents : AuditWorld.Sends id world events next) :
    InOrder (⟨world, op, next⟩ :: record) next := by
  have hreported : reportedIn ⟨world, op, next⟩ = events.map fun body => ⟨id, body⟩ := by
    simp only [reportedIn, hsender]
    rw [hevents.sent, List.drop_left]
  have hhandled : handledIn ⟨world, op, next⟩ = [] := by
    cases op with
    | handle => cases hsender
    | _ => rfl
  refine ⟨?_, ?_, ?_⟩
  · intro other
    rw [reportedBy, reported, hreported, List.filter_append, List.map_append]
    by_cases hother : other = id
    · subst hother
      rw [hevents.sent, ← h.told other]
      simp [reportedBy, List.filter_map, Function.comp_def]
    · rw [hevents.others other hother, ← h.told other]
      simp [reportedBy, Ne.symm hother]
  · rw [handled, reported, hreported, hhandled, List.append_nil, ← h.channel, AuditWorld.inFlight, hevents.hand,
      hevents.queue, AuditWorld.inFlight]
    simp only [List.append_assoc]
  · rw [handled, hhandled, List.append_nil, hevents.writer]
    exact h.log

/-- A step that is not about one request reports nothing. -/
theorem stays (h : InOrder record world) (hsender : op.sender = none) (hrequests : next.requests = world.requests)
    (id : RequestId) : reportedBy id (⟨world, op, next⟩ :: record) = (next.requests id).sent := by
  have hnone : reportedIn ⟨world, op, next⟩ = [] := by simp only [reportedIn, hsender]
  rw [hrequests, ← h.told id, reportedBy, reported, hnone, List.append_nil, reportedBy]

theorem step_receive (h : InOrder record world) (hnext : world.step decode slots .receive = some next) :
    InOrder (⟨world, .receive, next⟩ :: record) next := by
  simp only [AuditWorld.step] at hnext
  split at hnext
  · rename_i event rest hhand hqueue
    cases hnext
    refine ⟨h.stays rfl rfl, ?_, ?_⟩
    · show (handled record ++ []) ++ (event :: rest) = reported record ++ []
      rw [List.append_nil, List.append_nil, ← h.channel, AuditWorld.inFlight, hhand, hqueue]
      rfl
    · show world.writer.records.map RequestRecord.finish = (handled record ++ []).filterMap LogEvent.finish
      rw [List.append_nil]
      exact h.log
  · cases hnext

theorem step_handle (h : InOrder record world) (hledger : Ledger slots record world)
    (hnext : world.step decode slots .handle = some next) : InOrder (⟨world, .handle, next⟩ :: record) next := by
  cases hhand : world.hand with
  | none => simp [AuditWorld.step, hhand] at hnext
  | some event =>
      have heffect : next.hand = none ∧ next.queue = world.queue ∧ next.writer = world.writer.handleEvent event ∧
          next.requests = world.requests := by
        simp only [AuditWorld.step, hhand] at hnext
        split at hnext <;> cases hnext <;> exact ⟨rfl, rfl, rfl, rfl⟩
      obtain ⟨hempty, hqueue, hwriter, hrequests⟩ := heffect
      have hhandled : handled (⟨world, .handle, next⟩ :: record) = handled record ++ [event] := by
        simp [handled, handledIn, hhand]
      refine ⟨h.stays rfl hrequests, ?_, ?_⟩
      · rw [hhandled, AuditWorld.inFlight, hempty, hqueue]
        show handled record ++ [event] ++ ([] ++ world.queue) = reported record ++ []
        rw [List.append_nil, ← h.channel, AuditWorld.inFlight, hhand, List.append_assoc]
        rfl
      · rw [hhandled, hwriter, Writer.finish_handleEvent fun _ => hledger.pending_of_finish hhand, h.log,
          List.filterMap_append]
        cases hfinish : event.finish <;> simp [hfinish]

theorem step_shutDown {nowUnixMs : Nat} (h : InOrder record world) (hledger : Ledger slots record world)
    (hnext : world.step decode slots (.shutDown nowUnixMs) = some next) :
    InOrder (⟨world, .shutDown nowUnixMs, next⟩ :: record) next := by
  have hclosed := (hledger.step hnext).closed
  simp only [AuditWorld.step] at hnext
  split at hnext
  · cases hnext
    obtain ⟨hflight, hquiet⟩ := hclosed rfl
    rw [Writer.shutDown_of_idle (hledger.pending_of_quiet hflight hquiet)]
    refine ⟨h.stays rfl rfl, ?_, ?_⟩
    · show (handled record ++ []) ++ world.inFlight = reported record ++ []
      rw [List.append_nil, List.append_nil, h.channel]
    · show world.writer.records.map RequestRecord.finish = (handled record ++ []).filterMap LogEvent.finish
      rw [List.append_nil, h.log]
  · cases hnext

theorem of_run (hrun : Run (auditSystem decode slots) Free record world) : InOrder record world := by
  refine hrun.induct (motive := fun record world => InOrder record world) ?_ ?_
  · rintro world rfl
    exact ⟨fun _ => rfl, rfl, rfl⟩
  · intro record world op next hrun h _ hnext
    have hledger := Ledger.of_run hrun
    have hnext : world.step decode slots op = some next := hnext
    cases hsender : op.sender with
    | some id =>
        obtain ⟨events, hevents⟩ := hledger.sends hsender hnext
        exact h.step_sender hsender hevents
    | none =>
        cases op with
        | receive => exact h.step_receive hnext
        | handle => exact h.step_handle hledger hnext
        | shutDown nowUnixMs => exact h.step_shutDown hledger hnext
        | _ => cases hsender

/-- A request finishes at most once. -/
theorem finishes_nodup (h : InOrder record world) (hledger : Ledger slots record world) :
    ((finishes record).map Prod.fst).Nodup := by
  rw [List.nodup_iff_count_le_one]
  intro id
  have hcount : ((finishes record).map Prod.fst).count id = (reportedBy id record).countP EventBody.isFinish := by
    rw [finishes, reportedBy, List.count, List.countP_map, List.countP_filterMap, List.countP_map, List.countP_filter]
    apply List.countP_congr
    rintro ⟨sender, body⟩ _
    cases body <;> simp [LogEvent.finish, EventBody.isFinish]
  rw [hcount, h.told id]
  have hmiddle : ∀ rest : List EventBody, (∀ event ∈ rest, event.isMiddle = true) →
      rest.countP EventBody.isFinish = 0 := by
    intro rest hrest
    rw [List.countP_eq_zero]
    intro event hevent
    rw [(EventBody.of_isMiddle (hrest event hevent)).2]
    exact Bool.false_ne_true
  rcases (hledger.story id).cases_sent with ⟨_, hsent⟩ | ⟨_, _, rest, _, hrest, ⟨_, hsent⟩ | ⟨_, _, _, _, hsent⟩⟩
  · rw [hsent]
    exact Nat.zero_le _
  · rw [hsent, List.countP_cons, hmiddle rest hrest]
    exact Nat.zero_le _
  · rw [hsent, List.countP_cons, List.countP_append, hmiddle rest hrest]
    exact Nat.le_refl 1

end InOrder

/-- What is in the log stays there. -/
theorem records_grow {slots : Nat} {record : List AuditStep} {world : AuditWorld}
    {decode : List UInt8 → Option UsageFields} (hrun : Run (auditSystem decode slots) Free record world) :
    ∀ step ∈ record, step.before.writer.records <+: world.writer.records := by
  refine hrun.induct (motive := fun record world => ∀ step ∈ record,
    step.before.writer.records <+: world.writer.records) ?_ ?_
  · intro world _ step hstep
    cases hstep
  · intro record world op next _ ih _ hnext step hstep
    have hgrows := AuditWorld.step_records hnext
    rcases List.mem_cons.mp hstep with rfl | hstep
    · exact hgrows
    · exact (ih step hstep).trans hgrows

/-- In every interleaving the log is append-only and lists the requests in the order their last events were sent,
each once, with the times these events name. The last events still on their way to the writer are the rest of that
order, so a log whose channel is closed has all of it. -/
theorem log_lists_requests_as_they_finish (decode : List UInt8 → Option UsageFields) (slots : Nat)
    (record : List AuditStep) (world : AuditWorld) (hrun : Run (auditSystem decode slots) Free record world) :
    (∀ step ∈ record, step.before.writer.records <+: world.writer.records) ∧
      world.writer.records.map RequestRecord.finish ++ world.inFlight.filterMap LogEvent.finish = finishes record ∧
      ((finishes record).map Prod.fst).Nodup ∧
      (world.closed = true → world.writer.records.map RequestRecord.finish = finishes record) := by
  have h := InOrder.of_run hrun
  have hledger := Ledger.of_run hrun
  have hlog : world.writer.records.map RequestRecord.finish ++ world.inFlight.filterMap LogEvent.finish =
      finishes record := by
    rw [h.log, ← List.filterMap_append, h.channel, finishes]
  refine ⟨records_grow hrun, hlog, h.finishes_nodup hledger, ?_⟩
  intro hclosed
  rw [(hledger.closed hclosed).1, List.filterMap_nil, List.append_nil] at hlog
  exact hlog

/-- Two requests, of which the one that came last finishes first. -/
def overtakingScript : List AuditOp :=
  [.arrive 0 sampleInfo, .reserve 0, .recheck 0, .enqueue 0 10, .arrive 1 sampleInfo, .reserve 1, .recheck 1,
    .enqueue 1 11, .abandon 1 12, .receive, .handle, .noBackend 0 13 ⟨503, false, true⟩, .responseStarted 0,
    .responseBody 0 14, .receive, .handle, .receive, .handle, .receive, .handle, .receive, .handle]

theorem log_lists_requests_as_they_finish_overtaking :
    ∃ record world, Run (auditSystem (fun _ => none) 2) Free record world ∧
      finishes record = [(1, 12), (0, 14)] ∧ world.inFlight.filterMap LogEvent.finish = [(0, 14)] ∧
      world.writer.records.map RequestRecord.finish = [(1, 12)] := by
  have hfacts : ((auditSystem (fun _ => none) 2).follow AuditWorld.start overtakingScript).any (fun world =>
      decide (world.inFlight.filterMap LogEvent.finish = [(0, 14)])) = true ∧
      finishes ((auditSystem (fun _ => none) 2).recordOf AuditWorld.start overtakingScript []) =
        [(1, 12), (0, 14)] := by
    decide +kernel
  obtain ⟨hworld, hfinishes⟩ := hfacts
  rw [Option.any_eq_true] at hworld
  obtain ⟨world, hworld, hflight⟩ := hworld
  have hstart : Run (auditSystem (fun _ => none) 2) Free [] AuditWorld.start := .start rfl
  have hrun := hstart.follow_unguarded _ hworld (fun _ _ _ => trivial)
  have hlog := (log_lists_requests_as_they_finish _ _ _ _ hrun).2.1
  rw [hfinishes, of_decide_eq_true hflight] at hlog
  exact ⟨_, world, hrun, hfinishes, of_decide_eq_true hflight,
    List.append_cancel_right (hlog.trans (List.singleton_append (x := (1, 12)) (l := [(0, 14)])).symm)⟩

end MistralrsProxy
