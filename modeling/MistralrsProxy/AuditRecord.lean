import MistralrsProxy.AuditAdmission

/-! The records of a log that has shut down: one for every request that was admitted, made of its own
events and of what its body yielded. -/

open Transition

namespace MistralrsProxy

theorem latest_enclosed {α : Type} (field : EventBody → Option α) {first last : EventBody} (rest : List EventBody)
    (hfirst : field first = none) (hlast : field last = none) :
    latest field (first :: (rest ++ [last])) = latest field rest := by
  simp [latest, hfirst, hlast]

/-- The record says what the events say and what was seen of the body. -/
structure RequestRecord.Describes (events : List EventBody) (frames : List (List UInt8))
    (ending : Option BodyEnding) (line : RequestRecord) : Prop where
  status : line.status = (latest EventBody.response? events).map Prod.fst
  streaming : line.streaming = ((latest EventBody.response? events).map Prod.snd).getD false
  routing : line.routing = ((latest EventBody.routed? events).map Prod.snd).getD RoutingInfo.absent
  error : line.error = (latest EventBody.error? events).or (ending.bind BodyEnding.error?)
  responseBytes : line.responseBytes = byteCount frames
  complete : line.complete = true ↔ ending = some .endOfStream

/-- The record of a request, from its entry and its last event. -/
theorem RequestRecord.describes_of_finish {id : RequestId} {startedAtUnixMs atUnixMs : Nat} {info : RequestInfo}
    {rest : List EventBody} {outcome : BodyOutcome} {observation : BodyObservation} {entry : Pending}
    {frames : List (List UInt8)} {ending : Option BodyEnding} (hentry : entry.Reflects startedAtUnixMs info rest)
    (hbytes : observation.responseBytes = byteCount frames)
    (hcomplete : outcome.describe.1 = true ↔ ending = some .endOfStream)
    (herror : outcome.describe.2.2 = ending.bind BodyEnding.error?) :
    RequestRecord.Describes
      (.requestStarted startedAtUnixMs info :: (rest ++ [.responseFinished atUnixMs outcome observation]))
      frames ending
      (writeRecord id { entry with
        firstByteAtUnixMs := observation.firstByteAtUnixMs
        responseBytes := observation.responseBytes
        usage := observation.usage } atUnixMs outcome) := by
  refine ⟨?_, ?_, ?_, ?_, hbytes, hcomplete⟩
  · rw [latest_enclosed _ rest rfl rfl]
    exact hentry.status
  · rw [latest_enclosed _ rest rfl rfl]
    exact hentry.streaming
  · rw [latest_enclosed _ rest rfl rfl, ← hentry.routing]
    rfl
  · rw [latest_enclosed _ rest rfl rfl, ← hentry.error, ← herror]
    rfl

/-- Once a quiet request has all its events handled, its account holds its one record. -/
theorem Story.records {frames : List (List UInt8)} {ending : Option BodyEnding} {request : AuditedRequest}
    (h : Story frames ending request) (hquiet : request.phase.isQuiet = true)
    (hearly : request.phase.isEarly = false) (id : RequestId) :
    ∃ line, (Account.after id request.sent).records = [line] ∧ line.Describes request.sent frames ending := by
  cases h with
  | early hphase =>
      rw [hearly] at hphase
      cases hphase
  | handler hphase =>
      rw [(Phase.of_middleEvents hphase).2.1] at hquiet
      cases hquiet
  | streaming => cases hquiet
  | abandoned hcount hrest =>
      obtain ⟨entry, hentry, hafter⟩ := Account.after_closed id _ _ _ _ .abandoned .nothing hrest
      exact ⟨_, by rw [hafter], RequestRecord.describes_of_finish hentry rfl (by simp [BodyOutcome.describe]) rfl⟩
  | @finished frames ending observation _ _ _ _ hcount hrest hbytes =>
      obtain ⟨entry, hentry, hafter⟩ := Account.after_closed id _ _ _ _ ending.outcome observation hrest
      refine ⟨_, by rw [hafter], RequestRecord.describes_of_finish hentry hbytes ?_ ?_⟩
      · cases ending <;> simp [BodyEnding.outcome, BodyOutcome.describe]
      · cases ending <;> rfl

/-- In every interleaving that ends with the channel closed, the log has exactly one record for each
request whose `request_started` returned `Ok`, and none for any other id. The record comes from the
request's own events; its byte count is that of the data its body yielded, saturating; and it is complete
if and only if the end of the body was seen before an error or a drop of it. -/
theorem one_record_per_admitted_request (decode : List UInt8 → Option UsageFields) (slots : Nat)
    {record : List AuditStep} {world : AuditWorld} (hrun : Run (auditSystem decode slots) Free record world)
    (hclosed : world.closed = true) (id : RequestId) :
    ((world.requests id).phase.isEarly = true → world.writer.records.filter (fun line => line.requestId == id) = []) ∧
      ((world.requests id).phase.isEarly = false →
        ∃ line, world.writer.records.filter (fun line => line.requestId == id) = [line] ∧
          line.Describes (world.requests id).sent (yielded id record) (firstEnding id record)) := by
  have h := Ledger.of_run hrun
  obtain ⟨hflight, hquiet⟩ := h.closed hclosed
  obtain ⟨handled, hsplit, haccount⟩ := h.told id
  have hall : (world.requests id).sent = handled := by
    rw [hsplit]
    simp [AuditWorld.inFlightOf, hflight]
  have hrecords : world.writer.records.filter (fun line => line.requestId == id) =
      (Account.after id (world.requests id).sent).records := by
    rw [hall, ← haccount]
    rfl
  rw [hrecords]
  constructor
  · intro hearly
    rw [((h.story id).of_early hearly).2.2]
    rfl
  · intro hearly
    exact (h.story id).records (hquiet id) hearly id

/-- One request is answered in two frames and its body dropped after the end; another is abandoned. -/
def twoRequestsScript : List AuditOp :=
  [.arrive 0 sampleInfo, .reserve 0, .arrive 1 sampleInfo, .recheck 0, .enqueue 0 10, .reserve 1, .recheck 1,
    .enqueue 1 11, .noBackend 0 12 ⟨503, false, false⟩, .receive, .abandon 1 13, .responseStarted 0, .handle,
    .responseBody 0 14, .poll 0 15 (.frame (some [1, 2, 3]) false), .poll 0 16 (.frame (some [4, 5]) true),
    .dropBody 0 17, .receive, .handle, .receive, .handle, .receive, .handle, .receive, .handle, .receive, .handle,
    .shutDown 20]

theorem one_record_per_admitted_request_two :
    ∃ record world, Run (auditSystem (fun _ => none) 2) Free record world ∧ world.closed = true ∧
      (∃ line, world.writer.records.filter (fun line => line.requestId == 0) = [line] ∧
        line.status = some 503 ∧ line.responseBytes = 5 ∧ line.complete = true) ∧
      (∃ line, world.writer.records.filter (fun line => line.requestId == 1) = [line] ∧ line.complete = false) ∧
      world.writer.records.filter (fun line => line.requestId == 2) = [] := by
  have hfacts : ((auditSystem (fun _ => none) 2).follow AuditWorld.start twoRequestsScript).any (fun world =>
      decide (world.closed = true ∧ (world.requests 0).phase.isEarly = false ∧
        (world.requests 1).phase.isEarly = false ∧ (world.requests 2).phase.isEarly = true ∧
        (latest EventBody.response? (world.requests 0).sent).map Prod.fst = some 503)) = true ∧
      byteCount (yielded 0 ((auditSystem (fun _ => none) 2).recordOf AuditWorld.start twoRequestsScript [])) = 5 ∧
      firstEnding 0 ((auditSystem (fun _ => none) 2).recordOf AuditWorld.start twoRequestsScript []) =
        some .endOfStream ∧
      firstEnding 1 ((auditSystem (fun _ => none) 2).recordOf AuditWorld.start twoRequestsScript []) = none := by
    decide +kernel
  obtain ⟨hworld, hbytes, hending₀, hending₁⟩ := hfacts
  rw [Option.any_eq_true] at hworld
  obtain ⟨world, hworld, hfacts⟩ := hworld
  obtain ⟨hclosed, hearly₀, hearly₁, hearly₂, hstatus⟩ := of_decide_eq_true hfacts
  have hstart : Run (auditSystem (fun _ => none) 2) Free [] AuditWorld.start := .start rfl
  have hrun := hstart.follow_unguarded _ hworld (fun _ _ _ => trivial)
  obtain ⟨line₀, hline₀, hdescribes₀⟩ := (one_record_per_admitted_request _ _ hrun hclosed 0).2 hearly₀
  obtain ⟨line₁, hline₁, hdescribes₁⟩ := (one_record_per_admitted_request _ _ hrun hclosed 1).2 hearly₁
  refine ⟨_, world, hrun, hclosed, ⟨line₀, hline₀, ?_, ?_, ?_⟩, ⟨line₁, hline₁, ?_⟩,
    (one_record_per_admitted_request _ _ hrun hclosed 2).1 hearly₂⟩
  · rw [hdescribes₀.status, hstatus]
  · rw [hdescribes₀.responseBytes, hbytes]
  · exact hdescribes₀.complete.mpr hending₀
  · rw [Bool.eq_false_iff]
    intro hcomplete
    rw [hdescribes₁.complete, hending₁] at hcomplete
    cases hcomplete

end MistralrsProxy
