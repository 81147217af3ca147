import MistralrsProxy.AuditLedger

/-! Admission and the bounded queue. A permit covers every event its request may report, so the queue has
room for each of them, and the counter is the number of permits alive: with callers inside
`request_started`, in start events on their way, and in entries of the writer. -/

open Transition

namespace MistralrsProxy

theorem Phase.of_isReserving {phase : Phase} (h : phase.isReserving = true) :
    phase.isEarly = true ∧ phase.isQuiet = false := by
  cases phase with
  | reserved | cleared => exact ⟨rfl, rfl⟩
  | _ => cases h

/-- A request that has reported anything has reported exactly one start. -/
theorem Story.countP_isStart {frames : List (List UInt8)} {ending : Option BodyEnding} {request : AuditedRequest}
    (h : Story frames ending request) (hsent : request.sent ≠ []) : request.sent.countP EventBody.isStart = 1 := by
  rcases h.cases_sent with ⟨_, hnil⟩ | ⟨at₀, info, rest, _, hrest, hshape⟩
  · exact absurd hnil hsent
  · have hzero : rest.countP EventBody.isStart = 0 := by
      rw [List.countP_eq_zero]
      intro event hevent
      rw [(EventBody.of_isMiddle (hrest event hevent)).1]
      exact Bool.false_ne_true
    rcases hshape with ⟨_, hshape⟩ | ⟨_, at₁, outcome, observation, hshape⟩
    · rw [hshape, List.countP_cons, hzero]
      rfl
    · rw [hshape, List.countP_cons, List.countP_append, hzero]
      rfl

theorem Story.not_reserving {frames : List (List UInt8)} {ending : Option BodyEnding} {request : AuditedRequest}
    (h : Story frames ending request) (hsent : request.sent ≠ []) : request.phase.isReserving = false := by
  cases hreserving : request.phase.isReserving with
  | false => rfl
  | true => exact absurd (h.of_early (Phase.of_isReserving hreserving).1).2.2 hsent

namespace Ledger

variable {slots : Nat} {record : List AuditStep} {world : AuditWorld} {id : RequestId}

/-- The permit of a request is in one place. -/
theorem holdsPermit_eq (h : Ledger slots record world) (id : RequestId) :
    (world.holdsPermit id).toNat = ((world.requests id).phase.isReserving.toNat +
      (world.inFlightOf id).countP EventBody.isStart) + (world.writer.pending id).isSome.toNat := by
  obtain ⟨handled, hsplit, haccount⟩ := h.told id
  have hpending : world.writer.pending id = (Account.after id handled).pending := by
    rw [← haccount]
    rfl
  rw [hpending, AuditWorld.holdsPermit, haccount]
  rcases (h.story id).account id hsplit with ⟨rfl, hafter⟩ | ⟨hhandled, _, entry, hafter⟩ |
    ⟨hquiet, hflight, line, hafter⟩
  · rw [List.nil_append] at hsplit
    rw [hafter, ← hsplit]
    by_cases hsent : (world.requests id).sent = []
    · rw [hsent]
      simp [Account.blank]
    · rw [(h.story id).countP_isStart hsent, (h.story id).not_reserving hsent]
      simp [Account.blank, hsent]
  · have hsent : (world.requests id).sent ≠ [] := by
      rw [hsplit]
      exact List.append_ne_nil_of_left_ne_nil hhandled _
    -- the start has been handled, so none is in flight
    have hstarts : (world.inFlightOf id).countP EventBody.isStart = 0 := by
      have hone := (h.story id).countP_isStart hsent
      have hfirst : handled.countP EventBody.isStart ≠ 0 := by
        intro hzero
        rcases (h.story id).cases_sent with ⟨_, hnil⟩ | ⟨at₀, info, rest, _, _, hshape⟩
        · exact hsent hnil
        · cases handled with
          | nil => exact hhandled rfl
          | cons first rest' =>
              have hhead : first = .requestStarted at₀ info := by
                rcases hshape with ⟨_, hshape⟩ | ⟨_, _, _, _, hshape⟩ <;>
                  exact (List.cons_eq_cons.mp (hshape.symm.trans hsplit)).1.symm
              rw [List.countP_cons, hhead] at hzero
              cases hzero
      rw [hsplit, List.countP_append] at hone
      omega
    rw [hafter, hstarts, (h.story id).not_reserving hsent]
    simp [hsent]
  · have hreserving : (world.requests id).phase.isReserving = false := by
      cases hreserving : (world.requests id).phase.isReserving with
      | false => rfl
      | true =>
          rw [(Phase.of_isReserving hreserving).2] at hquiet
          cases hquiet
    rw [hafter, hflight, hreserving]
    simp

/-- The start events in flight, counted request by request. -/
theorem sum_starts (h : Ledger slots record world) :
    (world.arrived.map fun id => (world.inFlightOf id).countP EventBody.isStart).sum =
      world.inFlight.countP fun event => event.body.isStart := by
  have hfibres := Counting.sum_fibres LogEvent.id (world.inFlight.filter fun event => event.body.isStart) h.nodup
    (fun event hevent => h.inFlight_arrived event (List.mem_of_mem_filter hevent))
  rw [List.countP_eq_length_filter, ← hfibres]
  refine congrArg List.sum (List.map_congr_left ?_)
  intro id _
  rw [AuditWorld.inFlightOf, List.countP_map, List.countP_filter, List.countP_filter]
  apply List.countP_congr
  intro event _
  simp [and_comm]

theorem admitted_eq (h : Ledger slots record world) :
    world.admitted = world.arrived.countP (fun id => (world.requests id).phase.isReserving) +
      world.inFlight.countP (fun event => event.body.isStart) +
      world.arrived.countP (fun id => (world.writer.pending id).isSome) := by
  rw [h.counted, ← h.sum_starts, ← Counting.sum_toNat_eq_countP, ← Counting.sum_toNat_eq_countP,
    ← Counting.sum_toNat_eq_countP, ← List.sum_map_add, ← List.sum_map_add]
  exact congrArg List.sum (List.map_congr_left fun id _ => h.holdsPermit_eq id)

/-- Handling the event in hand gives back no more permits than are counted. -/
theorem released_le (h : Ledger slots record world) {event : LogEvent} (hhand : world.hand = some event) :
    (world.writer.account event.id).released event.body ≤ world.admitted := by
  obtain ⟨handled, hsplit, haccount⟩ := h.told_handle hhand
  rw [haccount]
  rcases (h.story event.id).handle_next event.id hsplit with ⟨hreleased, _⟩ | ⟨hreleased, hnone, _⟩
  · rw [hreleased]
    exact Nat.zero_le _
  · rw [hreleased, h.counted, Nat.succ_le_iff, List.countP_pos_iff]
    refine ⟨event.id, h.inFlight_arrived event (by simp [AuditWorld.inFlight, hhand]), ?_⟩
    simp [AuditWorld.holdsPermit, haccount, hnone, hsplit]

/-- A request whose last event has been handled has given its permit back. -/
theorem released_of_finish (h : Ledger slots record world) {event : EventBody}
    (hmem : event ∈ (world.requests id).sent) (hfinish : event.isFinish = true)
    (hhandled : event ∉ world.inFlightOf id) : world.holdsPermit id = false := by
  obtain ⟨handled, hsplit, haccount⟩ := h.told id
  have hsent : (world.requests id).sent ≠ [] := List.ne_nil_of_mem hmem
  rcases (h.story id).cases_sent with ⟨_, hnil⟩ | ⟨at₀, info, rest, _, hrest, hshape⟩
  · exact absurd hnil hsent
  · have hlast : (world.requests id).phase.isQuiet = true ∧ (world.requests id).sent.getLast? = some event := by
      rcases hshape with ⟨_, hshape⟩ | ⟨hquiet, at₁, outcome, observation, hshape⟩
      · rw [hshape] at hmem
        rcases List.mem_cons.mp hmem with rfl | hmem
        · cases hfinish
        · rw [(EventBody.of_isMiddle (hrest event hmem)).2] at hfinish
          cases hfinish
      · refine ⟨hquiet, ?_⟩
        rw [hshape] at hmem ⊢
        rcases List.mem_cons.mp hmem with rfl | hmem
        · cases hfinish
        · rcases List.mem_append.mp hmem with hmem | hmem
          · rw [(EventBody.of_isMiddle (hrest event hmem)).2] at hfinish
            cases hfinish
          · rw [List.mem_singleton.mp hmem, ← List.cons_append]
            exact List.getLast?_concat
    have hflight : world.inFlightOf id = [] := by
      rcases List.eq_nil_or_concat (world.inFlightOf id) with hnil | ⟨before, last, hlist⟩
      · exact hnil
      · rw [hsplit, hlist, List.concat_eq_append, ← List.append_assoc] at hlast
        rw [hlist] at hhandled
        simp only [List.getLast?_concat, Option.some.injEq] at hlast
        exact absurd (by simp [hlast.2]) hhandled
    rcases (h.story id).account id hsplit with ⟨hnil, _⟩ | ⟨_, hsome, _⟩ | ⟨_, _, line, hafter⟩
    · rw [hsplit, hnil, hflight] at hsent
      exact absurd rfl hsent
    · exact absurd hflight (hsome hlast.1)
    · rw [AuditWorld.holdsPermit, (h.story id).not_reserving hsent, haccount, hafter]
      simp

end Ledger

/-- In every interleaving of requests and a writer that does not fail no event is dropped for want of
room, and the admission counter is the number of permits alive. It never exceeds the slots, is never
released at zero, and is zero once the last event of every admitted request has been handled. -/
theorem admission_makes_queue_lossless (decode : List UInt8 → Option UsageFields) (slots : Nat)
    {record : List AuditStep} {world : AuditWorld} (hrun : Run (auditSystem decode slots) Free record world) :
    (world.lost = [] ∧ world.healthy = true ∧ world.queue.length ≤ slots * maxEventsPerRequest) ∧
      world.admitted = world.arrived.countP (fun id => (world.requests id).phase.isReserving) +
        world.inFlight.countP (fun event => event.body.isStart) +
        world.arrived.countP (fun id => (world.writer.pending id).isSome) ∧
      world.admitted ≤ slots ∧
      (∀ event, world.hand = some event →
        (world.writer.account event.id).released event.body ≤ world.admitted) ∧
      ((∀ id, (world.requests id).phase.isReserving = false) →
        (∀ id, (world.requests id).sent ≠ [] → ∃ event ∈ (world.requests id).sent,
          event.isFinish = true ∧ event ∉ world.inFlightOf id) →
        world.admitted = 0) := by
  have h := Ledger.of_run hrun
  refine ⟨⟨h.lost, h.healthy, ?_⟩, h.admitted_eq, h.bounded, fun event hhand => h.released_le hhand, ?_⟩
  · have hlength := Counting.length_le_of_fibres LogEvent.id world.inFlight world.holdsPermit maxEventsPerRequest
      h.nodup h.inFlight_arrived (by
        intro id _
        have hid := h.inFlightOf_length id
        rwa [AuditWorld.inFlightOf, List.length_map, ← List.countP_eq_length_filter] at hid)
    rw [← h.counted] at hlength
    calc world.queue.length ≤ world.inFlight.length := by simp [AuditWorld.inFlight]
      _ ≤ world.admitted * maxEventsPerRequest := hlength
      _ ≤ slots * maxEventsPerRequest := Nat.mul_le_mul_right _ h.bounded
  · intro hreserving hfinished
    rw [h.counted, List.countP_eq_zero]
    intro id _
    by_cases hsent : (world.requests id).sent = []
    · simp [AuditWorld.holdsPermit, hreserving id, hsent]
    · obtain ⟨event, hmem, hfinish, hhandled⟩ := hfinished id hsent
      rw [h.released_of_finish hmem hfinish hhandled]
      exact Bool.false_ne_true

def sampleInfo : RequestInfo where
  clientIp := "127.0.0.1"
  clientPort := 50000
  method := "POST"
  uri := "/v1/chat/completions"
  httpVersion := "HTTP/1.1"
  host := none
  userAgent := none
  contentLength := some 2
  keySha256 := none
  identity := none
  authorized := true
  authError := none
  openwebuiUser := none

/-- With one slot, a second request arrives while the first is answered and its events pile up. -/
def saturatedScript : List AuditOp :=
  [.arrive 0 sampleInfo, .reserve 0, .recheck 0, .enqueue 0 10, .receive, .handle,
    .noBackend 0 11 ⟨503, false, false⟩, .responseStarted 0, .arrive 1 sampleInfo, .reserve 1]

theorem admission_makes_queue_lossless_saturated :
    ∃ record world, Run (auditSystem (fun _ => none) 1) Free record world ∧
      (world.requests 1).phase = .refused .saturated ∧ world.queue.length = 2 ∧ world.lost = [] ∧
      world.admitted = 1 ∧ world.admitted ≤ 1 := by
  have hfacts : ((auditSystem (fun _ => none) 1).follow AuditWorld.start saturatedScript).any (fun world =>
      decide ((world.requests 1).phase = .refused .saturated ∧ world.queue.length = 2 ∧ world.admitted = 1)) =
        true := by decide +kernel
  rw [Option.any_eq_true] at hfacts
  obtain ⟨world, hworld, hfacts⟩ := hfacts
  obtain ⟨hrefused, hqueue, hadmitted⟩ := of_decide_eq_true hfacts
  have hstart : Run (auditSystem (fun _ => none) 1) Free [] AuditWorld.start := .start rfl
  have hrun := hstart.follow_unguarded _ hworld (fun _ _ _ => trivial)
  obtain ⟨⟨hlost, _⟩, _, hbounded, _⟩ := admission_makes_queue_lossless _ _ hrun
  exact ⟨_, world, hrun, hrefused, hqueue, hlost, hadmitted, hbounded⟩

end MistralrsProxy
