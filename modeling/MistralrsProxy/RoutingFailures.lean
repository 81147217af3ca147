import MistralrsProxy.RoutingCircuitRun

/-! Requests dispatched to one backend one after the other, from selection to the end of the response
body. Acceptable headers reset the failure count before the body is read, so a body error is counted on
top of zero: what opens a circuit is a run of failures at the headers, of which a body error can only be
the first. -/

open Transition

namespace MistralrsProxy

/-- How the upstream response body ended once acceptable headers had arrived. -/
inductive BodyEnd where
  | complete
  | error
  | dropped
  deriving DecidableEq, Repr

/-- What became of a dispatched request. A cancelled one was dropped before any headers. -/
inductive Upstream where
  | transportError
  | cancelled
  | response (status : Nat) (body : BodyEnd)
  deriving DecidableEq, Repr

/-- One request with the instants of its selection, of its headers and of the end of its body. -/
structure Request where
  selectedAt : Nat
  headersAt : Nat
  bodyAt : Nat
  upstream : Upstream
  deriving DecidableEq, Repr

def isFailureStatus (status : Nat) : Bool :=
  status == 500 || status == 502 || status == 503 || status == 504

/-- `RouteSelection::into_response_guard`: the circuit outcome of the headers, and the observer the
response body is wrapped with. -/
def CircuitPermit.intoResponseGuard (status now : Nat) (permit : CircuitPermit) (breaker : Breaker) :
    Breaker × Option BodyFailureObserver :=
  if isFailureStatus status then ((permit.failure now breaker).2, none)
  else if status ≠ 429 then (permit.successWithBodyObserver breaker).2
  else ((permit.neutral now breaker).2, none)

/-- The circuit after one request that was resolved before the next is selected; `none` if no permit was
issued to it. -/
def Breaker.serve (id : BackendId) (request : Request) (breaker : Breaker) : Option Breaker :=
  (breaker.tryCircuitPermit id request.selectedAt).map fun (breaker, permit) =>
    match request.upstream with
    | .transportError => (permit.failure request.headersAt breaker).2
    | .cancelled => permit.drop request.headersAt breaker
    | .response status body =>
        match permit.intoResponseGuard status request.headersAt breaker, body with
        | (breaker, some observer), .error => observer.failure request.bodyAt breaker
        | (breaker, _), _ => breaker

/-- The request failed at its headers: no response, or one of the failure statuses. -/
def Request.failsAtHeaders (request : Request) : Bool :=
  match request.upstream with
  | .transportError => true
  | .cancelled => false
  | .response status _ => isFailureStatus status

/-- The request failed in its body, after acceptable headers. -/
def Request.failsInBody (request : Request) : Bool :=
  match request.upstream with
  | .response status .error => !isFailureStatus status && status != 429
  | _ => false

def Request.fails (request : Request) : Bool := request.failsAtHeaders || request.failsInBody

def Breaker.isOpened (breaker : Breaker) : Bool :=
  match breaker.circuit with
  | .opened _ => true
  | _ => false

/-- Whenever the three requests are all dispatched, the circuit is open after one of them. -/
def OpensWithinThree (id : BackendId) (breaker : Breaker) (first second third : Request) : Prop :=
  ∀ one two three, breaker.serve id first = some one → one.serve id second = some two →
    two.serve id third = some three → one.isOpened ∨ two.isOpened ∨ three.isOpened

/-- The failure count a failing request leaves behind: one more at the headers, exactly one in the body. -/
def Request.countAfter (failures : Nat) (request : Request) : Nat :=
  if request.failsAtHeaders then failures + 1 else 1

namespace Breaker

variable (id : BackendId) {breaker : Breaker} {request : Request}

/-- A closed circuit issues a plain permit, whose report is always one of the current epoch. -/
theorem serve_closed_fails (hclosed : breaker.circuit = .closed)
    (hcount : breaker.consecutiveRequestFailures < circuitFailureThreshold) (hfails : request.fails = true) :
    ∃ now, breaker.serve id request =
      some (breaker.countFailure (request.countAfter breaker.consecutiveRequestFailures) now) := by
  have hmin : min (breaker.consecutiveRequestFailures + 1) u32Max = breaker.consecutiveRequestFailures + 1 := by
    simp only [circuitFailureThreshold] at hcount
    simp only [u32Max]
    omega
  have hpermit : breaker.tryCircuitPermit id request.selectedAt =
      some (breaker, ⟨id, breaker.circuitEpoch, false, false⟩) := by
    simp [tryCircuitPermit, hclosed]
  have hfailure : ∀ now, (CircuitPermit.failure now ⟨id, breaker.circuitEpoch, false, false⟩ breaker).2 =
      breaker.countFailure (breaker.consecutiveRequestFailures + 1) now := by
    intro now
    simp only [CircuitPermit.failure, CircuitPermit.resolve, Bool.false_eq_true, if_false,
      recordCircuitOutcome_failure, hmin]
  unfold serve
  rw [hpermit]
  simp only [Option.map_some, Request.fails, Bool.or_eq_true, Request.countAfter] at hfails ⊢
  cases hupstream : request.upstream with
  | transportError =>
      refine ⟨request.headersAt, ?_⟩
      simp only [Request.failsAtHeaders, hupstream, if_true, hfailure]
  | cancelled => simp [Request.failsAtHeaders, Request.failsInBody, hupstream] at hfails
  | response status body =>
      by_cases hstatus : isFailureStatus status = true
      · refine ⟨request.headersAt, ?_⟩
        simp only [Request.failsAtHeaders, hupstream, CircuitPermit.intoResponseGuard, hstatus, if_true, hfailure]
      · have hbody : body = .error ∧ status ≠ 429 := by
          cases body <;> simp_all [Request.failsAtHeaders, Request.failsInBody]
        obtain ⟨rfl, h429⟩ := hbody
        refine ⟨request.bodyAt, ?_⟩
        simp only [Request.failsAtHeaders, hupstream, CircuitPermit.intoResponseGuard, hstatus, h429,
          Bool.false_eq_true, if_false, if_true, ne_eq, not_false_eq_true,
          CircuitPermit.successWithBodyObserver, recordSuccessAndObserver, not_true_eq_false,
          BodyFailureObserver.failure]
        -- the reset at the headers is what the body failure is counted on
        have hreset := @recordBodyFailure_self ⟨.closed, breaker.circuitEpoch, 0⟩ false request.bodyAt
        simp only [Bool.false_eq_true, if_false] at hreset
        rw [hreset]
        simp [countFailure, circuitFailureThreshold, u32Max, hclosed]

/-- A failing request on a closed circuit opens it exactly when its count reaches the threshold, and
leaves it closed with that count otherwise. -/
theorem serve_closed_fails_cases (hclosed : breaker.circuit = .closed)
    (hcount : breaker.consecutiveRequestFailures < circuitFailureThreshold) (hfails : request.fails = true) :
    ∃ next, breaker.serve id request = some next ∧
      (circuitFailureThreshold ≤ request.countAfter breaker.consecutiveRequestFailures ∧ next.isOpened = true ∨
        request.countAfter breaker.consecutiveRequestFailures < circuitFailureThreshold ∧
          next.isOpened = false ∧ next.circuit = .closed ∧
          next.consecutiveRequestFailures = request.countAfter breaker.consecutiveRequestFailures) := by
  obtain ⟨now, hserve⟩ := serve_closed_fails id hclosed hcount hfails
  refine ⟨_, hserve, ?_⟩
  rcases Nat.lt_or_ge (request.countAfter breaker.consecutiveRequestFailures) circuitFailureThreshold with hlt | hge
  · rw [countFailure_keeps hlt]
    exact Or.inr ⟨hlt, by simp [isOpened, hclosed], hclosed, rfl⟩
  · rw [countFailure_opens hge]
    exact Or.inl ⟨hge, rfl⟩

end Breaker

variable {id : BackendId} {record : List (Step CircuitWorld CircuitOp)} {world : CircuitWorld}

/-- Whatever happened before, three failing requests in a row open a closed circuit exactly when the last
two fail at their headers, or the failures already counted make up for it. -/
theorem three_failures_open_iff (h : Run (circuitSystem id) Free record world)
    (hclosed : world.breaker.circuit = .closed) (first second third : Request)
    (hfirst : first.fails = true) (hsecond : second.fails = true) (hthird : third.fails = true) :
    OpensWithinThree id world.breaker first second third ↔
      second.failsAtHeaders = true ∧ third.failsAtHeaders = true ∨
      1 ≤ world.breaker.consecutiveRequestFailures ∧ first.failsAtHeaders = true ∧
        second.failsAtHeaders = true ∨
      2 ≤ world.breaker.consecutiveRequestFailures ∧ first.failsAtHeaders = true := by
  have hcount := closed_failures_lt h hclosed
  generalize world.breaker = breaker at hclosed hcount ⊢
  obtain ⟨one, hone, hcase⟩ := Breaker.serve_closed_fails_cases id hclosed hcount hfirst
  unfold OpensWithinThree
  simp only [circuitFailureThreshold, Request.countAfter] at hcase hcount
  rcases hcase with ⟨hge, hopened⟩ | ⟨hlt, hopened, hclosed₁, hcount₁⟩
  · constructor
    · intro _
      split at hge
      · exact Or.inr (Or.inr ⟨by omega, by assumption⟩)
      · omega
    · intro _ a b c ha hb hc
      cases hone.symm.trans ha
      exact Or.inl hopened
  obtain ⟨two, htwo, hcase⟩ := Breaker.serve_closed_fails_cases id hclosed₁
    (by rw [hcount₁]; exact hlt) hsecond
  rw [hcount₁] at hcase
  simp only [circuitFailureThreshold, Request.countAfter] at hcase
  rcases hcase with ⟨hge, hopened₂⟩ | ⟨hlt₂, hopened₂, hclosed₂, hcount₂⟩
  · constructor
    · intro _
      split at hge
      · split at hge
        · exact Or.inr (Or.inl ⟨by omega, by assumption, by assumption⟩)
        · omega
      · omega
    · intro _ a b c ha hb hc
      cases hone.symm.trans ha
      cases htwo.symm.trans hb
      exact Or.inr (Or.inl hopened₂)
  obtain ⟨three, hthree, hcase⟩ := Breaker.serve_closed_fails_cases id hclosed₂
    (by rw [hcount₂]; exact hlt₂) hthird
  rw [hcount₂] at hcase
  simp only [circuitFailureThreshold, Request.countAfter] at hcase
  constructor
  · intro hopens
    rcases hcase with ⟨hge, -⟩ | ⟨-, hopened₃, -⟩
    · -- the third count reaches the threshold only from a count of two, both at the headers
      split at hge
      · split at hge
        · exact Or.inl ⟨by assumption, by assumption⟩
        · omega
      · omega
    · rcases hopens one two three hone htwo hthree with hopen | hopen | hopen
      · rw [hopened] at hopen
        cases hopen
      · rw [hopened₂] at hopen
        cases hopen
      · rw [hopened₃] at hopen
        cases hopen
  · intro hcond a b c ha hb hc
    cases hone.symm.trans ha
    cases htwo.symm.trans hb
    cases hthree.symm.trans hc
    rcases hcase with ⟨-, hopened₃⟩ | ⟨hlt₃, -⟩
    · exact Or.inr (Or.inr hopened₃)
    · exfalso
      split_ifs at hlt hlt₂ hlt₃ <;> rcases hcond with hcond | hcond | hcond <;> simp_all <;> omega

/-- A response with acceptable headers whose body ends in an error. -/
def bodyErrorRequest : Request := ⟨0, 0, 0, .response 200 .error⟩

/-- A request that gets no response. -/
def transportErrorRequest : Request := ⟨0, 0, 0, .transportError⟩

/-- A body error followed by two transport errors opens a fresh circuit. -/
theorem three_failures_open_after_body_error :
    OpensWithinThree "a" Breaker.new bodyErrorRequest transportErrorRequest transportErrorRequest := by
  have hrun : Run (circuitSystem "a") Free [] ⟨0, Breaker.new, [], []⟩ := .start ⟨0, rfl⟩
  exact (three_failures_open_iff hrun rfl bodyErrorRequest transportErrorRequest transportErrorRequest
    rfl rfl rfl).mpr (Or.inl ⟨rfl, rfl⟩)

/-- Three responses in a row whose bodies end in an error leave a fresh circuit closed, with one failure
counted. -/
theorem three_body_errors_keep_closed :
    bodyErrorRequest.fails = true ∧
      ((Breaker.new.serve "a" bodyErrorRequest).bind fun one =>
        (one.serve "a" bodyErrorRequest).bind fun two => two.serve "a" bodyErrorRequest) =
        some ⟨.closed, 0, 1⟩ ∧
      ¬OpensWithinThree "a" Breaker.new bodyErrorRequest bodyErrorRequest bodyErrorRequest := by
  refine ⟨rfl, rfl, fun hopens => ?_⟩
  have hone : Breaker.new.serve "a" bodyErrorRequest = some ⟨.closed, 0, 1⟩ := rfl
  have htwo : Breaker.serve "a" bodyErrorRequest ⟨.closed, 0, 1⟩ = some ⟨.closed, 0, 1⟩ := rfl
  rcases hopens _ _ _ hone htwo htwo with hopen | hopen | hopen <;> simp [Breaker.isOpened] at hopen

end MistralrsProxy
