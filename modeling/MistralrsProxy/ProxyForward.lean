import MistralrsProxy.ControlLeases

/-! Forwarding a request, from its selection to the end of the response body. The lease and the circuit outcome pass
from the selection to the guard of the response, and with it into the body that the client polls. What the code then
does to the slot and to the circuit happens under two locks, one after the other, while the rest of the process goes
on. -/

open Transition

namespace MistralrsProxy

/-- One poll of the upstream body; a frame comes with the answer `is_end_stream` gives after it. -/
inductive FramePoll where
  | pending
  | frame (endStream : Bool)
  | done
  | error
  deriving DecidableEq, Repr

/-- `LeasedBody`: whether it still has its guard. The lease and the observer of the guard are kept with the request. -/
structure LeasedBody where
  guard : Bool
  deriving DecidableEq, Repr

namespace LeasedBody

/-- Dropping the guard drops its lease; `complete` does nothing. -/
def takeGuard (body : LeasedBody) : LeasedBody × List RequestEvent :=
  (⟨false⟩, if body.guard then [.release] else [])

def new (endStream : Bool) : LeasedBody × List RequestEvent :=
  if endStream then takeGuard ⟨true⟩ else (⟨true⟩, [])

/-- `poll_frame`: the body after the poll, and what has been done to the guard in between. -/
def pollFrame (poll : FramePoll) (body : LeasedBody) : LeasedBody × List RequestEvent :=
  match poll with
  | .error => (body.takeGuard.1, if body.guard then .bodyError :: body.takeGuard.2 else [])
  | .done | .frame true => body.takeGuard
  | .frame false | .pending => (body, [])

end LeasedBody

/-- How far the handler of a request has come. -/
inductive Exchange where
  /-- `forward` has a selection and waits for the upstream. -/
  | forwarding
  | streaming (body : LeasedBody)
  /-- Neither the handler nor the body is left. -/
  | finished
  deriving DecidableEq, Repr

/-- The process with the exchanges of its requests. What a handler has yet to do under the locks is done in order,
before the handler goes on. -/
structure ProxyWorld where
  control : ControlWorld
  exchanges : Nat → Option Exchange
  effects : Nat → List RequestEvent

inductive ProxyOp where
  /-- A step of `select` for a request that has not been forwarded. -/
  | select (request : Nat)
  /-- The upstream cannot be reached. -/
  | transportFailure (request : Nat)
  /-- The selection is dropped: the client is gone, or there is no upstream address. -/
  | abandon (request : Nat)
  /-- The upstream answers; the flag tells that its body is empty. -/
  | respond (request : Nat) (status : Nat) (endStream : Bool)
  | poll (request : Nat) (poll : FramePoll)
  | dropBody (request : Nat)
  /-- The next effect of the handler of a request. -/
  | perform (request : Nat)
  /-- Anything else in the process. -/
  | manage (op : ControlOp)
  deriving DecidableEq

/-- The steps of probes, of operators, of drain tasks and of the clock. -/
def ControlOp.isManagement : ControlOp → Bool
  | .select _ | .request _ _ | .restart _ => false
  | _ => true

/-- An effect of a handler; reporting a body error without an observer does nothing. -/
def ControlWorld.perform (request : Nat) (event : RequestEvent) (world : ControlWorld) : Option ControlWorld :=
  match world.requests request, event with
  | some (.guarded _ none), .bodyError => some world
  | _, _ => world.requestStep request event

namespace ProxyWorld

def setExchange (request : Nat) (exchange : Exchange) (effects : List RequestEvent) (world : ProxyWorld) :
    ProxyWorld where
  control := world.control
  exchanges := Function.update world.exchanges request (some exchange)
  effects := Function.update world.effects request effects

/-- The handler goes on once its effects are done. -/
def advance (request : Nat) (next : Exchange → Option (Exchange × List RequestEvent)) (world : ProxyWorld) :
    Option ProxyWorld :=
  match world.exchanges request, world.effects request with
  | some exchange, [] => (next exchange).map fun result => world.setExchange request result.1 result.2
  | _, _ => none

/-- The selection of a forwarded request is used up. -/
def ofForwarding (result : Exchange × List RequestEvent) : Exchange → Option (Exchange × List RequestEvent)
  | .forwarding => some result
  | _ => none

def ofStreaming (next : LeasedBody → Exchange × List RequestEvent) : Exchange → Option (Exchange × List RequestEvent)
  | .streaming body => some (next body)
  | _ => none

def step (world : ProxyWorld) : ProxyOp → Option ProxyWorld
  | .select request =>
      if world.exchanges request ≠ none then none
      else
        (world.control.selectStep request).map fun control =>
          { world with
            control := control
            exchanges := if (control.requests request).isSome then
                Function.update world.exchanges request (some .forwarding)
              else world.exchanges }
  | .transportFailure request => world.advance request (ofForwarding (.finished, [.transportFailure, .release]))
  | .abandon request => world.advance request (ofForwarding (.finished, [.release, .resolve]))
  | .respond request status endStream =>
      world.advance request (ofForwarding (.streaming (LeasedBody.new endStream).1,
        .response status :: (LeasedBody.new endStream).2))
  | .poll request poll =>
      world.advance request (ofStreaming fun body => (.streaming (body.pollFrame poll).1, (body.pollFrame poll).2))
  | .dropBody request => world.advance request (ofStreaming fun body => (.finished, body.takeGuard.2))
  | .perform request =>
      match world.effects request with
      | [] => none
      | event :: rest =>
          (world.control.perform request event).map fun control =>
            { world with control := control, effects := Function.update world.effects request rest }
  | .manage op =>
      if op.isManagement then (world.control.step op).map fun control => { world with control := control } else none

end ProxyWorld

/-- One process, from its start. -/
def proxySystem : System ProxyWorld ProxyOp where
  initial world := (∃ config store now, ControlWorld.boot config store now = some world.control) ∧
    (∀ request, world.exchanges request = none) ∧ ∀ request, world.effects request = []
  step := ProxyWorld.step

abbrev ProxyStep := Step ProxyWorld ProxyOp

/-- What the handler, its effects and the request's entry in the process can be together. -/
inductive Consistent : Option Exchange → List RequestEvent → Option RoutedRequest → Prop
  | unused : Consistent none [] none
  | forwarding (lease : BackendLease) (permit : CircuitPermit) :
      Consistent (some .forwarding) [] (some (.selected lease permit))
  | failing (lease : BackendLease) (permit : CircuitPermit) :
      Consistent (some .finished) [.transportFailure, .release] (some (.selected lease permit))
  | abandoning (lease : BackendLease) (permit : CircuitPermit) :
      Consistent (some .finished) [.release, .resolve] (some (.selected lease permit))
  | abandoned (permit : CircuitPermit) : Consistent (some .finished) [.resolve] (some (.unleased permit))
  | responding (lease : BackendLease) (permit : CircuitPermit) (status : Nat) :
      Consistent (some (.streaming ⟨true⟩)) [.response status] (some (.selected lease permit))
  | respondingEmpty (lease : BackendLease) (permit : CircuitPermit) (status : Nat) :
      Consistent (some (.streaming ⟨false⟩)) [.response status, .release] (some (.selected lease permit))
  | streaming (lease : BackendLease) (observer : Option BodyFailureObserver) :
      Consistent (some (.streaming ⟨true⟩)) [] (some (.guarded lease observer))
  | erring (lease : BackendLease) (observer : Option BodyFailureObserver) :
      Consistent (some (.streaming ⟨false⟩)) [.bodyError, .release] (some (.guarded lease observer))
  | closing (exchange : Exchange) (hexchange : exchange = .finished ∨ exchange = .streaming ⟨false⟩)
    (lease : BackendLease)
      (observer : Option BodyFailureObserver) : Consistent (some exchange) [.release] (some (.guarded lease observer))
  | closed (exchange : Exchange) (hexchange : exchange = .finished ∨ exchange = .streaming ⟨false⟩) :
      Consistent (some exchange) [] none

/-- What a handler does next, and the effects it leaves to be done. -/
inductive Move : ProxyOp → Nat → Exchange → Exchange → List RequestEvent → Prop
  | fail (request : Nat) : Move (.transportFailure request) request .forwarding .finished [.transportFailure, .release]
  | abandon (request : Nat) : Move (.abandon request) request .forwarding .finished [.release, .resolve]
  | respond (request status : Nat) :
      Move (.respond request status false) request .forwarding (.streaming ⟨true⟩) [.response status]
  | respondEmpty (request status : Nat) :
      Move (.respond request status true) request .forwarding (.streaming ⟨false⟩) [.response status, .release]
  | keep (request : Nat) (poll : FramePoll) (hpoll : poll = .pending ∨ poll = .frame false) (body : LeasedBody) :
      Move (.poll request poll) request (.streaming body) (.streaming body) []
  | finish (request : Nat) (poll : FramePoll) (hpoll : poll = .done ∨ poll = .frame true) :
      Move (.poll request poll) request (.streaming ⟨true⟩) (.streaming ⟨false⟩) [.release]
  | error (request : Nat) :
      Move (.poll request .error) request (.streaming ⟨true⟩) (.streaming ⟨false⟩) [.bodyError, .release]
  | spent (request : Nat) (poll : FramePoll) :
      Move (.poll request poll) request (.streaming ⟨false⟩) (.streaming ⟨false⟩) []
  | drop (request : Nat) : Move (.dropBody request) request (.streaming ⟨true⟩) .finished [.release]
  | dropSpent (request : Nat) : Move (.dropBody request) request (.streaming ⟨false⟩) .finished []

theorem move_poll (request : Nat) (poll : FramePoll) (body : LeasedBody) :
    Move (.poll request poll) request (.streaming body) (.streaming (body.pollFrame poll).1)
    (body.pollFrame poll).2 := by
  obtain ⟨guard⟩ := body
  cases poll with
  | pending => exact .keep request _ (.inl rfl) _
  | frame endStream =>
      cases endStream with
      | false => exact .keep request _ (.inr rfl) _
      | true =>
          cases guard with
          | false => exact .spent request _
          | true => exact .finish request _ (.inr rfl)
  | done =>
      cases guard with
      | false => exact .spent request _
      | true => exact .finish request _ (.inl rfl)
  | error =>
      cases guard with
      | false => exact .spent request _
      | true => exact .error request

theorem move_dropBody (request : Nat) (body : LeasedBody) :
    Move (.dropBody request) request (.streaming body) .finished body.takeGuard.2 := by
  obtain ⟨guard⟩ := body
  cases guard with
  | false => exact .dropSpent request
  | true => exact .drop request

theorem move_respond (request status : Nat) (endStream : Bool) :
    Move (.respond request status endStream) request .forwarding (.streaming (LeasedBody.new endStream).1)
      (.response status :: (LeasedBody.new endStream).2) := by
  cases endStream with
  | false => exact .respond request status
  | true => exact .respondEmpty request status

/-- Everything a step of the process can be. -/
inductive ProxyWorld.Steps (world : ProxyWorld) (op : ProxyOp) (next : ProxyWorld) : Prop
  | move (request : Nat) (exchange exchange' : Exchange) (effects : List RequestEvent)
      (hmove : Move op request exchange exchange' effects) (hexchange : world.exchanges request = some exchange)
      (heffects : world.effects request = []) (hnext : next = world.setExchange request exchange' effects)
  | perform (request : Nat) (event : RequestEvent) (rest : List RequestEvent) (control : ControlWorld)
      (hop : op = .perform request) (heffects : world.effects request = event :: rest)
      (hcontrol : world.control.perform request event = some control)
      (hnext : next = { world with control := control, effects := Function.update world.effects request rest })
  | select (request : Nat) (control : ControlWorld) (hop : op = .select request)
      (hexchange : world.exchanges request = none) (hcontrol : world.control.selectStep request = some control)
      (hnext : next = { world with
        control := control
        exchanges := if (control.requests request).isSome then
            Function.update world.exchanges request (some .forwarding)
          else world.exchanges })
  | manage (managed : ControlOp) (control : ControlWorld) (hop : op = .manage managed)
      (hmanaged : managed.isManagement = true) (hcontrol : world.control.step managed = some control)
      (hnext : next = { world with control := control })

namespace ProxyWorld

variable {world next : ProxyWorld} {request : Nat}

theorem advance_some {move : Exchange → Option (Exchange × List RequestEvent)}
    (h : world.advance request move = some next) :
    ∃ exchange result, world.exchanges request = some exchange ∧ world.effects request = [] ∧
      move exchange = some result ∧ next = world.setExchange request result.1 result.2 := by
  unfold advance at h
  split at h
  · rename_i exchange hexchange heffects
    obtain ⟨result, hresult, rfl⟩ := Option.map_eq_some_iff.mp h
    exact ⟨exchange, result, hexchange, heffects, hresult, rfl⟩
  · cases h

theorem ofForwarding_some {result given : Exchange × List RequestEvent} {exchange : Exchange}
    (h : ofForwarding given exchange = some result) : exchange = .forwarding ∧ result = given := by
  cases exchange with
  | forwarding => exact ⟨rfl, (Option.some.inj h).symm⟩
  | streaming body => cases h
  | finished => cases h

theorem ofStreaming_some {move : LeasedBody → Exchange × List RequestEvent} {result : Exchange × List RequestEvent}
    {exchange : Exchange} (h : ofStreaming move exchange = some result) :
    ∃ body, exchange = .streaming body ∧ result = move body := by
  cases exchange with
  | forwarding => cases h
  | streaming body => exact ⟨body, rfl, (Option.some.inj h).symm⟩
  | finished => cases h

theorem step_cases {op : ProxyOp} (h : world.step op = some next) : world.Steps op next := by
  cases op with
  | select request =>
      simp only [step] at h
      split at h
      · cases h
      · rename_i hexchange
        obtain ⟨control, hcontrol, rfl⟩ := Option.map_eq_some_iff.mp h
        exact .select request control rfl (not_not.mp hexchange) hcontrol rfl
  | transportFailure request =>
      obtain ⟨exchange, result, hexchange, heffects, hresult, rfl⟩ := advance_some h
      obtain ⟨rfl, rfl⟩ := ofForwarding_some hresult
      exact .move request _ _ _ (.fail request) hexchange heffects rfl
  | abandon request =>
      obtain ⟨exchange, result, hexchange, heffects, hresult, rfl⟩ := advance_some h
      obtain ⟨rfl, rfl⟩ := ofForwarding_some hresult
      exact .move request _ _ _ (.abandon request) hexchange heffects rfl
  | respond request status endStream =>
      obtain ⟨exchange, result, hexchange, heffects, hresult, rfl⟩ := advance_some h
      obtain ⟨rfl, rfl⟩ := ofForwarding_some hresult
      exact .move request _ _ _ (move_respond request status endStream) hexchange heffects rfl
  | poll request poll =>
      obtain ⟨exchange, result, hexchange, heffects, hresult, rfl⟩ := advance_some h
      obtain ⟨body, rfl, rfl⟩ := ofStreaming_some hresult
      exact .move request _ _ _ (move_poll request poll body) hexchange heffects rfl
  | dropBody request =>
      obtain ⟨exchange, result, hexchange, heffects, hresult, rfl⟩ := advance_some h
      obtain ⟨body, rfl, rfl⟩ := ofStreaming_some hresult
      exact .move request _ _ _ (move_dropBody request body) hexchange heffects rfl
  | perform request =>
      simp only [step] at h
      split at h
      · cases h
      · rename_i event rest heffects
        obtain ⟨control, hcontrol, rfl⟩ := Option.map_eq_some_iff.mp h
        exact .perform request event rest control rfl heffects hcontrol rfl
  | manage op =>
      simp only [step] at h
      split at h
      · rename_i hmanaged
        obtain ⟨control, hcontrol, rfl⟩ := Option.map_eq_some_iff.mp h
        exact .manage op control rfl hmanaged hcontrol rfl
      · cases h

end ProxyWorld

/-- What an effect makes of the entry of its request. -/
inductive Performs (world : ControlWorld) : RoutedRequest → RequestEvent → Option RoutedRequest → Prop
  | transportFailure (lease : BackendLease) (permit : CircuitPermit) :
      Performs world (.selected lease permit) .transportFailure (some (.guarded lease none))
  | response (lease : BackendLease) (permit : CircuitPermit) (status : Nat) :
      Performs world (.selected lease permit) (.response status) (some (.guarded lease
        (world.routing.inner.updateBreaker permit.backendId (permit.intoResponseGuard status world.now)).2.join))
  | bodyError (lease : BackendLease) (observer : Option BodyFailureObserver) :
      Performs world (.guarded lease observer) .bodyError (some (.guarded lease none))
  | release (lease : BackendLease) (observer : Option BodyFailureObserver) :
      Performs world (.guarded lease observer) .release none
  | abandon (lease : BackendLease) (permit : CircuitPermit) :
      Performs world (.selected lease permit) .release (some (.unleased permit))
  | resolve (permit : CircuitPermit) : Performs world (.unleased permit) .resolve none

namespace ControlWorld

variable {world next : ControlWorld} {request : Nat} {event : RequestEvent}

theorem requestStep_performs (h : world.requestStep request event = some next) :
    ∃ routed after, world.requests request = some routed ∧ Performs world routed event after ∧
      next.requests = Function.update world.requests request after := by
  unfold requestStep at h
  split at h
  · rename_i lease permit hrouted
    cases h
    exact ⟨_, _, hrouted, .transportFailure lease permit, rfl⟩
  · rename_i lease permit status hrouted
    cases h
    exact ⟨_, _, hrouted, .response lease permit status, rfl⟩
  · rename_i lease permit hrouted
    obtain ⟨released, hreleased, rfl⟩ := Option.map_eq_some_iff.mp h
    obtain ⟨_, _, _, _, rfl⟩ := releaseLease_some hreleased
    exact ⟨_, _, hrouted, .abandon lease permit, rfl⟩
  · rename_i lease observer hrouted
    cases h
    exact ⟨_, _, hrouted, .bodyError lease (some observer), rfl⟩
  · rename_i lease observer hrouted
    obtain ⟨released, hreleased, rfl⟩ := Option.map_eq_some_iff.mp h
    obtain ⟨_, _, _, _, rfl⟩ := releaseLease_some hreleased
    exact ⟨_, _, hrouted, .release lease observer, rfl⟩
  · rename_i permit hrouted
    cases h
    exact ⟨_, _, hrouted, .resolve permit, rfl⟩
  · cases h

theorem perform_cases (h : world.perform request event = some next) :
    (∃ lease, world.requests request = some (.guarded lease none) ∧ event = .bodyError ∧ next = world) ∨
      world.requestStep request event = some next := by
  unfold perform at h
  split at h
  · rename_i lease hrouted
    cases h
    exact .inl ⟨lease, hrouted, rfl, rfl⟩
  · exact .inr h

theorem perform_some (h : world.perform request event = some next) :
    ∃ routed after, world.requests request = some routed ∧ Performs world routed event after ∧
      next.requests = Function.update world.requests request after := by
  rcases perform_cases h with ⟨lease, hrouted, rfl, rfl⟩ | h
  · refine ⟨_, _, hrouted, .bodyError lease none, ?_⟩
    rw [← hrouted, Function.update_eq_self]
  · exact requestStep_performs h

/-- Nothing but its handler touches the entry of a request. -/
theorem manage_requests {op : ControlOp} (hop : op.isManagement = true) (h : world.step op = some next) :
    next.requests = world.requests ∧ BackendRegistry.SameLeases world.registry next.registry ∧
      next.selector = world.selector := by
  cases op with
  | select | request | restart => cases hop
  | readiness | beginScrape | endScrape | elapse =>
      obtain ⟨hregistry, hrequests, hselector⟩ := step_probe rfl h
      exact ⟨hrequests, BackendRegistry.SameLeases.of_eq hregistry, hselector⟩
  | drain | activate | disable | reload | proceed | drive =>
      have hlocked := step_locked rfl (fun _ => ControlOp.noConfusion) h
      exact ⟨hlocked.requests, hlocked.leases, hlocked.selector⟩

end ControlWorld

/-- Every handler, its effects and its entry belong together. -/
def AllConsistent (world : ProxyWorld) : Prop :=
  ∀ request, Consistent (world.exchanges request) (world.effects request) (world.control.requests request)

namespace AllConsistent

variable {world next : ProxyWorld}

theorem move {op : ProxyOp} {exchange exchange' : Exchange} {effects : List RequestEvent}
    {routed : Option RoutedRequest}
    {request : Nat} (h : Consistent (some exchange) [] routed) (hmove : Move op request exchange exchange' effects) :
    Consistent (some exchange') effects routed := by
  cases hmove with
  | fail =>
      cases h with
      | forwarding lease permit => exact .failing lease permit
      | closed _ hexchange => rcases hexchange with h | h <;> cases h
  | abandon =>
      cases h with
      | forwarding lease permit => exact .abandoning lease permit
      | closed _ hexchange => rcases hexchange with h | h <;> cases h
  | respond =>
      cases h with
      | forwarding lease permit => exact .responding lease permit _
      | closed _ hexchange => rcases hexchange with h | h <;> cases h
  | respondEmpty =>
      cases h with
      | forwarding lease permit => exact .respondingEmpty lease permit _
      | closed _ hexchange => rcases hexchange with h | h <;> cases h
  | keep => exact h
  | finish =>
      cases h with
      | streaming lease observer => exact .closing _ (.inr rfl) lease observer
      | closed _ hexchange => rcases hexchange with h | h <;> cases h
  | error =>
      cases h with
      | streaming lease observer => exact .erring lease observer
      | closed _ hexchange => rcases hexchange with h | h <;> cases h
  | spent => exact h
  | drop =>
      cases h with
      | streaming lease observer => exact .closing _ (.inl rfl) lease observer
      | closed _ hexchange => rcases hexchange with h | h <;> cases h
  | dropSpent =>
      cases h with
      | closed => exact .closed _ (.inl rfl)

theorem perform {control : ControlWorld} {exchange : Option Exchange} {event : RequestEvent} {rest : List RequestEvent}
    {routed : RoutedRequest} {after : Option RoutedRequest} (h : Consistent exchange (event :: rest) (some routed))
    (hperforms : Performs control routed event after) : Consistent exchange rest after := by
  cases h with
  | failing lease permit =>
      cases hperforms with
      | transportFailure => exact .closing _ (.inl rfl) lease none
  | abandoning lease permit =>
      cases hperforms with
      | abandon => exact .abandoned permit
  | abandoned permit =>
      cases hperforms with
      | resolve => exact .closed _ (.inl rfl)
  | responding lease permit status =>
      cases hperforms with
      | response => exact .streaming lease _
  | respondingEmpty lease permit status =>
      cases hperforms with
      | response => exact .closing _ (.inr rfl) lease _
  | erring lease observer =>
      cases hperforms with
      | bodyError => exact .closing _ (.inr rfl) lease none
  | closing exchange hexchange lease observer =>
      cases hperforms with
      | release => exact .closed exchange hexchange

theorem step (h : AllConsistent world) {op : ProxyOp} (hstep : world.step op = some next) : AllConsistent next := by
  intro other
  cases ProxyWorld.step_cases hstep with
  | move request exchange exchange' effects hmove hexchange heffects hnext =>
      subst hnext
      by_cases hother : other = request
      · subst hother
        have hbefore := h other
        rw [hexchange, heffects] at hbefore
        simp only [ProxyWorld.setExchange, Function.update_self]
        exact move hbefore hmove
      · simp only [ProxyWorld.setExchange, Function.update_of_ne hother]
        exact h other
  | perform request event rest control _ heffects hcontrol hnext =>
      subst hnext
      obtain ⟨routed, after, hrouted, hperforms, hrequests⟩ := ControlWorld.perform_some hcontrol
      by_cases hother : other = request
      · subst hother
        have hbefore := h other
        rw [heffects, hrouted] at hbefore
        simp only [hrequests, Function.update_self]
        exact perform hbefore hperforms
      · simp only [hrequests, Function.update_of_ne hother]
        exact h other
  | select request control _ hexchange hcontrol hnext =>
      subst hnext
      have hbefore := h request
      rw [hexchange] at hbefore
      generalize hentry : world.control.requests request = entry at hbefore
      generalize heffects : world.effects request = effects at hbefore
      cases hbefore with
      | unused =>
          rcases ControlWorld.selectStep_some hcontrol with
            ⟨_, hrequests⟩ | ⟨_, _, permit, _, _, _, lease, _, _, _, _, hnext⟩
          · have hnone : (control.requests request).isSome = false := by rw [hrequests, hentry]; rfl
            dsimp only
            rw [hnone, if_neg Bool.false_ne_true, hrequests]
            exact h other
          · have hrequests : control.requests =
                Function.update world.control.requests request (some (.selected lease permit)) := by rw [hnext]
            have hsome : (control.requests request).isSome = true := by rw [hrequests, Function.update_self]; rfl
            dsimp only
            rw [hsome, if_pos rfl, hrequests]
            by_cases hother : other = request
            · subst hother
              rw [Function.update_self, Function.update_self, heffects]
              exact .forwarding lease permit
            · rw [Function.update_of_ne hother, Function.update_of_ne hother]
              exact h other
  | manage managed control _ hmanaged hcontrol hnext =>
      subst hnext
      simp only [(ControlWorld.manage_requests hmanaged hcontrol).1]
      exact h other

theorem of_run {guard : ProxyWorld → ProxyOp → Prop} {record : List ProxyStep}
    (hrun : Run proxySystem guard record world) :
    AllConsistent world := by
  refine hrun.invariant ?_ ?_
  · rintro world ⟨⟨config, store, now, hboot⟩, hexchanges, heffects⟩ request
    rw [hexchanges, heffects, (ControlWorld.boot_requests hboot).1 request]
    exact .unused
  · intro world op next h _ hnext
    exact h.step hnext

end AllConsistent

/-- The control plane of the process keeps its lease accounting. -/
theorem ControlWorld.perform_leased {world next : ControlWorld} {request : Nat} {event : RequestEvent}
    (h : Leased world)
    (hperform : world.perform request event = some next) : Leased next := by
  rcases ControlWorld.perform_cases hperform with ⟨_, _, _, rfl⟩ | hstep
  · exact h
  · exact h.request hstep

theorem ProxyWorld.leased_step {world next : ProxyWorld} (h : Leased world.control) {op : ProxyOp}
    (hstep : world.step op = some next) : Leased next.control := by
  cases ProxyWorld.step_cases hstep with
  | move request exchange exchange' effects hmove hexchange heffects hnext =>
      subst hnext
      exact h
  | perform request event rest control _ _ hcontrol hnext =>
      subst hnext
      exact ControlWorld.perform_leased h hcontrol
  | select request control _ _ hcontrol hnext =>
      subst hnext
      exact h.select hcontrol
  | manage managed control _ _ hcontrol hnext =>
      subst hnext
      exact h.step hcontrol

theorem ProxyWorld.leased_of_run {guard : ProxyWorld → ProxyOp → Prop} {record : List ProxyStep} {world : ProxyWorld}
    (hrun : Run proxySystem guard record world) : Leased world.control := by
  refine hrun.invariant (I := fun world => Leased world.control) ?_ ?_
  · rintro world ⟨⟨config, store, now, hboot⟩, _⟩
    exact Leased.boot hboot
  · intro world op next h _ hnext
    exact ProxyWorld.leased_step h hnext

end MistralrsProxy
