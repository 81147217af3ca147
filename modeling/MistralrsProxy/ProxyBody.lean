import MistralrsProxy.ProxyForward
import MistralrsProxy.ControlPermits
import Mathlib.Data.List.Count

/-! What a forwarded request does to its backend over its whole life. Its lease is outstanding from the selection until
the exchange has ended, and is released once; its circuit is charged with one failure at most. -/

open Transition

namespace MistralrsProxy

/-- The slot of the backend still counts the lease. -/
def ControlWorld.outstanding (lease : BackendLease) (world : ControlWorld) : Bool :=
  (world.registry.find? lease.spec.id).any fun slot => decide (lease.key ∈ slot.leases)

/-- The circuit epoch of a backend that has live state. -/
def ControlWorld.circuitEpoch (id : BackendId) (world : ControlWorld) : Option Nat :=
  (world.routing.inner.backends id).map fun live => live.circuitEpoch

/-- The effect charges the circuit with a failure: it reports one, and its epoch is the current one. -/
def ControlWorld.countsFailure (request : Nat) (event : RequestEvent) (world : ControlWorld) : Bool :=
  match world.requests request, event with
  | some (.selected _ permit), .transportFailure =>
      !permit.resolved && decide (world.circuitEpoch permit.backendId = some permit.circuitEpoch)
  | some (.selected _ permit), .response status =>
      isFailureStatus status && !permit.resolved &&
        decide (world.circuitEpoch permit.backendId = some permit.circuitEpoch)
  | some (.guarded _ (some observer)), .bodyError =>
      decide (world.circuitEpoch observer.backendId = some observer.circuitEpoch)
  | _, _ => false

/-- The selection of a request takes the lease. -/
def Acquires (request : Nat) (lease : BackendLease) (step : ProxyStep) : Prop :=
  step.action = .select request ∧ step.before.control.requests request = none ∧
    ∃ permit, step.after.control.requests request = some (.selected lease permit)

/-- The step takes the lease out of the count. -/
def releases (lease : BackendLease) (step : ProxyStep) : Bool :=
  step.before.control.outstanding lease && !step.after.control.outstanding lease

/-- The effect of the request that the step performs. -/
def performed (request : Nat) (step : ProxyStep) : Option RequestEvent :=
  if step.action = .perform request then (step.before.effects request).head? else none

/-- The step charges the circuit with a failure of the request. -/
def countsFailure (request : Nat) (step : ProxyStep) : Bool :=
  (performed request step).any fun event => step.before.control.countsFailure request event

/-- The body has ended, errored or been dropped, or there never was one. -/
def endsExchange (request : Nat) : ProxyOp → Bool
  | .transportFailure other | .abandon other | .dropBody other => other == request
  | .respond other _ endStream => other == request && endStream
  | .poll other poll => other == request && (poll == .done || poll == .frame true || poll == .error)
  | _ => false

/-- The lease has been released, and its serial will not be given out again. -/
def BackendRegistry.Retired (lease : BackendLease) (registry : BackendRegistry) : Prop :=
  ∃ slot, registry.find? lease.spec.id = some slot ∧ lease.key ∉ slot.leases ∧ lease.key.serial < slot.nextLeaseSerial

namespace BackendRegistry.Retired

variable {lease : BackendLease} {registry next : BackendRegistry} {id : BackendId} {slot after : SlotState}

theorem sameLeases (h : registry.Retired lease) (hsame : SameLeases registry next) : next.Retired lease := by
  obtain ⟨slot, hslot, hkey, hserial⟩ := h
  obtain ⟨after, hafter, hkept⟩ := hsame.kept _ slot hslot
  refine ⟨after, hafter, ?_, ?_⟩
  · rw [hkept.leases]
    exact hkey
  · rw [hkept.nextLeaseSerial]
    exact hserial

theorem put (h : registry.Retired lease) (hslot : registry.find? id = some slot) (hid : after.spec.id = id)
    (hserial : slot.nextLeaseSerial ≤ after.nextLeaseSerial)
    (hleases : ∀ key ∈ after.leases, key ∈ slot.leases ∨ slot.nextLeaseSerial ≤ key.serial) :
    Retired lease (registry.put after) := by
  obtain ⟨found, hfound, hkey, hlt⟩ := h
  by_cases hsame : lease.spec.id = id
  · rw [hsame, hslot, Option.some.injEq] at hfound
    subst hfound
    refine ⟨after, ?_, ?_, hlt.trans_le hserial⟩
    · rw [find?_replace hslot hid, if_pos hsame]
    · intro hmem
      rcases hleases _ hmem with hmem | hle
      · exact hkey hmem
      · omega
  · refine ⟨found, ?_, hkey, hlt⟩
    rw [find?_replace hslot hid, if_neg hsame, hfound]

end BackendRegistry.Retired

namespace ControlWorld

variable {world next : ControlWorld} {lease : BackendLease} {request : Nat} {event : RequestEvent}

theorem outstanding_of_holds (hleased : Leased world) (h : world.Holds request lease) :
    world.outstanding lease = true := by
  obtain ⟨slot, hslot, hkey⟩ := hleased.accounted request lease h
  simp [outstanding, hslot, hkey]

theorem not_outstanding_of_retired (h : world.registry.Retired lease) : world.outstanding lease = false := by
  obtain ⟨slot, hslot, hkey, _⟩ := h
  simp [outstanding, hslot, hkey]

theorem retired_perform (h : world.registry.Retired lease) (hperform : world.perform request event = some next) :
    next.registry.Retired lease := by
  rcases perform_cases hperform with ⟨_, _, _, rfl⟩ | hstep
  · exact h
  · obtain ⟨_, _, _, _, ⟨hregistry, _⟩ | ⟨_, other, slot, released, _, hslot, hrelease, hregistry⟩⟩ :=
      requestStep_some hstep
    · rw [hregistry]
      exact h
    · obtain ⟨_, rfl⟩ := SlotState.release_some hrelease
      rw [hregistry]
      have hid := BackendRegistry.slot_id hslot
      refine h.put hslot ?_ ?_ ?_
      · exact hid
      · exact le_rfl
      · intro key hkey
        exact .inl (Finset.mem_of_mem_erase hkey)

theorem retired_select (h : world.registry.Retired lease) (hselect : world.selectStep request = some next) :
    next.registry.Retired lease := by
  rcases selectStep_some hselect with
    ⟨hregistry, _⟩ | ⟨_, candidate, _, _, slot, after, _, _, _, hslot, hacquire, hnext⟩
  · rw [hregistry]
    exact h
  · obtain ⟨_, _, _, rfl⟩ := SlotState.tryAcquire_ok hacquire
    rw [hnext]
    have hid := BackendRegistry.slot_id hslot
    refine h.put hslot ?_ ?_ ?_
    · exact hid
    · exact Nat.le_succ _
    · intro key hkey
      rcases Finset.mem_insert.mp hkey with rfl | hmem
      · exact .inr le_rfl
      · exact .inl hmem

/-- An effect of the holder keeps the lease or retires it. -/
theorem holds_perform (hleased : Leased world) (h : world.Holds request lease)
    (hperform : world.perform request event = some next) :
    next.Holds request lease ∨
      next.registry.Retired lease ∧ (next.requests request).bind RoutedRequest.lease = none := by
  rcases perform_cases hperform with ⟨_, _, _, rfl⟩ | hstep
  · exact .inl h
  · obtain ⟨routed, after, hrouted, hrequests,
      ⟨_, hkept⟩ | ⟨hdropped, held, slot, released, hheld, hslot, hrelease, hregistry⟩⟩ :=
      requestStep_some hstep
    · left
      rw [Holds, hrequests, Function.update_self, hkept]
      rw [Holds, hrouted, Option.bind_some] at h
      exact h
    · right
      rw [Holds, hrouted, Option.bind_some, hheld, Option.some.injEq] at h
      subst h
      obtain ⟨hkey, rfl⟩ := SlotState.release_some hrelease
      rw [hregistry]
      have hid := BackendRegistry.slot_id hslot
      refine ⟨⟨_, (BackendRegistry.find?_replace hslot ?_ _).trans (if_pos rfl), ?_, ?_⟩, ?_⟩
      · exact hid
      · exact Finset.notMem_erase _ _
      · exact hleased.fresh _ slot hslot _ hkey
      · rw [hrequests, Function.update_self]
        exact hdropped

theorem holds_perform_other {other : Nat} (hother : other ≠ request) (h : world.Holds other lease)
    (hperform : world.perform request event = some next) : next.Holds other lease := by
  obtain ⟨_, _, _, _, hrequests⟩ := perform_some hperform
  rw [Holds, hrequests, Function.update_of_ne hother]
  exact h

theorem holds_select {other : Nat} (h : world.Holds other lease) (hselect : world.selectStep request = some next) :
    next.Holds other lease := by
  rcases selectStep_some hselect with ⟨_, hrequests⟩ | ⟨_, _, permit, _, _, _, taken, _, hnone, _, _, hnext⟩
  · rw [Holds, hrequests]
    exact h
  · have hother : other ≠ request := by
      rintro rfl
      rw [Holds, hnone] at h
      cases h
    have hrequests : next.requests = Function.update world.requests request (some (.selected taken permit)) := by
      rw [hnext]
    rw [Holds, hrequests, Function.update_of_ne hother]
    exact h

end ControlWorld

namespace ProxyWorld

variable {world next : ProxyWorld} {lease : BackendLease} {request : Nat} {op : ProxyOp}

theorem retired_step (h : world.control.registry.Retired lease) (hstep : world.step op = some next) :
    next.control.registry.Retired lease := by
  cases step_cases hstep with
  | move _ _ _ _ _ _ _ hnext =>
      subst hnext
      exact h
  | perform _ _ _ _ _ _ hcontrol hnext =>
      subst hnext
      exact ControlWorld.retired_perform h hcontrol
  | select _ _ _ _ hcontrol hnext =>
      subst hnext
      exact ControlWorld.retired_select h hcontrol
  | manage _ _ _ hmanaged hcontrol hnext =>
      subst hnext
      exact h.sameLeases (ControlWorld.manage_requests hmanaged hcontrol).2.1

theorem holds_step (hleased : Leased world.control) (h : world.control.Holds request lease)
    (hstep : world.step op = some next) :
    next.control.Holds request lease ∨ next.control.registry.Retired lease ∧
      (next.control.requests request).bind RoutedRequest.lease = none := by
  cases step_cases hstep with
  | move _ _ _ _ _ _ _ hnext =>
      subst hnext
      exact .inl h
  | perform other _ _ _ _ _ hcontrol hnext =>
      subst hnext
      by_cases hother : request = other
      · subst hother
        exact ControlWorld.holds_perform hleased h hcontrol
      · exact .inl (ControlWorld.holds_perform_other hother h hcontrol)
  | select _ _ _ _ hcontrol hnext =>
      subst hnext
      exact .inl (ControlWorld.holds_select h hcontrol)
  | manage _ _ _ hmanaged hcontrol hnext =>
      subst hnext
      left
      rw [ControlWorld.Holds, (ControlWorld.manage_requests hmanaged hcontrol).1]
      exact h

end ProxyWorld

/-- The body still has its guard, or there is no body yet. -/
def Exchange.isOpen : Exchange → Bool
  | .forwarding | .streaming ⟨true⟩ => true
  | .streaming ⟨false⟩ | .finished => false

theorem Move.isOpen {op : ProxyOp} {request : Nat} {exchange exchange' : Exchange} {effects : List RequestEvent}
    (h : Move op request exchange exchange' effects) :
    exchange'.isOpen = (exchange.isOpen && !endsExchange request op) := by
  cases h with
  | fail | abandon | respond | respondEmpty | error | drop => simp [Exchange.isOpen, endsExchange]
  | keep _ poll hpoll body => rcases hpoll with rfl | rfl <;> simp [endsExchange]
  | finish _ poll hpoll => rcases hpoll with rfl | rfl <;> simp [Exchange.isOpen, endsExchange]
  | spent | dropSpent => rfl

theorem Move.not_ends {op : ProxyOp} {request other : Nat} {exchange exchange' : Exchange} {effects : List RequestEvent}
    (h : Move op other exchange exchange' effects) (hother : other ≠ request) : endsExchange request op = false := by
  cases h <;> simp [endsExchange, hother]

theorem Move.ne_perform {op : ProxyOp} {request other : Nat} {exchange exchange' : Exchange}
    {effects : List RequestEvent} (h : Move op other exchange exchange' effects) : op ≠ .perform request := by
  rintro rfl
  cases h

theorem Move.ne_finished {op : ProxyOp} {request : Nat} {exchange exchange' : Exchange} {effects : List RequestEvent}
    (h : Move op request exchange exchange' effects) : exchange ≠ .finished := by
  rintro rfl
  cases h

namespace ProxyWorld

variable {world next : ProxyWorld} {request : Nat} {op : ProxyOp}

/-- What a step can be to a forwarded request: nothing, a move of its handler, or one of its effects. -/
inductive StepsFor (world : ProxyWorld) (request : Nat) (exchange : Exchange) (op : ProxyOp) (next : ProxyWorld) : Prop
  | other (hperform : op ≠ .perform request) (hends : endsExchange request op = false)
      (hexchange : next.exchanges request = some exchange) (heffects : next.effects request = world.effects request)
      (hentry : next.control.requests request = world.control.requests request)
  | move (exchange' : Exchange) (hmove : Move op request exchange exchange' (next.effects request))
      (hidle : world.effects request = []) (hexchange : next.exchanges request = some exchange')
      (hcontrol : next.control = world.control)
  | perform (event : RequestEvent) (hop : op = .perform request)
      (heffects : world.effects request = event :: next.effects request)
      (hexchange : next.exchanges request = some exchange)
      (hcontrol : world.control.perform request event = some next.control)

theorem request_step {exchange : Exchange} (hexchange : world.exchanges request = some exchange)
    (hstep : world.step op = some next) : world.StepsFor request exchange op next := by
  cases step_cases hstep with
  | move other before after effects hmove hbefore hidle hnext =>
      subst hnext
      by_cases hother : other = request
      · subst hother
        rw [hexchange, Option.some.injEq] at hbefore
        subst hbefore
        refine .move after ?_ hidle (Function.update_self ..) rfl
        simp only [setExchange, Function.update_self]
        exact hmove
      · exact .other hmove.ne_perform (hmove.not_ends hother)
          ((Function.update_of_ne (Ne.symm hother) ..).trans hexchange) (Function.update_of_ne (Ne.symm hother) ..) rfl
  | perform other event rest control hop heffects hcontrol hnext =>
      subst hop hnext
      by_cases hother : request = other
      · subst hother
        refine .perform event rfl ?_ hexchange hcontrol
        simp only [Function.update_self, heffects]
      · obtain ⟨_, _, _, _, hrequests⟩ := ControlWorld.perform_some hcontrol
        refine .other ?_ rfl hexchange (Function.update_of_ne hother ..) ?_
        · rw [ne_eq, ProxyOp.perform.injEq]
          exact Ne.symm hother
        · rw [hrequests, Function.update_of_ne hother]
  | select other control hop hnone hcontrol hnext =>
      subst hop hnext
      have hother : request ≠ other := by
        rintro rfl
        rw [hexchange] at hnone
        cases hnone
      refine .other ProxyOp.noConfusion rfl ?_ rfl ?_
      · dsimp only
        split
        · rw [Function.update_of_ne hother, hexchange]
        · exact hexchange
      · rcases ControlWorld.selectStep_some hcontrol with ⟨_, hrequests⟩ | ⟨_, _, _, _, _, _, _, _, _, _, _, hnext⟩
        · dsimp only
          rw [hrequests]
        · dsimp only
          rw [hnext]
          exact Function.update_of_ne hother ..
  | manage managed control hop hmanaged hcontrol hnext =>
      subst hop hnext
      refine .other ProxyOp.noConfusion rfl hexchange rfl ?_
      dsimp only
      rw [(ControlWorld.manage_requests hmanaged hcontrol).1]

/-- An exchange goes on, and is closed by what ends it. -/
theorem exchange_step {exchange : Exchange} (hexchange : world.exchanges request = some exchange)
    (hstep : world.step op = some next) :
    ∃ exchange', next.exchanges request = some exchange' ∧
      exchange'.isOpen = (exchange.isOpen && !endsExchange request op) := by
  cases request_step hexchange hstep with
  | other _ hends hafter => exact ⟨exchange, hafter, by rw [hends, Bool.not_false, Bool.and_true]⟩
  | move exchange' hmove _ hafter => exact ⟨exchange', hafter, hmove.isOpen⟩
  | perform _ hop _ hafter => exact ⟨exchange, hafter, by rw [hop]; simp [endsExchange]⟩

/-- A request that has given its lease back gets no other. -/
theorem unleased_step {exchange : Exchange} (hexchange : world.exchanges request = some exchange)
    (h : (world.control.requests request).bind RoutedRequest.lease = none) (hstep : world.step op = some next) :
    (next.control.requests request).bind RoutedRequest.lease = none := by
  cases request_step hexchange hstep with
  | other _ _ _ _ hentry =>
      rw [hentry]
      exact h
  | move _ _ _ _ hcontrol =>
      rw [hcontrol]
      exact h
  | perform event _ _ _ hcontrol =>
      obtain ⟨routed, after, hrouted, hperforms, hrequests⟩ := ControlWorld.perform_some hcontrol
      rw [hrouted, Option.bind_some] at h
      rw [hrequests, Function.update_self]
      cases hperforms with
      | transportFailure | response | bodyError | abandon | release => cases h
      | resolve => rfl

end ProxyWorld

theorem performed_eq_none {request : Nat} {step : ProxyStep} (h : step.action ≠ .perform request) :
    performed request step = none := if_neg h

theorem performed_eq_some {request : Nat} {step : ProxyStep} {event : RequestEvent} {rest : List RequestEvent}
    (haction : step.action = .perform request) (heffects : step.before.effects request = event :: rest) :
    performed request step = some event := by
  rw [performed, if_pos haction, heffects]
  rfl

section Exchange

variable {recent older : List ProxyStep} {mark : ProxyStep} {world : ProxyWorld} {request : Nat} {lease : BackendLease}

/-- The exchange starts with the selection and is closed by the first step that ends it. -/
theorem exchange_of_run (hrun : Run proxySystem Free (recent ++ mark :: older) world)
    (hacquires : Acquires request lease mark) :
    ∃ exchange, world.exchanges request = some exchange ∧
      (exchange.isOpen = false ↔ ∃ step ∈ recent, endsExchange request step.action = true) := by
  induction recent generalizing world with
  | nil =>
      obtain ⟨rfl, _, _, hstep⟩ := hrun.cons_inv
      obtain ⟨hop, _, permit, hselected⟩ := hacquires
      refine ⟨.forwarding, ?_, by simp [Exchange.isOpen]⟩
      cases ProxyWorld.step_cases hstep with
      | move _ _ _ _ hmove =>
          rw [hop] at hmove
          cases hmove
      | perform _ _ _ _ hperform =>
          rw [hop] at hperform
          cases hperform
      | select other control hselect _ _ hnext =>
          rw [hop, ProxyOp.select.injEq] at hselect
          subst hselect
          rw [hnext] at hselected ⊢
          dsimp only at hselected ⊢
          rw [hselected, Option.isSome_some, if_pos rfl, Function.update_self]
      | manage _ _ hmanage =>
          rw [hop] at hmanage
          cases hmanage
  | cons last recent ih =>
      obtain ⟨rfl, hbefore, _, hstep⟩ := hrun.cons_inv
      obtain ⟨exchange, hexchange, hopen⟩ := ih hbefore
      obtain ⟨exchange', hexchange', hopen'⟩ := ProxyWorld.exchange_step hexchange hstep
      refine ⟨exchange', hexchange', ?_⟩
      rw [hopen', Bool.and_eq_false_iff, hopen, Bool.not_eq_false']
      simp only [List.mem_cons, exists_eq_or_imp]
      exact or_comm

/-- The two phases in the life of a lease, with the number of releases so far. -/
theorem lease_phases (hrun : Run proxySystem Free (recent ++ mark :: older) world)
    (hacquires : Acquires request lease mark) :
    world.control.Holds request lease ∧ recent.countP (releases lease) = 0 ∨
      world.control.registry.Retired lease ∧ (world.control.requests request).bind RoutedRequest.lease = none ∧
        recent.countP (releases lease) = 1 := by
  induction recent generalizing world with
  | nil =>
      obtain ⟨rfl, _⟩ := hrun.cons_inv
      obtain ⟨_, _, permit, hselected⟩ := hacquires
      left
      rw [ControlWorld.Holds, hselected]
      exact ⟨rfl, rfl⟩
  | cons last recent ih =>
      obtain ⟨rfl, hbefore, _, hstep⟩ := hrun.cons_inv
      have hleased := ProxyWorld.leased_of_run hbefore
      have hleasedAfter := ProxyWorld.leased_of_run hrun
      rcases ih hbefore with ⟨hholds, hcount⟩ | ⟨hretired, hunheld, hcount⟩
      · rcases ProxyWorld.holds_step hleased hholds hstep with hholdsAfter | ⟨hretired, hunheld⟩
        · left
          refine ⟨hholdsAfter, ?_⟩
          have hkept : releases lease last = false := by
            simp [releases, ControlWorld.outstanding_of_holds hleasedAfter hholdsAfter]
          rw [List.countP_cons_of_neg (by simp [hkept]), hcount]
        · right
          refine ⟨hretired, hunheld, ?_⟩
          have hreleased : releases lease last = true := by
            simp [releases, ControlWorld.outstanding_of_holds hleased hholds,
              ControlWorld.not_outstanding_of_retired hretired]
          rw [List.countP_cons_of_pos hreleased, hcount]
      · right
        obtain ⟨exchange, hexchange, _⟩ := exchange_of_run hbefore hacquires
        refine ⟨ProxyWorld.retired_step hretired hstep, ProxyWorld.unleased_step hexchange hunheld hstep, ?_⟩
        have hkept : releases lease last = false := by
          simp [releases, ControlWorld.not_outstanding_of_retired hretired]
        rw [List.countP_cons_of_neg (by simp [hkept]), hcount]

end Exchange

/-- The circuit is charged with one failure. -/
def Breaker.Charged (now : Nat) (before after : Breaker) : Prop :=
  ∃ failures, (failures = circuitFailureThreshold ∨ failures = min (before.consecutiveRequestFailures + 1) u32Max) ∧
    after = before.countFailure failures now

section Charges

variable {permit : CircuitPermit} {observer : BodyFailureObserver} {breaker : Breaker} {status now : Nat}

theorem Breaker.charged_ite (openImmediately : Bool) :
    breaker.Charged now (breaker.countFailure (if openImmediately then circuitFailureThreshold
      else min (breaker.consecutiveRequestFailures + 1) u32Max) now) := by
  refine ⟨_, ?_, rfl⟩
  cases openImmediately with
  | false => exact .inr rfl
  | true => exact .inl rfl

theorem CircuitPermit.failure_charged (hresolved : permit.resolved = false)
    (hepoch : breaker.circuitEpoch = permit.circuitEpoch) : breaker.Charged now (permit.failure now breaker).2 := by
  simp only [failure, resolve, hresolved, Bool.false_eq_true, if_false]
  rw [← hepoch, Breaker.recordCircuitOutcome_failure]
  exact Breaker.charged_ite permit.trial

theorem CircuitPermit.failure_unchanged (h : permit.resolved = true ∨ breaker.circuitEpoch ≠ permit.circuitEpoch) :
    (permit.failure now breaker).2 = breaker := by
  unfold failure resolve
  split
  · rfl
  · rename_i hresolved
    exact Breaker.recordCircuitOutcome_of_ne (h.resolve_left hresolved) ..

theorem BodyFailureObserver.failure_charged (hepoch : breaker.circuitEpoch = observer.circuitEpoch) :
    breaker.Charged now (observer.failure now breaker) := by
  rw [failure, ← hepoch, Breaker.recordBodyFailure_self]
  exact Breaker.charged_ite observer.openImmediately

theorem CircuitPermit.neutral_failures :
    (permit.neutral now breaker).2.consecutiveRequestFailures = breaker.consecutiveRequestFailures := by
  unfold neutral resolve
  split
  · rfl
  · dsimp only
    unfold Breaker.recordCircuitOutcome
    split
    · rfl
    · cases permit.trial <;> rfl

theorem CircuitPermit.drop_failures :
    (permit.drop now breaker).consecutiveRequestFailures = breaker.consecutiveRequestFailures := by
  unfold drop
  split
  · rfl
  · exact neutral_failures

theorem CircuitPermit.success_failures :
    (permit.successWithBodyObserver breaker).2.1.consecutiveRequestFailures ≤ breaker.consecutiveRequestFailures := by
  unfold successWithBodyObserver
  split
  · exact le_rfl
  · dsimp only
    unfold Breaker.recordSuccessAndObserver
    split
    · exact le_rfl
    · cases permit.trial <;> exact Nat.zero_le _

theorem CircuitPermit.intoResponseGuard_failing (h : isFailureStatus status = true) :
    permit.intoResponseGuard status now breaker = ((permit.failure now breaker).2, none) := if_pos h

theorem CircuitPermit.intoResponseGuard_failures (h : isFailureStatus status = false) :
    (permit.intoResponseGuard status now breaker).1.consecutiveRequestFailures ≤
      breaker.consecutiveRequestFailures := by
  unfold intoResponseGuard
  rw [h, if_neg Bool.false_ne_true]
  split
  · exact success_failures
  · exact neutral_failures.le

end Charges

namespace RoutingInner

variable {inner : RoutingInner} {id : BackendId} {α : Type} {f : Breaker → Breaker × α} {now : Nat}

/-- A circuit function that never raises the failure count leaves no count higher. -/
theorem updateBreaker_failures
    (h : ∀ live, inner.backends id = some live →
      (f live.toBreaker).1.consecutiveRequestFailures ≤ live.consecutiveRequestFailures)
    {other : BackendId} {live after : LiveBackend} (hlive : inner.backends other = some live)
    (hafter : (inner.updateBreaker id f).1.backends other = some after) :
    after.consecutiveRequestFailures ≤ live.consecutiveRequestFailures := by
  rw [updateBreaker_backends] at hafter
  split at hafter
  · rename_i hother
    subst hother
    rw [hlive, Option.map_some, Option.some.injEq] at hafter
    rw [← hafter]
    exact h live hlive
  · rw [hlive, Option.some.injEq] at hafter
    rw [← hafter]

theorem updateBreaker_charged {live : LiveBackend} (hlive : inner.backends id = some live)
    (h : live.toBreaker.Charged now (f live.toBreaker).1) :
    ∃ after, (inner.updateBreaker id f).1.backends id = some after ∧ live.toBreaker.Charged now after.toBreaker := by
  refine ⟨{ live with toBreaker := (f live.toBreaker).1 }, ?_, h⟩
  rw [updateBreaker_backends, if_pos rfl, hlive, Option.map_some]

end RoutingInner

namespace ControlWorld

variable {world next : ControlWorld} {request : Nat} {event : RequestEvent} {id : BackendId} {epoch : Nat}

theorem circuitEpoch_eq_some : world.circuitEpoch id = some epoch ↔
    ∃ live, world.routing.inner.backends id = some live ∧ live.circuitEpoch = epoch := by
  rw [circuitEpoch, Option.map_eq_some_iff]

/-- Some circuit is charged. -/
def Charges (world next : ControlWorld) : Prop :=
  ∃ id live after, world.routing.inner.backends id = some live ∧ next.routing.inner.backends id = some after ∧
    live.toBreaker.Charged world.now after.toBreaker

/-- No failure count grows. -/
def Spares (world next : ControlWorld) : Prop :=
  ∀ id live after, world.routing.inner.backends id = some live → next.routing.inner.backends id = some after →
    after.consecutiveRequestFailures ≤ live.consecutiveRequestFailures

theorem spares_of_inner (h : next.routing.inner = world.routing.inner) : world.Spares next := by
  intro id live after hlive hafter
  rw [h, hlive, Option.some.injEq] at hafter
  rw [hafter]

theorem charges_of_quiet (hquiet : world.countsFailure request event = false) (hspares : world.Spares next) :
    (world.countsFailure request event = true → world.Charges next) ∧
      (world.countsFailure request event = false → world.Spares next) := by
  refine ⟨?_, fun _ => hspares⟩
  intro hcounts
  rw [hquiet] at hcounts
  cases hcounts

/-- An effect charges a circuit if it counts a failure, and otherwise raises no failure count. -/
theorem requestStep_charges (h : world.requestStep request event = some next) :
    (world.countsFailure request event = true → world.Charges next) ∧
      (world.countsFailure request event = false → world.Spares next) := by
  unfold requestStep at h
  split at h
  · rename_i lease permit hrouted
    cases h
    simp only [countsFailure, hrouted]
    constructor
    · intro hcounts
      simp only [Bool.and_eq_true, Bool.not_eq_true', decide_eq_true_eq, circuitEpoch_eq_some] at hcounts
      obtain ⟨hresolved, live, hlive, hepoch⟩ := hcounts
      obtain ⟨after, hafter, hcharged⟩ := RoutingInner.updateBreaker_charged (f := fun breaker =>
        ((permit.failure world.now breaker).2, ())) hlive (CircuitPermit.failure_charged hresolved hepoch)
      exact ⟨_, live, after, hlive, hafter, hcharged⟩
    · intro hcounts id live after hlive hafter
      refine RoutingInner.updateBreaker_failures ?_ hlive hafter
      intro found hfound
      have hunchanged : (permit.failure world.now found.toBreaker).2 = found.toBreaker := by
        apply CircuitPermit.failure_unchanged
        simp only [circuitEpoch, hfound, Option.map_some, Option.some.injEq, Bool.and_eq_false_iff, Bool.not_eq_false',
          decide_eq_false_iff_not] at hcounts
        exact hcounts
      rw [hunchanged]
  · rename_i lease permit status hrouted
    cases h
    simp only [countsFailure, hrouted]
    constructor
    · intro hcounts
      simp only [Bool.and_eq_true, Bool.not_eq_true', decide_eq_true_eq, circuitEpoch_eq_some] at hcounts
      obtain ⟨⟨hstatus, hresolved⟩, live, hlive, hepoch⟩ := hcounts
      have hcharges : live.toBreaker.Charged world.now
          (permit.intoResponseGuard status world.now live.toBreaker).1 := by
        rw [CircuitPermit.intoResponseGuard_failing hstatus]
        exact CircuitPermit.failure_charged hresolved hepoch
      obtain ⟨after, hafter, hcharged⟩ := RoutingInner.updateBreaker_charged hlive hcharges
      exact ⟨_, live, after, hlive, hafter, hcharged⟩
    · intro hcounts id live after hlive hafter
      refine RoutingInner.updateBreaker_failures ?_ hlive hafter
      intro found hfound
      cases hstatus : isFailureStatus status with
      | false => exact CircuitPermit.intoResponseGuard_failures hstatus
      | true =>
          rw [CircuitPermit.intoResponseGuard_failing hstatus]
          have hunchanged : (permit.failure world.now found.toBreaker).2 = found.toBreaker := by
            apply CircuitPermit.failure_unchanged
            simp only [circuitEpoch, hfound, Option.map_some, Option.some.injEq, hstatus, Bool.true_and,
              Bool.and_eq_false_iff, Bool.not_eq_false', decide_eq_false_iff_not] at hcounts
            exact hcounts
          rw [hunchanged]
  · rename_i lease permit hrouted
    obtain ⟨released, hreleased, rfl⟩ := Option.map_eq_some_iff.mp h
    obtain ⟨_, _, _, _, rfl⟩ := releaseLease_some hreleased
    refine charges_of_quiet ?_ (spares_of_inner rfl)
    simp only [countsFailure, hrouted]
  · rename_i lease observer hrouted
    cases h
    simp only [countsFailure, hrouted]
    constructor
    · intro hcounts
      obtain ⟨live, hlive, hepoch⟩ := circuitEpoch_eq_some.mp (of_decide_eq_true hcounts)
      obtain ⟨after, hafter, hcharged⟩ := RoutingInner.updateBreaker_charged (f := fun breaker =>
        (observer.failure world.now breaker, ())) hlive (BodyFailureObserver.failure_charged hepoch)
      exact ⟨_, live, after, hlive, hafter, hcharged⟩
    · intro hcounts id live after hlive hafter
      refine RoutingInner.updateBreaker_failures ?_ hlive hafter
      intro found hfound
      have hne : found.circuitEpoch ≠ observer.circuitEpoch := by
        intro hepoch
        exact of_decide_eq_false hcounts (circuitEpoch_eq_some.mpr ⟨found, hfound, hepoch⟩)
      have hunchanged : observer.failure world.now found.toBreaker = found.toBreaker :=
        Breaker.recordBodyFailure_of_ne hne ..
      rw [hunchanged]
  · rename_i lease observer hrouted
    obtain ⟨released, hreleased, rfl⟩ := Option.map_eq_some_iff.mp h
    obtain ⟨_, _, _, _, rfl⟩ := releaseLease_some hreleased
    refine charges_of_quiet ?_ (spares_of_inner rfl)
    cases observer with
    | none => simp only [countsFailure, hrouted]
    | some observer => simp only [countsFailure, hrouted]
  · rename_i permit hrouted
    cases h
    refine charges_of_quiet ?_ ?_
    · simp only [countsFailure, hrouted]
    · intro id live after hlive hafter
      refine RoutingInner.updateBreaker_failures ?_ hlive hafter
      intro found _
      exact CircuitPermit.drop_failures.le
  · cases h

theorem perform_charges (h : world.perform request event = some next) :
    (world.countsFailure request event = true → world.Charges next) ∧
      (world.countsFailure request event = false → world.Spares next) := by
  rcases perform_cases h with ⟨lease, hrouted, rfl, rfl⟩ | h
  · refine charges_of_quiet ?_ (spares_of_inner rfl)
    simp only [countsFailure, hrouted]
  · exact requestStep_charges h

end ControlWorld

/-- The request has a permit or an observer to report through. -/
def RoutedRequest.canReport : RoutedRequest → Bool
  | .selected _ _ | .guarded _ (some _) => true
  | .guarded _ none | .unleased _ => false

namespace ControlWorld

variable {world next : ControlWorld} {request : Nat} {event : RequestEvent}

/-- Only a request that can report counts a failure, and it cannot report again after that. -/
theorem perform_reports (h : world.perform request event = some next) :
    (world.countsFailure request event = true → (world.requests request).any RoutedRequest.canReport = true ∧
      (next.requests request).any RoutedRequest.canReport = false) ∧
      ((next.requests request).any RoutedRequest.canReport = true →
        (world.requests request).any RoutedRequest.canReport = true) := by
  obtain ⟨routed, after, hrouted, hperforms, hrequests⟩ := perform_some h
  rw [hrequests, Function.update_self, hrouted, Option.any_some]
  cases hperforms with
  | transportFailure => exact ⟨fun _ => ⟨rfl, rfl⟩, fun _ => rfl⟩
  | response lease permit status =>
      refine ⟨?_, fun _ => rfl⟩
      intro hcounts
      simp only [countsFailure, hrouted, Bool.and_eq_true] at hcounts
      refine ⟨rfl, ?_⟩
      rw [RoutingInner.updateBreaker_result]
      cases world.routing.inner.backends permit.backendId with
      | none => rfl
      | some live =>
          rw [Option.map_some, CircuitPermit.intoResponseGuard_failing hcounts.1.1]
          rfl
  | bodyError lease observer =>
      refine ⟨?_, fun h => (by cases h)⟩
      intro hcounts
      cases observer with
      | none => simp [countsFailure, hrouted] at hcounts
      | some observer => exact ⟨rfl, rfl⟩
  | release lease observer =>
      refine ⟨?_, fun h => (by cases h)⟩
      intro hcounts
      cases observer <;> simp [countsFailure, hrouted] at hcounts
  | abandon lease permit =>
      refine ⟨?_, fun h => (by cases h)⟩
      intro hcounts
      simp [countsFailure, hrouted] at hcounts
  | resolve permit =>
      refine ⟨?_, fun h => (by cases h)⟩
      intro hcounts
      simp [countsFailure, hrouted] at hcounts

end ControlWorld

theorem countsFailure_eq_false {request : Nat} {step : ProxyStep} (h : step.action ≠ .perform request) :
    countsFailure request step = false := by
  rw [countsFailure, performed_eq_none h]
  rfl

section Life

variable {recent older : List ProxyStep} {mark : ProxyStep} {world : ProxyWorld} {request : Nat} {lease : BackendLease}

/-- One failure at most, and none as long as the request can report. -/
theorem failures_le_one (hrun : Run proxySystem Free (recent ++ mark :: older) world)
    (hacquires : Acquires request lease mark) :
    recent.countP (countsFailure request) ≤ 1 ∧
      ((world.control.requests request).any RoutedRequest.canReport = true →
        recent.countP (countsFailure request) = 0) := by
  induction recent generalizing world with
  | nil => exact ⟨Nat.zero_le _, fun _ => rfl⟩
  | cons last recent ih =>
      obtain ⟨rfl, hbefore, _, hstep⟩ := hrun.cons_inv
      obtain ⟨hle, hzero⟩ := ih hbefore
      obtain ⟨exchange, hexchange, _⟩ := exchange_of_run hbefore hacquires
      cases ProxyWorld.request_step hexchange hstep with
      | other hop _ _ _ hentry =>
          rw [List.countP_cons_of_neg (by simp [countsFailure_eq_false hop]), hentry]
          exact ⟨hle, hzero⟩
      | move exchange' hmove _ _ hcontrol =>
          rw [List.countP_cons_of_neg (by simp [countsFailure_eq_false hmove.ne_perform]), hcontrol]
          exact ⟨hle, hzero⟩
      | perform event hop heffects _ hperform =>
          obtain ⟨hcounts, hkept⟩ := ControlWorld.perform_reports hperform
          have heq : countsFailure request last = last.before.control.countsFailure request event := by
            rw [countsFailure, performed_eq_some hop heffects, Option.any_some]
          cases hcount : countsFailure request last with
          | false =>
              rw [List.countP_cons_of_neg (by simp [hcount])]
              exact ⟨hle, fun h => hzero (hkept h)⟩
          | true =>
              obtain ⟨hreports, hspent⟩ := hcounts (heq ▸ hcount)
              rw [List.countP_cons_of_pos hcount, hzero hreports]
              refine ⟨le_rfl, fun h => ?_⟩
              rw [hspent] at h
              cases h

/-- A release and the drop of a permit count nothing. -/
theorem ControlWorld.countsFailure_of_silent {control : ControlWorld} {event : RequestEvent}
    (h : event = .release ∨ event = .resolve) : control.countsFailure request event = false := by
  unfold ControlWorld.countsFailure
  rcases h with rfl | rfl
  · split <;> first | rfl | contradiction
  · split <;> first | rfl | contradiction

/-- Once nobody is left to poll the body, the request only gives back what it holds. -/
theorem silent_after_drop (hrun : Run proxySystem Free (recent ++ mark :: older) world)
    (hfinished : mark.after.exchanges request = some .finished)
    (hsilent : ∀ event ∈ mark.after.effects request, event = .release ∨ event = .resolve) :
    world.exchanges request = some .finished ∧
      (∀ event ∈ world.effects request, event = .release ∨ event = .resolve) ∧
      recent.countP (countsFailure request) = 0 := by
  induction recent generalizing world with
  | nil =>
      obtain ⟨rfl, _⟩ := hrun.cons_inv
      exact ⟨hfinished, hsilent, rfl⟩
  | cons last recent ih =>
      obtain ⟨rfl, hbefore, _, hstep⟩ := hrun.cons_inv
      obtain ⟨hexchange, hquiet, hcount⟩ := ih hbefore
      cases ProxyWorld.request_step hexchange hstep with
      | other hop _ hafter heffects _ =>
          rw [List.countP_cons_of_neg (by simp [countsFailure_eq_false hop])]
          exact ⟨hafter, heffects ▸ hquiet, hcount⟩
      | move exchange' hmove => exact absurd rfl hmove.ne_finished
      | perform event hop heffects hafter _ =>
          rw [heffects] at hquiet
          have hevent := hquiet event List.mem_cons_self
          have hcounts : countsFailure request last = false := by
            rw [countsFailure, performed_eq_some hop heffects, Option.any_some]
            exact ControlWorld.countsFailure_of_silent hevent
          rw [List.countP_cons_of_neg (by simp [hcounts])]
          exact ⟨hafter, fun other hmem => hquiet other (List.mem_cons_of_mem _ hmem), hcount⟩

/-- Dropping the body or the selection counts nothing, then or later. -/
theorem drop_counts_nothing {newer rest : List ProxyStep} {dropped : ProxyStep}
    (hrun : Run proxySystem Free (newer ++ dropped :: rest) world)
    (hdropped : dropped.action = .dropBody request ∨ dropped.action = .abandon request) :
    newer.countP (countsFailure request) = 0 ∧ countsFailure request dropped = false := by
  obtain ⟨_, _, _, hstep⟩ := hrun.of_append.cons_inv
  have hop : dropped.action ≠ .perform request := by
    rcases hdropped with h | h <;> rw [h] <;> exact ProxyOp.noConfusion
  refine ⟨?_, countsFailure_eq_false hop⟩
  cases ProxyWorld.step_cases hstep with
  | move other exchange exchange' effects hmove _ _ hnext =>
      have hmoved : dropped.after.exchanges other = some exchange' ∧ dropped.after.effects other = effects := by
        rw [hnext]
        exact ⟨Function.update_self .., Function.update_self ..⟩
      rcases hdropped with h | h
      · rw [h] at hmove
        cases hmove with
        | drop =>
            refine (silent_after_drop hrun hmoved.1 ?_).2.2
            rw [hmoved.2]
            simp
        | dropSpent =>
            refine (silent_after_drop hrun hmoved.1 ?_).2.2
            rw [hmoved.2]
            simp
      · rw [h] at hmove
        cases hmove with
        | abandon =>
            refine (silent_after_drop hrun hmoved.1 ?_).2.2
            rw [hmoved.2]
            simp
  | perform _ _ _ _ haction => rcases hdropped with h | h <;> rw [h] at haction <;> cases haction
  | select _ _ haction => rcases hdropped with h | h <;> rw [h] at haction <;> cases haction
  | manage _ _ haction => rcases hdropped with h | h <;> rw [h] at haction <;> cases haction

end Life

/-- The permits of selections have not reported yet. -/
structure Unresolved (world : ControlWorld) : Prop where
  permitted : ∀ eligible candidate permit rest, world.selector = .permitted eligible candidate permit rest →
    permit.resolved = false
  selected : ∀ request lease permit, world.requests request = some (.selected lease permit) → permit.resolved = false

theorem RoutingInner.tryCircuitPermit_unresolved {inner : RoutingInner} {id : BackendId} {now : Nat}
    {permit : CircuitPermit} (h : (inner.tryCircuitPermit id now).2 = some permit) : permit.resolved = false := by
  simp only [tryCircuitPermit, updateBreaker_result] at h
  cases hlive : inner.backends id with
  | none => simp [hlive] at h
  | some live =>
      cases hpermit : live.toBreaker.tryCircuitPermit id now with
      | none => simp [hlive, hpermit] at h
      | some issued =>
          simp only [hlive, hpermit, Option.map_some, Option.join_some, Option.some.injEq] at h
          rw [← h]
          exact (Breaker.tryCircuitPermit_some hpermit).2.1

namespace Unresolved

variable {world next : ControlWorld} {request : Nat}

theorem select (h : Unresolved world) (hselect : world.selectStep request = some next) : Unresolved next := by
  rcases ControlWorld.selectStep_permit hselect with
    ⟨hrequests, hnever⟩ | ⟨eligible, candidate, rest, permit, _, hissued, hselector, hrequests⟩ |
      ⟨eligible, candidate, permit, rest, lease, hselector, _, _, hidle, hrequests⟩
  · refine ⟨fun eligible candidate permit rest heq => absurd heq (hnever eligible candidate permit rest), ?_⟩
    rw [hrequests]
    exact h.selected
  · refine ⟨?_, ?_⟩
    · intro eligible' candidate' permit' rest' heq
      rw [hselector] at heq
      cases heq
      exact RoutingInner.tryCircuitPermit_unresolved hissued
    · rw [hrequests]
      exact h.selected
  · refine ⟨?_, ?_⟩
    · intro eligible' candidate' permit' rest' heq
      rw [hidle] at heq
      cases heq
    · intro other lease' permit' hentry
      rw [hrequests] at hentry
      by_cases hother : other = request
      · subst hother
        rw [Function.update_self] at hentry
        cases hentry
        exact h.permitted eligible candidate permit rest hselector
      · rw [Function.update_of_ne hother] at hentry
        exact h.selected other lease' permit' hentry

theorem perform (h : Unresolved world) {event : RequestEvent} (hperform : world.perform request event = some next) :
    Unresolved next := by
  have hselector : next.selector = world.selector := by
    rcases ControlWorld.perform_cases hperform with ⟨_, _, _, rfl⟩ | hstep
    · rfl
    · exact ControlWorld.requestStep_selector hstep
  obtain ⟨routed, after, _, hperforms, hrequests⟩ := ControlWorld.perform_some hperform
  refine ⟨?_, ?_⟩
  · rw [hselector]
    exact h.permitted
  · intro other lease permit hentry
    rw [hrequests] at hentry
    by_cases hother : other = request
    · subst hother
      rw [Function.update_self] at hentry
      subst hentry
      cases hperforms
    · rw [Function.update_of_ne hother] at hentry
      exact h.selected other lease permit hentry

theorem of_run {guard : ProxyWorld → ProxyOp → Prop} {record : List ProxyStep} {world : ProxyWorld}
    (hrun : Run proxySystem guard record world) : Unresolved world.control := by
  refine hrun.invariant (I := fun world => Unresolved world.control) ?_ ?_
  · rintro world ⟨⟨config, store, now, hboot⟩, _⟩
    obtain ⟨hrequests, hselector⟩ := ControlWorld.boot_requests hboot
    refine ⟨?_, ?_⟩
    · intro eligible candidate permit rest heq
      rw [hselector] at heq
      cases heq
    · intro request lease permit hentry
      rw [hrequests request] at hentry
      cases hentry
  · intro world op next h _ hstep
    cases ProxyWorld.step_cases hstep with
    | move _ _ _ _ _ _ _ hnext =>
        subst hnext
        exact h
    | perform _ _ _ _ _ _ hcontrol hnext =>
        subst hnext
        exact h.perform hcontrol
    | select _ _ _ _ hcontrol hnext =>
        subst hnext
        exact h.select hcontrol
    | manage _ _ _ hmanaged hcontrol hnext =>
        subst hnext
        obtain ⟨hrequests, _, hselector⟩ := ControlWorld.manage_requests hmanaged hcontrol
        refine ⟨?_, ?_⟩
        · dsimp only
          rw [hselector]
          exact h.permitted
        · dsimp only
          rw [hrequests]
          exact h.selected

end Unresolved

/-- Acceptable headers under the epoch of the permit leave an observer for the epoch they lead to. -/
theorem CircuitPermit.intoResponseGuard_observer {permit : CircuitPermit} {breaker : Breaker} {status : Nat} (now : Nat)
    (hfailure : isFailureStatus status = false) (hlimit : status ≠ 429) (hresolved : permit.resolved = false)
    (hepoch : breaker.circuitEpoch = permit.circuitEpoch) :
    ∃ observer, (permit.intoResponseGuard status now breaker).2 = some observer ∧
      observer.backendId = permit.backendId ∧
      observer.circuitEpoch = (permit.intoResponseGuard status now breaker).1.circuitEpoch := by
  unfold intoResponseGuard
  rw [hfailure, if_neg Bool.false_ne_true, if_pos hlimit, successWithBodyObserver, hresolved, if_neg Bool.false_ne_true]
  dsimp only
  rw [Breaker.recordSuccessAndObserver, if_neg (not_not.mpr hepoch)]
  exact ⟨_, rfl, rfl, rfl⟩

/-- The observer of the response belongs to the epoch the circuit has then. -/
theorem ControlWorld.perform_response {world next : ControlWorld} {request status : Nat} {lease : BackendLease}
    {permit : CircuitPermit} (hperform : world.perform request (.response status) = some next)
    (hselected : world.requests request = some (.selected lease permit)) (hfailure : isFailureStatus status = false)
    (hlimit : status ≠ 429) (hresolved : permit.resolved = false)
    (hcurrent : world.circuitEpoch permit.backendId = some permit.circuitEpoch) :
    ∃ observer, next.requests request = some (.guarded lease (some observer)) ∧
      observer.backendId = permit.backendId ∧ next.circuitEpoch permit.backendId = some observer.circuitEpoch := by
  obtain ⟨live, hlive, hepoch⟩ := circuitEpoch_eq_some.mp hcurrent
  obtain ⟨observer, hobserver, hbackend, hobserved⟩ :=
    CircuitPermit.intoResponseGuard_observer world.now hfailure hlimit hresolved hepoch
  simp only [perform, requestStep, hselected, Option.some.injEq] at hperform
  refine ⟨observer, ?_, hbackend, ?_⟩
  · rw [← hperform]
    refine (Function.update_self ..).trans ?_
    rw [RoutingInner.updateBreaker_result, hlive, Option.map_some, hobserver, Option.join_some]
  · rw [← hperform]
    refine circuitEpoch_eq_some.mpr ⟨{ live with
      toBreaker := (permit.intoResponseGuard status world.now live.toBreaker).1 }, ?_, hobserved.symm⟩
    refine (RoutingInner.updateBreaker_backends ..).trans ?_
    rw [if_pos rfl, hlive, Option.map_some]

theorem Move.closed {op : ProxyOp} {request : Nat} {exchange exchange' : Exchange} {effects : List RequestEvent}
    (h : Move op request exchange exchange' effects) (hclosed : exchange.isOpen = false) :
    effects = [] ∧ exchange'.isOpen = false := by
  cases h with
  | fail | abandon | respond | respondEmpty | finish | error | drop => cases hclosed
  | keep => exact ⟨rfl, hclosed⟩
  | spent | dropSpent => exact ⟨rfl, rfl⟩

section BodyError

variable {recent older : List ProxyStep} {mark : ProxyStep} {world : ProxyWorld} {request : Nat} {lease : BackendLease}

/-- The guard of a response stays as it is until the body has ended and its error has been reported. -/
theorem guard_kept {observer : Option BodyFailureObserver} {exchange : Exchange}
    (hrun : Run proxySystem Free (recent ++ mark :: older) world)
    (hexchange : mark.after.exchanges request = some exchange)
    (hguarded : mark.after.control.requests request = some (.guarded lease observer)) :
    ∃ exchange, world.exchanges request = some exchange ∧
      (world.control.requests request = some (.guarded lease observer) ∨
        exchange.isOpen = false ∧ RequestEvent.bodyError ∉ world.effects request) := by
  induction recent generalizing world with
  | nil =>
      obtain ⟨rfl, _⟩ := hrun.cons_inv
      exact ⟨exchange, hexchange, .inl hguarded⟩
  | cons last recent ih =>
      obtain ⟨rfl, hbefore, _, hstep⟩ := hrun.cons_inv
      obtain ⟨exchange, hexchange, hphase⟩ := ih hbefore
      have hconsistent := AllConsistent.of_run hbefore request
      cases ProxyWorld.request_step hexchange hstep with
      | other _ _ hafter heffects hentry =>
          rw [heffects, hentry]
          exact ⟨exchange, hafter, hphase⟩
      | move exchange' hmove _ hafter hcontrol =>
          refine ⟨exchange', hafter, ?_⟩
          rw [hcontrol]
          rcases hphase with hkept | ⟨hclosed, _⟩
          · exact .inl hkept
          · obtain ⟨hnone, hclosed'⟩ := hmove.closed hclosed
            right
            rw [hnone]
            exact ⟨hclosed', List.not_mem_nil⟩
      | perform event _ heffects hafter hcontrol =>
          refine ⟨exchange, hafter, .inr ?_⟩
          rcases hphase with hkept | ⟨hclosed, hnever⟩
          · -- with a guard, there is an effect left only once the exchange is closed
            rw [hexchange, heffects, hkept] at hconsistent
            generalize last.after.effects request = rest at hconsistent
            cases hconsistent with
            | erring => exact ⟨rfl, by simp⟩
            | closing _ hexchange =>
                refine ⟨?_, by simp⟩
                rcases hexchange with rfl | rfl <;> rfl
          · refine ⟨hclosed, fun hmem => hnever ?_⟩
            rw [heffects]
            exact List.mem_cons_of_mem _ hmem

/-- The step an effect is performed by. -/
theorem performed_step {step : ProxyStep} {event : RequestEvent} (hperformed : performed request step = some event)
    (hstep : step.before.step step.action = some step.after) :
    step.action = .perform request ∧ step.before.effects request = event :: step.after.effects request ∧
      step.after.exchanges request = step.before.exchanges request ∧
      step.before.control.perform request event = some step.after.control := by
  unfold performed at hperformed
  split at hperformed
  · rename_i haction
    refine ⟨haction, ?_⟩
    rw [haction] at hstep
    cases ProxyWorld.step_cases hstep with
    | move _ _ _ _ hmove => cases hmove
    | perform other found rest control hop heffects hcontrol hnext =>
        cases hop
        rw [heffects, List.head?_cons, Option.some.injEq] at hperformed
        subst hperformed
        rw [hnext]
        dsimp only
        rw [Function.update_self]
        exact ⟨heffects, rfl, hcontrol⟩
    | select _ _ hop => cases hop
    | manage _ _ hop => cases hop
  · cases hperformed

/-- A body error counts if the epoch is still the one the headers led to. -/
theorem body_error_counts {middle rest newest : List ProxyStep} {erred answered : ProxyStep} {permit : CircuitPermit}
    {status : Nat} (hrun : Run proxySystem Free (newest ++ erred :: (middle ++ answered :: rest)) world)
    (hanswered : performed request answered = some (.response status))
    (hselected : answered.before.control.requests request = some (.selected lease permit))
    (hfailure : isFailureStatus status = false) (hlimit : status ≠ 429)
    (hcurrent : answered.before.control.circuitEpoch permit.backendId = some permit.circuitEpoch)
    (herred : performed request erred = some .bodyError)
    (hsame : erred.before.control.circuitEpoch permit.backendId =
      answered.after.control.circuitEpoch permit.backendId) : countsFailure request erred = true := by
  obtain ⟨_, hmiddle, _, herredStep⟩ := hrun.of_append.cons_inv
  obtain ⟨_, hbefore, _, hansweredStep⟩ := hmiddle.of_append.cons_inv
  obtain ⟨_, hansweredEffects, hansweredExchange, hperform⟩ := performed_step hanswered hansweredStep
  obtain ⟨_, herredEffects, _, _⟩ := performed_step herred herredStep
  have hresolved := (Unresolved.of_run hbefore).selected request lease permit hselected
  obtain ⟨observer, hguarded, hbackend, hepoch⟩ :=
    ControlWorld.perform_response hperform hselected hfailure hlimit hresolved hcurrent
  have hforwarded : ∃ exchange, answered.after.exchanges request = some exchange := by
    have hconsistent := AllConsistent.of_run hbefore request
    rw [hansweredEffects] at hconsistent
    rw [hansweredExchange]
    generalize answered.before.exchanges request = exchange at hconsistent
    cases exchange with
    | none => cases hconsistent
    | some exchange => exact ⟨exchange, rfl⟩
  obtain ⟨exchange, hexchange⟩ := hforwarded
  obtain ⟨_, _, hkept | ⟨_, hnever⟩⟩ := guard_kept hmiddle hexchange hguarded
  · rw [countsFailure, herred, Option.any_some]
    simp only [ControlWorld.countsFailure, hkept, hbackend, hsame, hepoch, decide_true]
  · rw [herredEffects] at hnever
    exact absurd List.mem_cons_self hnever

/-- The effects of a handler are done before it goes on. -/
theorem performs_next {event : RequestEvent} {rest : List RequestEvent} {exchange : Exchange}
    (hrun : Run proxySystem Free (recent ++ mark :: older) world)
    (hexchange : mark.after.exchanges request = some exchange)
    (heffects : mark.after.effects request = event :: rest) :
    (world.exchanges request = some exchange ∧ world.effects request = event :: rest ∧
        ∀ step ∈ recent, step.action ≠ .perform request) ∨
      ∃ newer step quiet, recent = newer ++ step :: quiet ∧ performed request step = some event ∧
        ∀ other ∈ quiet, other.action ≠ .perform request := by
  induction recent generalizing world with
  | nil =>
      obtain ⟨rfl, _⟩ := hrun.cons_inv
      exact .inl ⟨hexchange, heffects, fun step hmem => by cases hmem⟩
  | cons last recent ih =>
      obtain ⟨rfl, hbefore, _, hstep⟩ := hrun.cons_inv
      rcases ih hbefore with ⟨hkept, hleft, hnever⟩ | ⟨newer, step, quiet, hrecent, hdone⟩
      · cases ProxyWorld.request_step hkept hstep with
        | other hop _ hafter hsame _ => exact .inl ⟨hafter, hsame.trans hleft, List.forall_mem_cons.mpr ⟨hop, hnever⟩⟩
        | move _ _ hidle =>
            rw [hleft] at hidle
            cases hidle
        | perform found hop hfound _ _ =>
            rw [hleft] at hfound
            obtain ⟨rfl, _⟩ := List.cons_eq_cons.mp hfound
            exact .inr ⟨[], last, recent, rfl, performed_eq_some hop hleft, hnever⟩
      · exact .inr ⟨last :: newer, step, quiet, by rw [hrecent, List.cons_append], hdone⟩

/-- An error of a body that nothing has ended yet is reported to the circuit, and the guard is dropped after that. -/
theorem effects_of_error {middle : List ProxyStep} {erred : ProxyStep}
    (hrun : Run proxySystem Free (erred :: (middle ++ mark :: older)) world) (hacquires : Acquires request lease mark)
    (hpoll : erred.action = .poll request .error) (hopen : ∀ step ∈ middle, endsExchange request step.action = false) :
    ∃ exchange, erred.after.exchanges request = some exchange ∧
      erred.after.effects request = [.bodyError, .release] := by
  obtain ⟨_, hbefore, _, hstep⟩ := hrun.cons_inv
  obtain ⟨exchange, hexchange, hclosed⟩ := exchange_of_run hbefore hacquires
  cases ProxyWorld.request_step hexchange hstep with
  | other _ hends =>
      rw [hpoll] at hends
      simp [endsExchange] at hends
  | move exchange' hmove _ hafter =>
      refine ⟨exchange', hafter, ?_⟩
      rw [hpoll] at hmove
      generalize erred.after.effects request = effects at hmove
      cases hmove with
      | keep _ _ hkeep => rcases hkeep with h | h <;> cases h
      | finish _ _ hfinish => rcases hfinish with h | h <;> cases h
      | error => rfl
      | spent =>
          obtain ⟨step, hmem, hends⟩ := hclosed.mp rfl
          rw [hopen step hmem] at hends
          cases hends
  | perform _ hop =>
      rw [hpoll] at hop
      cases hop

end BodyError

/-- An effect of the request is performed by its control plane. -/
theorem ProxyWorld.perform_step {world next : ProxyWorld} {request : Nat}
    (h : world.step (.perform request) = some next) :
    ∃ event rest, world.effects request = event :: rest ∧ world.control.perform request event = some next.control := by
  simp only [ProxyWorld.step] at h
  split at h
  · cases h
  · rename_i event rest heffects
    obtain ⟨control, hcontrol, rfl⟩ := Option.map_eq_some_iff.mp h
    exact ⟨event, rest, heffects, hcontrol⟩

/-- A held lease can be released. -/
theorem ControlWorld.releaseLease_enabled {world : ControlWorld} {request : Nat} {lease : BackendLease}
    (hleased : Leased world) (hholds : world.Holds request lease) : (world.releaseLease lease).isSome = true := by
  obtain ⟨slot, hslot, hkey⟩ := hleased.accounted request lease hholds
  simp [releaseLease, hslot, SlotState.release, hkey]

/-- The next effect of a handler can always be performed; in particular no lease is released a second time. -/
theorem ProxyWorld.perform_enabled {record : List ProxyStep} {world : ProxyWorld} {request : Nat} {event : RequestEvent}
    {rest : List RequestEvent} (hrun : Run proxySystem Free record world)
    (heffects : world.effects request = event :: rest) :
    (world.step (.perform request)).isSome = true := by
  have hconsistent := AllConsistent.of_run hrun request
  have hleased := ProxyWorld.leased_of_run hrun
  have hperform : (world.control.perform request event).isSome = true := by
    rw [heffects] at hconsistent
    generalize hentry : world.control.requests request = routed at hconsistent
    generalize world.exchanges request = exchange at hconsistent
    have hrelease : ∀ {lease}, routed.bind RoutedRequest.lease = some lease →
        (world.control.releaseLease lease).isSome = true := by
      intro lease hlease
      have hholds : world.control.Holds request lease := by
        rw [ControlWorld.Holds, hentry]
        exact hlease
      exact ControlWorld.releaseLease_enabled hleased hholds
    cases hconsistent with
    | failing => simp [ControlWorld.perform, ControlWorld.requestStep, hentry]
    | abandoning => simp [ControlWorld.perform, ControlWorld.requestStep, hentry, hrelease rfl]
    | abandoned => simp [ControlWorld.perform, ControlWorld.requestStep, hentry]
    | responding => simp [ControlWorld.perform, ControlWorld.requestStep, hentry]
    | respondingEmpty => simp [ControlWorld.perform, ControlWorld.requestStep, hentry]
    | erring lease observer =>
        cases observer with
        | none => simp [ControlWorld.perform, hentry]
        | some observer => simp [ControlWorld.perform, ControlWorld.requestStep, hentry]
    | closing _ _ lease observer =>
        cases observer with
        | none => simp [ControlWorld.perform, ControlWorld.requestStep, hentry, hrelease rfl]
        | some observer => simp [ControlWorld.perform, ControlWorld.requestStep, hentry, hrelease rfl]
  simp only [ProxyWorld.step, heffects, Option.isSome_map]
  exact hperform

/-- Closed and with nothing left to do, the request holds no lease. -/
theorem Consistent.done {exchange : Exchange} {routed : Option RoutedRequest} (h : Consistent (some exchange) [] routed)
    (hclosed : exchange.isOpen = false) : routed = none := by
  cases h with
  | forwarding => cases hclosed
  | streaming => cases hclosed
  | closed => rfl

/-- As long as the exchange is open the request holds a lease. -/
theorem Consistent.leased {exchange : Exchange} {effects : List RequestEvent} {routed : Option RoutedRequest}
    (h : Consistent (some exchange) effects routed) (hopen : exchange.isOpen = true) :
    ∃ lease, routed.bind RoutedRequest.lease = some lease := by
  cases h with
  | forwarding lease => exact ⟨lease, rfl⟩
  | responding lease => exact ⟨lease, rfl⟩
  | streaming lease => exact ⟨lease, rfl⟩
  | failing | abandoning | abandoned | respondingEmpty | erring => cases hopen
  | closing _ hexchange => rcases hexchange with rfl | rfl <;> cases hopen
  | closed _ hexchange => rcases hexchange with rfl | rfl <;> cases hopen

section Request

variable {recent older : List ProxyStep} {mark : ProxyStep} {world : ProxyWorld} {request : Nat} {lease : BackendLease}
  (hrun : Run proxySystem Free (recent ++ mark :: older) world) (hacquires : Acquires request lease mark)

include hrun hacquires

/-- A lease is released once, and only after the exchange has ended. -/
theorem held_or_released :
    world.control.outstanding lease = true ∧ recent.countP (releases lease) = 0 ∨
      world.control.outstanding lease = false ∧ recent.countP (releases lease) = 1 ∧
        ∃ step ∈ recent, endsExchange request step.action = true := by
  obtain ⟨exchange, hexchange, hended⟩ := exchange_of_run hrun hacquires
  have hconsistent := AllConsistent.of_run hrun request
  rw [hexchange] at hconsistent
  rcases lease_phases hrun hacquires with ⟨hholds, hcount⟩ | ⟨hretired, hunheld, hcount⟩
  · exact .inl ⟨ControlWorld.outstanding_of_holds (ProxyWorld.leased_of_run hrun) hholds, hcount⟩
  · refine .inr ⟨ControlWorld.not_outstanding_of_retired hretired, hcount, hended.mp ?_⟩
    cases hopen : exchange.isOpen with
    | false => rfl
    | true =>
        obtain ⟨other, hheld⟩ := hconsistent.leased hopen
        rw [hunheld] at hheld
        cases hheld

theorem released_after_end (hends : ∃ step ∈ recent, endsExchange request step.action = true)
    (hidle : world.effects request = []) : world.control.outstanding lease = false := by
  obtain ⟨exchange, hexchange, hended⟩ := exchange_of_run hrun hacquires
  have hconsistent := AllConsistent.of_run hrun request
  rw [hexchange, hidle] at hconsistent
  have hnone := hconsistent.done (hended.mpr hends)
  rcases lease_phases hrun hacquires with ⟨hholds, _⟩ | ⟨hretired, _⟩
  · rw [ControlWorld.Holds, hnone] at hholds
    cases hholds
  · exact ControlWorld.not_outstanding_of_retired hretired

omit hacquires in
theorem charged_or_spared {step : ProxyStep} (hmem : step ∈ recent) (hop : step.action = .perform request) :
    if countsFailure request step then step.before.control.Charges step.after.control
    else step.before.control.Spares step.after.control := by
  obtain ⟨newer, rest, rfl⟩ := List.append_of_mem hmem
  rw [List.append_assoc, List.cons_append] at hrun
  obtain ⟨_, _, _, hstep⟩ := hrun.of_append.cons_inv
  obtain ⟨event, rest, heffects, hperform⟩ := ProxyWorld.perform_step (hop ▸ hstep)
  have heq : countsFailure request step = step.before.control.countsFailure request event := by
    rw [countsFailure, performed_eq_some hop heffects, Option.any_some]
  obtain ⟨hcharges, hspares⟩ := ControlWorld.perform_charges hperform
  rw [heq]
  split
  · rename_i hcounts
    exact hcharges hcounts
  · rename_i hcounts
    exact hspares (Bool.eq_false_iff.mpr hcounts)

end Request

/-- A backend turns ready and a request is selected for it. -/
def selectedScript : List ProxyOp :=
  [.manage (.readiness "a" 1 ⟨2000, 1000, 2, 3⟩ none), .manage (.readiness "a" 1 ⟨2000, 1000, 2, 3⟩ none), .select 0,
    .select 0, .select 0, .select 0, .select 0]

/-- The upstream answers with success, sends a frame and breaks off; the client polls once more and leaves. -/
def brokenBodyScript : List ProxyOp :=
  [.respond 0 200 false, .perform 0, .poll 0 (.frame false), .poll 0 .pending, .poll 0 .error, .perform 0, .perform 0,
    .poll 0 .done, .dropBody 0]

/-- The steps of the two scripts: request 0 holds the lease, is answered, and its body ends by its error alone. -/
def breaksOff (lease : BackendLease) (permit : CircuitPermit) : List ProxyStep → List ProxyStep → Bool
  | left :: spent :: released :: report :: erred :: pending :: framed :: answered :: responded :: [], mark :: _ =>
    decide (mark.action = .select 0) && decide (mark.before.control.requests 0 = none) &&
      decide (mark.after.control.requests 0 = some (.selected lease permit)) &&
      decide (erred.action = .poll 0 .error) &&
      [pending, framed, answered, responded].all (fun step => !endsExchange 0 step.action) &&
      decide (performed 0 answered = some (.response 200)) &&
      decide (answered.before.control.requests 0 = some (.selected lease permit)) &&
      decide (answered.after.control.circuitEpoch lease.spec.id = some permit.circuitEpoch) &&
      [answered, left, spent, released, report].all fun step =>
        step.before.control.circuitEpoch lease.spec.id = some permit.circuitEpoch
  | _, _ => false

end MistralrsProxy
