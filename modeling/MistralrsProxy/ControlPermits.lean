import MistralrsProxy.ControlDisable
import MistralrsProxy.ControlEvidence

/-! Permits and body observers name a backend and an epoch of its circuit, not the topology generation they
belong to; and the epochs start again at zero when a generation ends. What keeps an outcome within its
generation is that a reload does not publish a new generation over a held lease. A permit without a lease is
not covered: one the selection in progress has just taken, and one whose request was dropped. -/

open Transition Keyed

namespace MistralrsProxy

/-- The generations of the permits that are out, of the selection in progress and of the requests. -/
structure PermitTags where
  selector : Nat
  requests : Nat → Nat

/-- A permit belongs to the generation of the live backend that issues it. -/
def PermitTags.step (tags : PermitTags) (step : ControlStep) : PermitTags :=
  match step.action with
  | .select request =>
      match step.before.selector with
      | .trying _ (candidate :: _) =>
          { tags with
            selector := ((step.before.routing.inner.backends candidate.id).map (·.topologyGeneration)).getD 0 }
      | .permitted _ _ _ _ =>
          if (step.before.requests request).isSome then tags
          else { tags with requests := Function.update tags.requests request tags.selector }
      | _ => tags
  | _ => tags

def permitTags : List ControlStep → PermitTags
  | [] => ⟨0, fun _ => 0⟩
  | step :: older => (permitTags older).step step

/-- The backend that the permit or the observer of a request reports to. -/
def RoutedRequest.reportsTo : RoutedRequest → Option BackendId
  | .selected _ permit | .unleased permit => some permit.backendId
  | .guarded _ observer => observer.map (·.backendId)

/-- The backend an action reports an outcome to, and the generation of the permit or observer it uses. -/
def ControlWorld.outcome (tags : PermitTags) (world : ControlWorld) : ControlOp → Option (BackendId × Nat)
  | .select _ =>
      match world.selector with
      | .permitted _ _ permit _ => some (permit.backendId, tags.selector)
      | _ => none
  | .request request _ =>
      ((world.requests request).bind RoutedRequest.reportsTo).map fun id => (id, tags.requests request)
  | _ => none

/-- A permit that can still change the circuit although no lease is held with it. -/
def ControlWorld.PermitOut (id : BackendId) (world : ControlWorld) : Prop :=
  (∃ eligible candidate permit rest, world.selector = .permitted eligible candidate permit rest ∧
    permit.backendId = id) ∨
  ∃ request permit, world.requests request = some (.unleased permit) ∧ permit.trial = true ∧ permit.backendId = id

/-- No reload publishes another generation of a backend while a permit of it is out without a lease, and no
permit is issued by a live state that a reload has outdated. -/
structure NoStrayPermit (world : ControlWorld) (op : ControlOp) : Prop where
  publishes : ∀ failure config report, op = .proceed failure → world.lifecycle = .reloadRestore config report [] →
    ∀ id, world.PermitOut id →
      (world.published.publish config.val config.property).backendGeneration id = world.published.backendGeneration id
  issues : ∀ request eligible candidate rest live, op = .select request →
    world.selector = .trying eligible (candidate :: rest) → world.routing.inner.backends candidate.id = some live →
    world.published.backendGeneration candidate.id = some live.topologyGeneration

/-- The generation is the published one, and the live state is of it. -/
def ControlWorld.Current (id : BackendId) (generation : Nat) (world : ControlWorld) : Prop :=
  world.published.backendGeneration id = some generation ∧
    ∃ live, world.routing.inner.backends id = some live ∧ live.topologyGeneration = generation

/-- The permits that are out are of the current generation of their backends. -/
structure Tagged (tags : PermitTags) (world : ControlWorld) : Prop where
  selecting : ∀ eligible candidate permit rest, world.selector = .permitted eligible candidate permit rest →
    permit.backendId = candidate.id ∧ world.Current permit.backendId tags.selector
  leased : ∀ request routed lease id, world.requests request = some routed → routed.lease = some lease →
    routed.reportsTo = some id → lease.spec.id = id ∧ world.Current id (tags.requests request)
  unleased : ∀ request permit, world.requests request = some (.unleased permit) → permit.trial = true →
    world.Current permit.backendId (tags.requests request)

namespace ControlWorld

variable {world next : ControlWorld} {id : BackendId}

/-- A live state of the published generation stays, with its generation. -/
theorem live_step {op : ControlOp} (hrestart : ∀ config, op ≠ .restart config) (hstep : world.step op = some next)
    {live : LiveBackend} (hlive : world.routing.inner.backends id = some live)
    (hgeneration : world.published.backendGeneration id = some live.topologyGeneration) :
    ∃ after, next.routing.inner.backends id = some after ∧ after.topologyGeneration = live.topologyGeneration := by
  have hupdated : ∀ {α : Type} (target : BackendId) (generation : Nat) (f : LiveBackend → LiveBackend × α),
      (∀ live, (f live).1.topologyGeneration = live.topologyGeneration) →
      ∃ after, (world.routing.inner.updateLive world.published target generation f).1.backends id = some after ∧
        after.topologyGeneration = live.topologyGeneration := by
    intro α target generation f hf
    refine ⟨_, RoutingInner.updateLive_of_current hlive hgeneration target generation f, ?_⟩
    split
    · exact hf live
    · rfl
  by_cases hscrape : op.isScrape = false
  · obtain ⟨_, hkept⟩ := step_scrapesKept hscrape hrestart hstep
    rcases hkept with hkept | hkept
    · obtain ⟨after, hafter, hsame⟩ := hkept.kept hlive
      exact ⟨after, hafter, hsame.topologyGeneration⟩
    · obtain ⟨after, hafter, hsame⟩ := hkept.kept (RoutingInner.ensureBackends_of_current hlive hgeneration)
      exact ⟨after, hafter, hsame.topologyGeneration⟩
  · cases op with
    | beginScrape target generation =>
        simp only [ControlWorld.step] at hstep
        split at hstep
        · cases hstep
        · cases hstep
          exact hupdated target generation _ fun _ => rfl
    | endScrape target result =>
        obtain ⟨⟨generation, scrape⟩, _, rfl⟩ := Option.map_eq_some_iff.mp hstep
        cases result with
        | ok metrics =>
            refine hupdated target generation (fun live => (live.metricsSuccess metrics scrape world.now, ())) ?_
            intro live
            simp only [LiveBackend.metricsSuccess]
            split <;> rfl
        | error error =>
            refine hupdated target generation (fun live => (live.metricsFailure scrape.serial error world.now, ())) ?_
            intro live
            simp only [LiveBackend.metricsFailure]
            split <;> rfl
    | _ => exact absurd rfl hscrape

theorem Current.step {generation : Nat} (h : world.Current id generation) {op : ControlOp}
    (hrestart : ∀ config, op ≠ .restart config) (hstep : world.step op = some next)
    (hkept : next.published.backendGeneration id = world.published.backendGeneration id) :
    next.Current id generation := by
  obtain ⟨hpublished, live, hlive, rfl⟩ := h
  obtain ⟨after, hafter, hsame⟩ := live_step hrestart hstep hlive hpublished
  exact ⟨hkept.trans hpublished, after, hafter, hsame⟩

/-- The generation of a backend with a lease out is kept. -/
theorem Current.step_leased {generation : Nat} (h : world.Current id generation) (hcoherent : Coherent world)
    (hleased : Leased world) {op : ControlOp} (hrestart : ∀ config, op ≠ .restart config)
    (hstep : world.step op = some next) {request : Nat} {lease : BackendLease} (hholds : world.Holds request lease)
    (hid : lease.spec.id = id) : next.Current id generation := by
  apply h.step hrestart hstep
  obtain ⟨slot, hslot, hmem⟩ := hleased.accounted request lease hholds
  have hbusy : ¬(slot.mode = .disabled ∧ slot.leases = ∅) := by
    rintro ⟨_, hidle⟩
    rw [hidle] at hmem
    exact absurd hmem (Finset.notMem_empty _)
  rw [h.1]
  exact step_generation hcoherent hrestart hstep (hid ▸ hslot) hbusy h.1

/-- The generation of a backend with a permit out is kept, by the guard. -/
theorem Current.step_out {generation : Nat} (h : world.Current id generation) {op : ControlOp}
    (hguard : NoStrayPermit world op) (hrestart : ∀ config, op ≠ .restart config) (hstep : world.step op = some next)
    (hout : world.PermitOut id) : next.Current id generation := by
  apply h.step hrestart hstep
  rcases step_published hrestart hstep with hpublished | ⟨failure, config, report, hop, hlife, hpublished, _⟩
  · rw [hpublished]
  · rw [hpublished]
    exact hguard.publishes failure config report hop hlife id hout

theorem tryCircuitPermit_some {inner : RoutingInner} {now : Nat} {permit : CircuitPermit}
    (h : (inner.tryCircuitPermit id now).2 = some permit) :
    permit.backendId = id ∧ ∃ live, inner.backends id = some live := by
  simp only [RoutingInner.tryCircuitPermit, RoutingInner.updateBreaker] at h
  cases hlive : inner.backends id with
  | none => simp [hlive] at h
  | some live =>
      refine ⟨?_, live, rfl⟩
      simp only [hlive] at h
      cases hpermit : live.toBreaker.tryCircuitPermit id now with
      | none => simp [hpermit] at h
      | some issued =>
          simp only [hpermit, Option.join_some, Option.some.injEq] at h
          rw [← h]
          unfold Breaker.tryCircuitPermit at hpermit
          split at hpermit
          · cases hpermit
            rfl
          · split at hpermit <;> cases hpermit
            rfl
          · cases hpermit
            rfl
          · cases hpermit

/-- A selection takes a permit, gives it to a request, or leaves neither behind. -/
theorem selectStep_permit {request : Nat} (h : world.selectStep request = some next) :
    (next.requests = world.requests ∧ ∀ eligible candidate permit rest,
        next.selector ≠ .permitted eligible candidate permit rest) ∨
      (∃ eligible candidate rest permit, world.selector = .trying eligible (candidate :: rest) ∧
        (world.routing.inner.tryCircuitPermit candidate.id world.now).2 = some permit ∧
        next.selector = .permitted eligible candidate permit rest ∧ next.requests = world.requests) ∨
      ∃ eligible candidate permit rest lease, world.selector = .permitted eligible candidate permit rest ∧
        lease.spec.id = candidate.id ∧ world.requests request = none ∧ next.selector = .idle ∧
        next.requests = Function.update world.requests request (some (.selected lease permit)) := by
  unfold selectStep at h
  split at h
  · cases h
    exact .inl ⟨rfl, fun _ _ _ _ heq => by cases heq⟩
  · cases h
    exact .inl ⟨rfl, fun _ _ _ _ heq => by cases heq⟩
  · cases h
    refine .inl ⟨rfl, fun _ _ _ _ heq => ?_⟩
    simp only at heq
    split at heq <;> cases heq
  · cases h
    exact .inl ⟨rfl, fun _ _ _ _ heq => by cases heq⟩
  · rename_i eligible candidate rest hselector
    split at h
    · cases h
      exact .inl ⟨rfl, fun _ _ _ _ heq => by cases heq⟩
    · rename_i inner permit hpermit
      cases h
      exact .inr (.inl ⟨eligible, candidate, rest, permit, hselector, by rw [hpermit], rfl, rfl⟩)
  · rename_i eligible candidate permit rest hselector
    split at h
    · cases h
      exact .inl ⟨rfl, fun _ _ _ _ heq => by cases heq⟩
    · rename_i registry lease hacquire
      split at h
      · cases h
      · rename_i hnone
        cases h
        obtain ⟨slot, after, hslot, hslotAcquire, rfl⟩ := BackendRegistry.tryAcquire_ok hacquire
        obtain ⟨_, _, rfl, _⟩ := SlotState.tryAcquire_ok hslotAcquire
        exact .inr (.inr ⟨eligible, candidate, permit, rest, _, hselector, BackendRegistry.slot_id hslot,
          by simpa using hnone, rfl, rfl⟩)

/-- The observer of a response reports to the backend of the permit. -/
theorem observer_backendId {permit : CircuitPermit} {status now : Nat} {breaker : Breaker}
    {observer : BodyFailureObserver} (h : (permit.intoResponseGuard status now breaker).2 = some observer) :
    observer.backendId = permit.backendId := by
  unfold CircuitPermit.intoResponseGuard at h
  split at h
  · cases h
  · split at h
    · unfold CircuitPermit.successWithBodyObserver Breaker.recordSuccessAndObserver at h
      split at h
      · cases h
      · simp only at h
        split at h
        · cases h
        · cases h
          rfl
    · cases h

/-- A request reports to the backend it reported to before, with its lease or, at the end, without. -/
theorem requestStep_reports {request : Nat} {event : RequestEvent} (h : world.requestStep request event = some next) :
    ∃ routed after, world.requests request = some routed ∧
      next.requests = Function.update world.requests request after ∧
      ∀ reporting, after = some reporting → (∃ lease, routed.lease = some lease ∧
        ∀ id, reporting.reportsTo = some id → routed.reportsTo = some id) ∧
        ∀ lease, reporting.lease = some lease → routed.lease = some lease := by
  unfold requestStep at h
  split at h
  · rename_i lease permit hrouted
    cases h
    refine ⟨_, _, hrouted, rfl, ?_⟩
    rintro reporting ⟨⟩
    exact ⟨⟨lease, rfl, fun id hid => by cases hid⟩, fun _ hlease => hlease⟩
  · rename_i lease permit status hrouted
    cases h
    refine ⟨_, _, hrouted, rfl, ?_⟩
    rintro reporting ⟨⟩
    refine ⟨⟨lease, rfl, fun id hid => ?_⟩, fun _ hlease => hlease⟩
    obtain ⟨observer, hobserver, rfl⟩ := Option.map_eq_some_iff.mp hid
    rw [RoutingInner.updateBreaker_result] at hobserver
    obtain ⟨live, _, hresult⟩ := Option.map_eq_some_iff.mp (Option.join_eq_some_iff.mp hobserver)
    exact congrArg some (observer_backendId hresult).symm
  · rename_i lease permit hrouted
    obtain ⟨world', hreleased, rfl⟩ := Option.map_eq_some_iff.mp h
    obtain ⟨slot, released, hslot, hrelease, rfl⟩ := releaseLease_some hreleased
    refine ⟨_, _, hrouted, rfl, ?_⟩
    rintro reporting ⟨⟩
    exact ⟨⟨lease, rfl, fun _ hid => hid⟩, fun _ hlease => by cases hlease⟩
  · rename_i lease observer hrouted
    cases h
    refine ⟨_, _, hrouted, rfl, ?_⟩
    rintro reporting ⟨⟩
    exact ⟨⟨lease, rfl, fun id hid => by cases hid⟩, fun _ hlease => hlease⟩
  · rename_i lease observer hrouted
    obtain ⟨world', hreleased, rfl⟩ := Option.map_eq_some_iff.mp h
    obtain ⟨slot, released, hslot, hrelease, rfl⟩ := releaseLease_some hreleased
    exact ⟨_, _, hrouted, rfl, fun _ hnone => by cases hnone⟩
  · rename_i hrouted
    cases h
    exact ⟨_, _, hrouted, rfl, fun _ hnone => by cases hnone⟩
  · cases h

end ControlWorld

namespace PermitTags

variable {tags : PermitTags} {step : ControlStep}

/-- The generation of a request is set once, with its permit. -/
theorem step_requests {request : Nat} {routed : RoutedRequest} (h : step.before.requests request = some routed) :
    (tags.step step).requests request = tags.requests request := by
  unfold PermitTags.step
  split
  · rename_i selecting _
    split
    · rfl
    · split
      · rfl
      · rename_i hnone
        have hother : request ≠ selecting := by
          rintro rfl
          rw [h] at hnone
          exact hnone rfl
        exact Function.update_of_ne hother _ _
    · rfl
  · rfl

end PermitTags

namespace Tagged

variable {tags : PermitTags} {world next : ControlWorld}

theorem of_quiet (hrequests : ∀ request, world.requests request = none) (hselector : world.selector = .idle) :
    Tagged tags world := by
  refine ⟨?_, ?_, ?_⟩
  · intro _ _ _ _ hpermitted
    rw [hselector] at hpermitted
    cases hpermitted
  · intro request _ _ _ hrouted
    rw [hrequests request] at hrouted
    cases hrouted
  · intro request _ hrouted
    rw [hrequests request] at hrouted
    cases hrouted

section Step

variable (h : Tagged tags world) (hcoherent : Coherent world) (hleased : Leased world) {op : ControlOp}
  (hguard : NoStrayPermit world op) (hrestart : ∀ config, op ≠ .restart config) (hstep : world.step op = some next)

include h hcoherent hleased hguard hrestart hstep

omit hcoherent hleased in
/-- A permit that was out before the step is still of the current generation. -/
theorem kept_selecting {eligible : Nat} {candidate : Candidate} {permit : CircuitPermit} {rest : List Candidate}
    (hselector : world.selector = .permitted eligible candidate permit rest) :
    next.Current permit.backendId tags.selector := by
  obtain ⟨_, hcurrent⟩ := h.selecting eligible candidate permit rest hselector
  exact hcurrent.step_out hguard hrestart hstep (.inl ⟨eligible, candidate, permit, rest, hselector, rfl⟩)

omit hguard in
theorem kept_leased {request : Nat} {routed : RoutedRequest} {lease : BackendLease} {id : BackendId}
    (hrouted : world.requests request = some routed) (hlease : routed.lease = some lease)
    (hreports : routed.reportsTo = some id) : next.Current id (tags.requests request) := by
  obtain ⟨hid, hcurrent⟩ := h.leased request routed lease id hrouted hlease hreports
  have hholds : world.Holds request lease := by
    rw [ControlWorld.Holds, hrouted]
    exact hlease
  exact hcurrent.step_leased hcoherent hleased hrestart hstep hholds hid

omit hcoherent hleased in
theorem kept_unleased {request : Nat} {permit : CircuitPermit}
    (hrouted : world.requests request = some (.unleased permit)) (htrial : permit.trial = true) :
    next.Current permit.backendId (tags.requests request) :=
  (h.unleased request permit hrouted htrial).step_out hguard hrestart hstep
    (.inr ⟨request, permit, hrouted, htrial, rfl⟩)

/-- The requests are left alone. -/
theorem of_requests {after : PermitTags} (hrequests : next.requests = world.requests)
    (htags : ∀ request routed, world.requests request = some routed → after.requests request = tags.requests request)
    (hselecting : ∀ eligible candidate permit rest, next.selector = .permitted eligible candidate permit rest →
      permit.backendId = candidate.id ∧ next.Current permit.backendId after.selector) : Tagged after next := by
  refine ⟨hselecting, ?_, ?_⟩
  · intro request routed lease id hrouted hlease hreports
    rw [hrequests] at hrouted
    rw [htags request routed hrouted]
    exact ⟨(h.leased request routed lease id hrouted hlease hreports).1,
      h.kept_leased hcoherent hleased hrestart hstep hrouted hlease hreports⟩
  · intro request permit hrouted htrial
    rw [hrequests] at hrouted
    rw [htags request _ hrouted]
    exact h.kept_unleased hguard hrestart hstep hrouted htrial

theorem frame (hrequests : next.requests = world.requests) (hselector : next.selector = world.selector) :
    Tagged tags next := by
  refine h.of_requests hcoherent hleased hguard hrestart hstep hrequests (fun _ _ _ => rfl) ?_
  intro eligible candidate permit rest hpermitted
  rw [hselector] at hpermitted
  exact ⟨(h.selecting eligible candidate permit rest hpermitted).1,
    h.kept_selecting hguard hrestart hstep hpermitted⟩

end Step

theorem select (h : Tagged tags world) (hcoherent : Coherent world) (hleased : Leased world) {request : Nat}
    (hguard : NoStrayPermit world (.select request)) (hstep : world.step (.select request) = some next) :
    Tagged (tags.step ⟨world, .select request, next⟩) next := by
  have hrestart : ∀ config, ControlOp.select request ≠ .restart config := fun _ => ControlOp.noConfusion
  have hselect : world.selectStep request = some next := hstep
  rcases ControlWorld.selectStep_permit hselect with
    ⟨hrequests, hnone⟩ | ⟨eligible, candidate, rest, permit, hselector, hpermit, hnext, hrequests⟩ |
    ⟨eligible, candidate, permit, rest, lease, hselector, hid, hfree, hnext, hrequests⟩
  · exact h.of_requests hcoherent hleased hguard hrestart hstep hrequests
      (fun _ _ hrouted => PermitTags.step_requests hrouted)
      (fun eligible candidate permit rest heq => absurd heq (hnone eligible candidate permit rest))
  · refine h.of_requests hcoherent hleased hguard hrestart hstep hrequests
      (fun _ _ hrouted => PermitTags.step_requests hrouted) ?_
    intro _ _ _ _ heq
    rw [hnext] at heq
    cases heq
    -- the permit is issued by a live state of the published generation
    obtain ⟨hbackend, live, hlive⟩ := ControlWorld.tryCircuitPermit_some hpermit
    have hpublished := hguard.issues request eligible candidate rest live rfl hselector hlive
    obtain ⟨after, hafter, hsame⟩ := ControlWorld.live_step hrestart hstep hlive hpublished
    have htag : (tags.step ⟨world, .select request, next⟩).selector = live.topologyGeneration := by
      simp only [PermitTags.step, hselector, hlive, Option.map_some, Option.getD_some]
    refine ⟨hbackend, ?_⟩
    rw [htag, hbackend]
    refine ⟨?_, after, hafter, hsame⟩
    rw [(ControlWorld.selectStep_background hselect).published]
    exact hpublished
  · obtain ⟨hbackend, _⟩ := h.selecting eligible candidate permit rest hselector
    have hcurrent := h.kept_selecting hguard hrestart hstep hselector
    have htag : (tags.step ⟨world, .select request, next⟩).requests request = tags.selector := by
      simp only [PermitTags.step, hselector, hfree]
      exact Function.update_self _ _ _
    refine ⟨?_, ?_, ?_⟩
    · intro _ _ _ _ heq
      rw [hnext] at heq
      cases heq
    · intro other routed held id hrouted hlease hreports
      rw [hrequests] at hrouted
      by_cases hother : other = request
      · subst hother
        rw [Function.update_self] at hrouted
        cases hrouted
        cases hlease
        cases hreports
        rw [htag]
        exact ⟨hid.trans hbackend.symm, hcurrent⟩
      · rw [Function.update_of_ne hother] at hrouted
        rw [PermitTags.step_requests hrouted]
        exact ⟨(h.leased other routed held id hrouted hlease hreports).1,
          h.kept_leased hcoherent hleased hrestart hstep hrouted hlease hreports⟩
    · intro other permit hrouted htrial
      rw [hrequests] at hrouted
      by_cases hother : other = request
      · subst hother
        rw [Function.update_self] at hrouted
        cases hrouted
      · rw [Function.update_of_ne hother] at hrouted
        rw [PermitTags.step_requests hrouted]
        exact h.kept_unleased hguard hrestart hstep hrouted htrial

theorem request (h : Tagged tags world) (hcoherent : Coherent world) (hleased : Leased world) {request : Nat}
    {event : RequestEvent} (hguard : NoStrayPermit world (.request request event))
    (hstep : world.step (.request request event) = some next) : Tagged tags next := by
  have hrestart : ∀ config, ControlOp.request request event ≠ .restart config := fun _ => ControlOp.noConfusion
  have hselector := ControlWorld.requestStep_selector hstep
  obtain ⟨routed, after, hrouted, hrequests, hreports⟩ := ControlWorld.requestStep_reports hstep
  refine ⟨?_, ?_, ?_⟩
  · intro eligible candidate permit rest hpermitted
    rw [hselector] at hpermitted
    exact ⟨(h.selecting eligible candidate permit rest hpermitted).1,
      h.kept_selecting hguard hrestart hstep hpermitted⟩
  · intro other found lease id hfound hlease hid
    rw [hrequests] at hfound
    by_cases hother : other = request
    · subst hother
      rw [Function.update_self] at hfound
      obtain ⟨⟨_, _, hsame⟩, hkept⟩ := hreports found hfound
      exact ⟨(h.leased other routed lease id hrouted (hkept lease hlease) (hsame id hid)).1,
        h.kept_leased hcoherent hleased hrestart hstep hrouted (hkept lease hlease) (hsame id hid)⟩
    · rw [Function.update_of_ne hother] at hfound
      exact ⟨(h.leased other found lease id hfound hlease hid).1,
        h.kept_leased hcoherent hleased hrestart hstep hfound hlease hid⟩
  · intro other permit hfound htrial
    rw [hrequests] at hfound
    by_cases hother : other = request
    · subst hother
      rw [Function.update_self] at hfound
      -- the lease was still held before it was dropped
      obtain ⟨⟨lease, hlease, hsame⟩, _⟩ := hreports _ hfound
      exact h.kept_leased hcoherent hleased hrestart hstep hrouted hlease (hsame _ rfl)
    · rw [Function.update_of_ne hother] at hfound
      exact h.kept_unleased hguard hrestart hstep hfound htrial

theorem step (h : Tagged tags world) (hcoherent : Coherent world) (hleased : Leased world) {op : ControlOp}
    (hguard : NoStrayPermit world op) (hstep : world.step op = some next) :
    Tagged (tags.step ⟨world, op, next⟩) next := by
  cases op with
  | select request => exact h.select hcoherent hleased hguard hstep
  | request request event => exact h.request hcoherent hleased hguard hstep
  | readiness | beginScrape | endScrape | elapse =>
      obtain ⟨_, hrequests, hselector⟩ := ControlWorld.step_probe rfl hstep
      exact h.frame hcoherent hleased hguard (fun _ => ControlOp.noConfusion) hstep hrequests hselector
  | drain | activate | disable | reload | proceed | drive =>
      have hlocked := ControlWorld.step_locked rfl (fun _ => ControlOp.noConfusion) hstep
      exact h.frame hcoherent hleased hguard (fun _ => ControlOp.noConfusion) hstep hlocked.requests hlocked.selector
  | restart config =>
      obtain ⟨hrequests, hselector⟩ := ControlWorld.boot_requests (ControlWorld.restart_some hstep).2
      exact of_quiet hrequests hselector

theorem of_run {record : List ControlStep} (hrun : Run controlSystem NoStrayPermit record world) :
    Tagged (permitTags record) world := by
  refine hrun.induct (motive := fun record world => Tagged (permitTags record) world) ?_ ?_
  · rintro world ⟨config, store, now, hboot⟩
    obtain ⟨hrequests, hselector⟩ := ControlWorld.boot_requests hboot
    exact of_quiet hrequests hselector
  · intro record world op next hrun h hguard hnext
    exact h.step (Coherent.of_run hrun) (Leased.of_run hrun) hguard hnext

end Tagged

/-- The drop of a permit that is no trial changes nothing. -/
theorem CircuitPermit.drop_of_not_trial {permit : CircuitPermit} (h : permit.trial = false) (now : Nat)
    (breaker : Breaker) : permit.drop now breaker = breaker := by
  unfold CircuitPermit.drop
  split
  · rfl
  · rename_i hresolved
    simp only [CircuitPermit.neutral, CircuitPermit.resolve, hresolved, h, Bool.false_eq_true, if_false]
    exact Breaker.recordCircuitOutcome_neutral_plain _ now

/-- What an action reports through is of the current generation, or changes nothing. -/
theorem Tagged.outcome {tags : PermitTags} {world next : ControlWorld} (h : Tagged tags world) {op : ControlOp}
    (hstep : world.step op = some next) {id : BackendId} {generation : Nat}
    (houtcome : world.outcome tags op = some (id, generation)) :
    world.Current id generation ∨ ∀ live after, world.routing.inner.backends id = some live →
      next.routing.inner.backends id = some after → after.toBreaker = live.toBreaker := by
  cases op with
  | select request =>
      simp only [ControlWorld.outcome] at houtcome
      split at houtcome
      · rename_i eligible candidate permit rest hselector
        cases houtcome
        exact .inl (h.selecting eligible candidate permit rest hselector).2
      · cases houtcome
  | request request event =>
      obtain ⟨reported, hreported, heq⟩ := Option.map_eq_some_iff.mp houtcome
      cases heq
      obtain ⟨routed, hrouted, hreports⟩ := Option.bind_eq_some_iff.mp hreported
      cases routed with
      | selected lease permit => exact .inl (h.leased request _ lease id hrouted rfl hreports).2
      | guarded lease observer => exact .inl (h.leased request _ lease id hrouted rfl hreports).2
      | unleased permit =>
          cases hreports
          cases htrial : permit.trial with
          | true => exact .inl (h.unleased request permit hrouted htrial)
          | false =>
              right
              intro live after hlive hafter
              cases event with
              | resolve =>
                  simp only [ControlWorld.step, ControlWorld.requestStep, hrouted] at hstep
                  cases hstep
                  have hbackends := RoutingInner.updateBreaker_backends permit.backendId
                    (fun breaker => (permit.drop world.now breaker, ())) world.routing.inner permit.backendId
                  rw [if_pos rfl, hlive] at hbackends
                  have hsame := Option.some.inj (hafter.symm.trans hbackends)
                  rw [hsame]
                  exact permit.drop_of_not_trial htrial world.now live.toBreaker
              | transportFailure | response | bodyError | release =>
                  simp [ControlWorld.step, ControlWorld.requestStep, hrouted] at hstep
  | _ => cases houtcome

/-- As long as no reload publishes another generation of a backend with a permit out and no lease, and no
outdated live state issues a permit, an outcome changes only the circuit of the generation that the permit
or the observer belongs to. -/
theorem outcomes_keep_generations (record : List ControlStep) (world : ControlWorld)
    (hrun : Run controlSystem NoStrayPermit record world) :
    ∀ recent step older, record = recent ++ step :: older → ∀ id generation,
      step.before.outcome (permitTags older) step.action = some (id, generation) →
      ∀ live after, step.before.routing.inner.backends id = some live →
        step.after.routing.inner.backends id = some after → after.toBreaker ≠ live.toBreaker →
        live.topologyGeneration = generation ∧ after.topologyGeneration = generation := by
  rintro recent ⟨before, op, next⟩ older rfl id generation houtcome live after hlive hafter hchanged
  obtain ⟨_, hbefore, _, hstep⟩ := hrun.of_append.cons_inv
  rcases (Tagged.of_run hbefore).outcome hstep houtcome with ⟨hpublished, found, hfound, hgeneration⟩ | hsame
  · obtain rfl : found = live := Option.some.inj (hfound.symm.trans hlive)
    subst hgeneration
    have hrestart : ∀ config, op ≠ .restart config := by
      rintro config rfl
      cases houtcome
    obtain ⟨reached, hreached, hkept⟩ := ControlWorld.live_step hrestart hstep hlive hpublished
    obtain rfl : reached = after := Option.some.inj (hreached.symm.trans hafter)
    exact ⟨rfl, hkept⟩
  · exact absurd (hsame live after hlive hafter) hchanged

/-- The same backend at another address. -/
def movedConfig : ValidConfig :=
  ⟨.new [⟨"a", ⟨"b", "/"⟩, ⟨"b", "/metrics"⟩, ⟨"b", "/v1/models"⟩, some 8⟩], by decide⟩

/-- While a selection has its permit the backend is disabled, moved and activated; then the selection goes on. -/
def movedScript : List ControlOp :=
  permittedScript ++ [.disable "a" false, .proceed none, .proceed none, .reload movedConfig, .proceed none,
    .proceed none,
    .proceed none, .proceed none, .readiness "a" 2 ⟨2000, 1000, 2, 3⟩ none, .readiness "a" 2 ⟨2000, 1000, 2, 3⟩ none,
    .beginScrape "a" 2, .endScrape "a" (.ok ⟨0, 0, none, none, none, none, none⟩), .activate "a", .proceed none,
    .proceed none, .select 0, .request 0 .transportFailure]

/-- The permit of the first generation counts a failure in the second. -/
theorem outcome_crosses_generations :
    ∃ step older world live after, Run controlSystem Free (step :: older) world ∧
      step.before.outcome (permitTags older) step.action = some ("a", 1) ∧
      step.before.routing.inner.backends "a" = some live ∧ step.after.routing.inner.backends "a" = some after ∧
      after.toBreaker ≠ live.toBreaker ∧ live.topologyGeneration = 2 ∧ after.topologyGeneration = 2 := by
  have hfacts : (ControlWorld.boot singleConfig emptyStore 0).any (fun start =>
      (controlSystem.follow start movedScript).isSome &&
      match controlSystem.recordOf start movedScript [] with
      | step :: older =>
          decide (step.before.outcome (permitTags older) step.action = some ("a", 1)) &&
            (step.before.routing.inner.backends "a").any fun live =>
              (step.after.routing.inner.backends "a").any fun after =>
                decide (after.toBreaker ≠ live.toBreaker) && decide (live.topologyGeneration = 2) &&
                  decide (after.topologyGeneration = 2)
      | [] => false) = true := by
    decide +kernel
  obtain ⟨start, hboot, hfacts⟩ := (Option.any_eq_true _ _).mp hfacts
  obtain ⟨hworld, hrecord⟩ := Bool.and_eq_true_iff.mp hfacts
  obtain ⟨world, hworld⟩ := Option.isSome_iff_exists.mp hworld
  have hstart : Run controlSystem Free [] start := .start ⟨singleConfig, emptyStore, 0, hboot⟩
  have hrun := hstart.follow_unguarded _ hworld (fun _ _ _ => trivial)
  split at hrecord
  · rename_i step older hsteps
    obtain ⟨houtcome, hlive⟩ := Bool.and_eq_true_iff.mp hrecord
    obtain ⟨live, hlive, hafter⟩ := (Option.any_eq_true _ _).mp hlive
    obtain ⟨after, hafter, hchanged⟩ := (Option.any_eq_true _ _).mp hafter
    simp only [Bool.and_eq_true, decide_eq_true_eq] at hchanged
    rw [hsteps] at hrun
    exact ⟨step, older, world, live, after, hrun, of_decide_eq_true houtcome, hlive, hafter, hchanged.1.1, hchanged.1.2,
      hchanged.2⟩
  · cases hrecord

/-- The selection goes on at once and its request fails. -/
def failedScript : List ControlOp := permittedScript ++ [.select 0, .request 0 .transportFailure]

theorem outcomes_keep_generations_failed :
    ∃ step older world live after, Run controlSystem NoStrayPermit (step :: older) world ∧
      step.before.outcome (permitTags older) step.action = some ("a", 1) ∧
      step.before.routing.inner.backends "a" = some live ∧ step.after.routing.inner.backends "a" = some after ∧
      after.toBreaker ≠ live.toBreaker ∧ live.topologyGeneration = 1 ∧ after.topologyGeneration = 1 := by
  have hfacts : (ControlWorld.boot singleConfig emptyStore 0).any (fun start =>
      (controlSystem.follow start failedScript).isSome &&
      (controlSystem.recordOf start failedScript []).all (fun step =>
        match step.before.selector with
        | .trying _ candidates =>
            candidates.head?.all fun candidate =>
              (step.before.routing.inner.backends candidate.id).all fun live =>
                decide (step.before.published.backendGeneration candidate.id = some live.topologyGeneration)
        | _ => true) &&
      match controlSystem.recordOf start failedScript [] with
      | step :: older =>
          decide (step.before.outcome (permitTags older) step.action = some ("a", 1)) &&
            (step.before.routing.inner.backends "a").any fun live =>
              (step.after.routing.inner.backends "a").any fun after => decide (after.toBreaker ≠ live.toBreaker)
      | [] => false) = true := by
    decide +kernel
  obtain ⟨start, hboot, hfacts⟩ := (Option.any_eq_true _ _).mp hfacts
  simp only [Bool.and_eq_true] at hfacts
  obtain ⟨⟨hworld, hissues⟩, hrecord⟩ := hfacts
  obtain ⟨world, hworld⟩ := Option.isSome_iff_exists.mp hworld
  have hstart : Run controlSystem NoStrayPermit [] start := .start ⟨singleConfig, emptyStore, 0, hboot⟩
  have hrun := hstart.follow _ hworld (fun step hmem => by
    refine ⟨?_, ?_⟩
    · intro failure config report haction
      have hlisted := System.action_of_mem_recordOf hmem
      rw [haction] at hlisted
      simp [failedScript, permittedScript] at hlisted
    · intro request eligible candidate rest live _ hselector hlive
      have hissues := List.all_eq_true.mp hissues step hmem
      simp only [hselector, hlive, List.head?_cons, Option.all_some] at hissues
      exact of_decide_eq_true hissues)
  split at hrecord
  · rename_i step older hsteps
    obtain ⟨houtcome, hlive⟩ := Bool.and_eq_true_iff.mp hrecord
    obtain ⟨live, hlive, hafter⟩ := (Option.any_eq_true _ _).mp hlive
    obtain ⟨after, hafter, hchanged⟩ := (Option.any_eq_true _ _).mp hafter
    rw [hsteps] at hrun
    have houtcome := of_decide_eq_true houtcome
    have hchanged := of_decide_eq_true hchanged
    obtain ⟨hbefore, hnext⟩ :=
      outcomes_keep_generations _ world hrun [] step older rfl "a" 1 houtcome live after hlive hafter hchanged
    exact ⟨step, older, world, live, after, hrun, houtcome, hlive, hafter, hchanged, hbefore, hnext⟩
  · cases hrecord

end MistralrsProxy
