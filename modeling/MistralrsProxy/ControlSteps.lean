import MistralrsProxy.Control

/-! What the steps of the control plane can do to the state that the lifecycle lock protects. What runs
without the lock takes leases of active slots and drops leases; a drain task may take the lock. -/

open Transition Keyed

namespace MistralrsProxy

namespace SlotState

/-- What requests can do to a slot: acquire while it is active, and release. -/
structure Ages (old new : SlotState) : Prop where
  spec : new.spec = old.spec
  registered : new.registered = old.registered
  mode : new.mode = old.mode
  leases : old.mode ≠ .active → new.leases ⊆ old.leases

theorem Ages.refl (slot : SlotState) : slot.Ages slot := ⟨rfl, rfl, rfl, fun _ => Finset.Subset.refl _⟩

theorem ages_of_tryAcquire {slot next : SlotState} {lease : BackendLease} {now : Nat}
    (h : slot.tryAcquire now = .ok (next, lease)) : slot.Ages next := by
  obtain ⟨_, hmode, _, rfl⟩ := tryAcquire_ok h
  exact ⟨rfl, rfl, rfl, fun hnot => absurd hmode hnot⟩

theorem ages_of_release {slot next : SlotState} {key : LeaseKey} (h : slot.release key = some next) :
    slot.Ages next := by
  obtain ⟨_, rfl⟩ := release_some h
  exact ⟨rfl, rfl, rfl, fun _ => Finset.erase_subset _ _⟩

end SlotState

namespace BackendRegistry

variable {registry : BackendRegistry} {id : BackendId} {slot : SlotState}

/-- Requests alone lead from one registry to the other. -/
def Ages (old new : BackendRegistry) : Prop :=
  ∀ id, Option.Rel SlotState.Ages (old.find? id) (new.find? id)

theorem Ages.refl (registry : BackendRegistry) : Ages registry registry := by
  intro id
  cases registry.find? id with
  | none => exact .none
  | some slot => exact .some (SlotState.Ages.refl slot)

theorem Ages.find {old new : BackendRegistry} (h : Ages old new) (hslot : new.find? id = some slot) :
    ∃ before, old.find? id = some before ∧ before.Ages slot := by
  have hid := h id
  rw [hslot] at hid
  cases hold : old.find? id with
  | none =>
      rw [hold] at hid
      cases hid
  | some before =>
      rw [hold] at hid
      cases hid with
      | some hages => exact ⟨before, rfl, hages⟩

theorem Ages.kept {old new : BackendRegistry} (h : Ages old new) (hslot : old.find? id = some slot) :
    ∃ after, new.find? id = some after ∧ slot.Ages after := by
  have hid := h id
  rw [hslot] at hid
  cases hnew : new.find? id with
  | none =>
      rw [hnew] at hid
      cases hid
  | some after =>
      rw [hnew] at hid
      cases hid with
      | some hages => exact ⟨after, rfl, hages⟩

theorem ages_of_replace {new : SlotState} (hslot : registry.find? id = some slot) (hages : slot.Ages new) :
    Ages registry (registry.put new) := by
  intro other
  have hnew : new.spec.id = id := by rw [hages.spec, slot_id hslot]
  rw [find?_replace hslot hnew]
  by_cases hother : other = id
  · subst hother
    rw [if_pos rfl, hslot]
    exact .some hages
  · rw [if_neg hother]
    exact Ages.refl registry other

end BackendRegistry

/-- What a status was read from. -/
theorem RoutingState.status_some {state : RoutingState} {id : BackendId} {now : Nat} {status : BackendStatusSnapshot}
    (h : state.status id now = some status) :
    ∃ slot live backend, state.runtime.registry.find? id = some slot ∧ slot.registered = true ∧
      state.runtime.published.backend id = some backend ∧
      state.runtime.published.backendGeneration id = some live.topologyGeneration ∧
      state.synchronised.backends id = some live ∧
      status = statusSnapshot (slot.snapshot now) live now state.runtime.published.config.telemetry.staleAfter := by
  simp only [RoutingState.status, Option.bind_eq_some_iff] at h
  obtain ⟨slot, hslot, ⟨backend, generation⟩, hentry, live, hlive, hstatus⟩ := h
  split at hstatus
  · cases hstatus
  · rename_i hgeneration
    obtain ⟨hfind, hregistered⟩ := BackendRegistry.get_eq_some_iff.mp hslot
    have hid : backend.id = id := by simpa using List.find?_some hentry
    obtain ⟨hmem, hassigned⟩ := PublishedRuntime.mem_backendInstances.mp (List.mem_of_find?_eq_some hentry)
    rw [ne_eq, not_not] at hgeneration
    refine ⟨slot, live, backend, hfind, hregistered, PublishedRuntime.backend_eq_some_iff.mpr ⟨hmem, hid⟩, ?_, hlive,
      (Option.some.inj hstatus).symm⟩
    rw [hgeneration, ← hid]
    exact hassigned

/-- A step that does not touch what the lifecycle lock protects. -/
structure Background (world next : ControlWorld) : Prop where
  published : next.published = world.published
  store : next.store = world.store
  lifecycle : next.lifecycle = world.lifecycle
  operations : next.operations = world.operations
  replies : next.replies = world.replies
  ages : BackendRegistry.Ages world.registry next.registry

/-- The operations that run without the lifecycle lock and leave the drain tasks alone. -/
def ControlOp.isBackground : ControlOp → Bool
  | .select _ | .request _ _ | .readiness _ _ _ _ | .beginScrape _ _ | .endScrape _ _ | .elapse _ => true
  | _ => false

/-- The operator commands. -/
def ControlOp.isCommand : ControlOp → Bool
  | .drain _ | .activate _ | .disable _ _ | .reload _ => true
  | _ => false

/-- The lock states that the first step of a command can lead to. -/
def Lifecycle.isStart : Lifecycle → Bool
  | .free | .drainSave _ _ | .drainEnsure _ _ | .activateSave _ | .disableSave _ _ _ | .reloadReconcile _ => true
  | _ => false

namespace ControlWorld

variable {world next : ControlWorld}

theorem background_inner (inner : RoutingInner) {selector : Selector} {requests : Nat → Option RoutedRequest}
    {scrapes : BackendId → Option (Nat × MetricsScrapeContext)} {now : Nat} :
    Background world { world.setInner inner with
      selector := selector, requests := requests, scrapes := scrapes, now := now } :=
  ⟨rfl, rfl, rfl, rfl, rfl, BackendRegistry.Ages.refl _⟩

theorem selectStep_background {request : Nat} (h : world.selectStep request = some next) : Background world next := by
  unfold selectStep at h
  split at h
  · cases h
    exact background_inner world.routing.inner
  · cases h
    exact background_inner world.routing.inner
  · cases h
    exact background_inner _
  · cases h
    exact background_inner world.routing.inner
  · split at h
    · cases h
      exact background_inner _
    · cases h
      exact background_inner _
  · split at h
    · cases h
      exact background_inner _
    · rename_i registry lease hacquire
      split at h
      · cases h
      · cases h
        obtain ⟨slot, after, hslot, hslotAcquire, rfl⟩ := BackendRegistry.tryAcquire_ok hacquire
        exact ⟨rfl, rfl, rfl, rfl, rfl,
          BackendRegistry.ages_of_replace hslot (SlotState.ages_of_tryAcquire hslotAcquire)⟩

/-- Only the last step of a selection touches the registry and the requests: it takes a lease of an active slot. -/
theorem selectStep_some {request : Nat} (h : world.selectStep request = some next) :
    next.registry = world.registry ∧ next.requests = world.requests ∨
      ∃ eligible candidate permit rest slot after lease, world.selector = .permitted eligible candidate permit rest ∧
        world.requests request = none ∧ world.registry.find? candidate.id = some slot ∧
        slot.tryAcquire world.now = .ok (after, lease) ∧
        next = { world.setRegistry (world.registry.put after) with
          selector := .idle
          requests := Function.update world.requests request (some (.selected lease permit)) } := by
  unfold selectStep at h
  split at h
  · cases h
    exact .inl ⟨rfl, rfl⟩
  · cases h
    exact .inl ⟨rfl, rfl⟩
  · cases h
    exact .inl ⟨rfl, rfl⟩
  · cases h
    exact .inl ⟨rfl, rfl⟩
  · split at h <;> cases h <;> exact .inl ⟨rfl, rfl⟩
  · rename_i eligible candidate permit rest hselector
    split at h
    · cases h
      exact .inl ⟨rfl, rfl⟩
    · rename_i registry lease hacquire
      split at h
      · cases h
      · rename_i hnone
        cases h
        obtain ⟨slot, after, hslot, hslotAcquire, rfl⟩ := BackendRegistry.tryAcquire_ok hacquire
        exact .inr ⟨eligible, candidate, permit, rest, slot, after, lease, hselector, by simpa using hnone, hslot,
          hslotAcquire, rfl⟩

theorem releaseLease_some {lease : BackendLease} (h : world.releaseLease lease = some next) :
    ∃ slot after, world.registry.find? lease.spec.id = some slot ∧ slot.release lease.key = some after ∧
      next = world.setRegistry (world.registry.put after) := by
  simp only [releaseLease, Option.bind_eq_some_iff, Option.map_eq_some_iff] at h
  obtain ⟨slot, hslot, after, hafter, rfl⟩ := h
  exact ⟨slot, after, hslot, hafter, rfl⟩

theorem release_background {lease : BackendLease} {request : Nat} {routed : Option RoutedRequest}
    (h : (world.releaseLease lease).map (·.setRequest request routed) = some next) : Background world next := by
  obtain ⟨released, hreleased, rfl⟩ := Option.map_eq_some_iff.mp h
  obtain ⟨slot, after, hslot, hafter, rfl⟩ := releaseLease_some hreleased
  exact ⟨rfl, rfl, rfl, rfl, rfl, BackendRegistry.ages_of_replace hslot (SlotState.ages_of_release hafter)⟩

theorem requestStep_background {request : Nat} {event : RequestEvent}
    (h : world.requestStep request event = some next) : Background world next := by
  unfold requestStep at h
  split at h
  · cases h
    exact background_inner _
  · cases h
    exact background_inner _
  · exact release_background h
  · cases h
    exact background_inner _
  · exact release_background h
  · cases h
    exact background_inner _
  · cases h

theorem step_background {op : ControlOp} (hop : op.isBackground = true) (h : world.step op = some next) :
    Background world next := by
  cases op with
  | select request => exact selectStep_background h
  | request request event => exact requestStep_background h
  | readiness id generation config failure =>
      cases failure with
      | none =>
          cases h
          exact background_inner _
      | some failure =>
          cases h
          exact background_inner _
  | beginScrape id generation =>
      simp only [step] at h
      split at h
      · cases h
      · cases h
        exact background_inner _
  | endScrape id result =>
      simp only [step, Option.map_eq_some_iff] at h
      obtain ⟨scrape, _, rfl⟩ := h
      exact background_inner _
  | elapse time =>
      cases h
      exact background_inner world.routing.inner
  | _ => cases hop

/-- A drain task touches only the operations, except that it may take the lock for a commit. -/
theorem driveStep_some {index : Nat} (h : world.driveStep index = some next) :
    ∃ operation, world.operations[index]? = some operation ∧ next.published = world.published ∧
      next.store = world.store ∧ next.registry = world.registry ∧ next.replies = world.replies ∧
      (next.lifecycle = world.lifecycle ∨
        world.lifecycle = .free ∧ ∃ status confirmed, world.status operation.backendId = some confirmed ∧
          operation.confirms confirmed = true ∧
          next.lifecycle = .commitSave index operation.backendId status confirmed) := by
  simp only [driveStep, Option.bind_eq_some_iff] at h
  obtain ⟨operation, hoperation, h⟩ := h
  refine ⟨operation, hoperation, ?_⟩
  split at h
  · cases h
    exact ⟨rfl, rfl, rfl, rfl, .inl rfl⟩
  · cases h
    exact ⟨rfl, rfl, rfl, rfl, .inl rfl⟩
  · cases h
    exact ⟨rfl, rfl, rfl, rfl, .inl rfl⟩
  · rename_i status _
    split at h
    · rename_i hfree
      cases hstatus : world.status operation.backendId with
      | none =>
          simp only [hstatus] at h
          cases h
          exact ⟨rfl, rfl, rfl, rfl, .inl rfl⟩
      | some confirmed =>
          simp only [hstatus] at h
          split at h
          · rename_i hconfirms
            cases h
            exact ⟨rfl, rfl, rfl, rfl, .inr ⟨hfree, status, confirmed, rfl, hconfirms, rfl⟩⟩
          · cases h
            exact ⟨rfl, rfl, rfl, rfl, .inl rfl⟩
    · cases h
  · cases h
  · cases h

/-- Starting or joining an operation touches nothing that the lock protects but the operations. -/
theorem ensureDrainOperation_some (id : BackendId) (world : ControlWorld) :
    (world.ensureDrainOperation id).1.published = world.published ∧
      (world.ensureDrainOperation id).1.registry = world.registry ∧
      (world.ensureDrainOperation id).1.store = world.store ∧
      (world.ensureDrainOperation id).1.lifecycle = world.lifecycle := by
  unfold ensureDrainOperation
  split <;> exact ⟨rfl, rfl, rfl, rfl⟩

theorem ensureDrainOperation_replies (id : BackendId) (world : ControlWorld) :
    (world.ensureDrainOperation id).1.replies = world.replies := by
  unfold ensureDrainOperation
  split <;> rfl

theorem resumePersistedDrains_some (world : ControlWorld) :
    world.resumePersistedDrains.published = world.published ∧ world.resumePersistedDrains.registry = world.registry ∧
      world.resumePersistedDrains.store = world.store ∧ world.resumePersistedDrains.lifecycle = world.lifecycle := by
  unfold resumePersistedDrains
  generalize world.drainingIds = ids
  induction ids generalizing world with
  | nil => exact ⟨rfl, rfl, rfl, rfl⟩
  | cons id rest ih =>
      obtain ⟨hpublished, hregistry, hstore, hlifecycle⟩ := ensureDrainOperation_some id world
      have hrest := ih (world.ensureDrainOperation id).1
      rw [hpublished, hregistry, hstore, hlifecycle] at hrest
      exact hrest

theorem resumePersistedDrains_replies (world : ControlWorld) :
    world.resumePersistedDrains.replies = world.replies := by
  unfold resumePersistedDrains
  generalize world.drainingIds = ids
  induction ids generalizing world with
  | nil => rfl
  | cons id rest ih =>
      rw [List.foldl_cons, ih]
      exact ensureDrainOperation_replies id world

theorem boot_replies {config : ValidConfig} {store : BackendStateStore} {now : Nat}
    (h : boot config store now = some world) :
    world.replies = [] := by
  unfold boot at h
  split at h
  · cases h
  · cases h
    exact resumePersistedDrains_replies _

/-- A process that has just started: every configured backend is registered, in its stored mode. -/
theorem boot_some {config : ValidConfig} {store : BackendStateStore} {now : Nat}
    (h : boot config store now = some world) :
    world.published = PublishedRuntime.fromConfig config.val config.property ∧ world.store = store ∧
      world.lifecycle = .free ∧
      (∀ backend ∈ config.val.backends, ∃ slot, world.registry.find? backend.id = some slot) ∧
      ∀ id slot, world.registry.find? id = some slot → slot.registered = true ∧ slot.mode = store.mode id ∧
        slot.leases = ∅ ∧ ∃ backend ∈ config.val.backends, backend.id = id ∧ slot.spec = backend.registrySpec := by
  unfold boot at h
  split at h
  · cases h
  · rename_i registry hregistry
    obtain ⟨hpresent, hslots⟩ := BackendRegistry.registryFromConfig_ok hregistry
    have hfind := BackendRegistry.find?_foldl_reassertMode store.modes (BackendRegistry.registeredIds registry)
      (fun id _ slot hslot => (hslots id slot hslot).1)
    have hresumed := resumePersistedDrains_some (fresh ⟨PublishedRuntime.fromConfig config.val config.property,
      restoreModes store.modes registry⟩ store now)
    rw [Option.some.inj h] at hresumed
    obtain ⟨hpublished, hrestored, hstore, hlifecycle⟩ := hresumed
    refine ⟨hpublished, hstore, hlifecycle, ?_, ?_⟩
    · intro backend hmem
      obtain ⟨slot, hslot⟩ := hpresent backend hmem
      rw [hrestored]
      exact ⟨_, (hfind backend.id).trans (by rw [hslot]; rfl)⟩
    · intro id slot hslot
      rw [hrestored] at hslot
      obtain ⟨before, hbefore, rfl⟩ := Option.map_eq_some_iff.mp ((hfind id).symm.trans hslot)
      obtain ⟨hregistered, hmode, hleases, hbackend⟩ := hslots id before hbefore
      rw [if_pos (BackendRegistry.mem_registeredIds.mpr ⟨before, hbefore, hregistered⟩)]
      cases hstored : store.modes id with
      | none => simp [BackendStateStore.mode, hstored, hregistered, hmode, hleases, hbackend]
      | some mode => simp [BackendStateStore.mode, hstored, hregistered, hleases, hbackend]

theorem command_some {start : ControlWorld → ControlWorld} (h : world.command start = some next) :
    world.lifecycle = .free ∧ next = start world := by
  unfold command at h
  split at h
  · rename_i hfree
    exact ⟨hfree, (Option.some.inj h).symm⟩
  · cases h

theorem restart_some {config : ValidConfig} (h : world.step (.restart config) = some next) :
    world.lifecycle = .free ∧ boot config world.store world.now = some next := by
  simp only [step] at h
  split at h
  · rename_i hfree
    exact ⟨hfree, h⟩
  · cases h

/-- The first step of a command leaves the store alone. -/
theorem drain_store (id : BackendId) (world : ControlWorld) : (world.drain id).store = world.store := by
  unfold drain
  split <;> rfl

theorem drain_published (id : BackendId) (world : ControlWorld) : (world.drain id).published = world.published := by
  unfold drain
  split <;> rfl

theorem activate_store (id : BackendId) (world : ControlWorld) :
    (world.activate id).store = world.store ∧ (world.activate id).registry = world.registry ∧
      (world.activate id).published = world.published := by
  unfold activate
  split
  · exact ⟨rfl, rfl, rfl⟩
  · split
    · exact ⟨rfl, rfl, rfl⟩
    · exact ⟨rfl, rfl, rfl⟩
    · split
      · exact ⟨rfl, rfl, rfl⟩
      · split <;> exact ⟨rfl, rfl, rfl⟩

theorem disable_store (id : BackendId) (force : Bool) (world : ControlWorld) :
    (world.disable id force).store = world.store ∧ (world.disable id force).registry = world.registry ∧
      (world.disable id force).published = world.published := by
  unfold disable
  split
  · exact ⟨rfl, rfl, rfl⟩
  · split
    · exact ⟨rfl, rfl, rfl⟩
    · split <;> exact ⟨rfl, rfl, rfl⟩

theorem reload_store (config : ValidConfig) (world : ControlWorld) :
    (world.reload config).store = world.store ∧ (world.reload config).registry = world.registry ∧
      (world.reload config).published = world.published := by
  unfold reload
  split <;> exact ⟨rfl, rfl, rfl⟩

theorem command_isStart {op : ControlOp} (hop : op.isCommand = true) (h : world.step op = some next) :
    next.lifecycle.isStart = true := by
  cases op with
  | drain id =>
      obtain ⟨_, rfl⟩ := command_some h
      unfold drain
      split
      · rfl
      · dsimp only
        split <;> rfl
  | activate id =>
      obtain ⟨_, rfl⟩ := command_some h
      unfold activate
      split
      · rfl
      · split
        · rfl
        · rfl
        · split
          · rfl
          · split <;> rfl
  | disable id force =>
      obtain ⟨_, rfl⟩ := command_some h
      unfold disable
      split
      · rfl
      · split
        · rfl
        · split <;> rfl
  | reload config =>
      obtain ⟨_, rfl⟩ := command_some h
      unfold reload
      split <;> rfl
  | _ => cases hop

/-- What the holder of the lock does to the store: a fence is removed only by an activation. -/
theorem proceed_store {failure : Option String} (h : world.proceed failure = some next) :
    next.store = world.store ∨ ∃ id mode, next.store = world.store.setMode id mode ∧
      (mode = .active → world.lifecycle = .activateSave id) := by
  unfold proceed at h
  split at h
  · cases h
  · split at h
    · cases h
      exact .inr ⟨_, .draining, rfl, BackendMode.noConfusion⟩
    · cases h
      exact .inl rfl
  · cases h
    exact .inl rfl
  · cases h
    exact .inl (ensureDrainOperation_some _ _).2.2.1
  · rename_i hlife
    split at h
    · cases h
      exact .inr ⟨_, .active, rfl, fun _ => hlife⟩
    · cases h
      exact .inl rfl
  · obtain ⟨slot, _, rfl⟩ := Option.map_eq_some_iff.mp h
    split
    · exact .inl rfl
    · by_cases hsaved : failure = none
      · exact .inr ⟨_, .disabled, if_pos hsaved, BackendMode.noConfusion⟩
      · exact .inl (if_neg hsaved)
  · split at h
    · cases h
      exact .inr ⟨_, .disabled, rfl, BackendMode.noConfusion⟩
    · cases h
      exact .inl rfl
  · cases h
    exact .inl rfl
  · split at h
    · cases h
      exact .inl rfl
    · cases h
      exact .inl rfl
  · cases h
    exact .inl rfl
  · cases h
    exact .inl rfl
  · cases h
    exact .inl (ensureDrainOperation_some _ _).2.2.1
  · cases h
    exact .inl rfl
  · split at h
    · cases h
      exact .inr ⟨_, .disabled, rfl, BackendMode.noConfusion⟩
    · cases h
      exact .inl rfl
  · cases h
    exact .inl rfl
  · cases h
    exact .inl rfl

/-- The lock states no step of its holder leads into. -/
theorem proceed_lifecycle {failure : Option String} (h : world.proceed failure = some next) (id : BackendId) :
    next.lifecycle ≠ .activateSave id ∧ (∀ force inFlight, next.lifecycle = .disableClose id force inFlight →
      next.registry = world.registry) := by
  unfold proceed at h
  split at h
  · cases h
  · split at h <;> cases h <;> exact ⟨Lifecycle.noConfusion, fun _ _ => Lifecycle.noConfusion⟩
  · cases h
    exact ⟨Lifecycle.noConfusion, fun _ _ => Lifecycle.noConfusion⟩
  · cases h
    exact ⟨Lifecycle.noConfusion, fun _ _ => Lifecycle.noConfusion⟩
  · split at h <;> cases h <;> exact ⟨Lifecycle.noConfusion, fun _ _ => Lifecycle.noConfusion⟩
  · obtain ⟨slot, _, rfl⟩ := Option.map_eq_some_iff.mp h
    split <;> exact ⟨Lifecycle.noConfusion, fun _ _ => Lifecycle.noConfusion⟩
  · split at h
    · cases h
      exact ⟨Lifecycle.noConfusion, fun _ _ _ => rfl⟩
    · cases h
      exact ⟨Lifecycle.noConfusion, fun _ _ => Lifecycle.noConfusion⟩
  · cases h
    exact ⟨Lifecycle.noConfusion, fun _ _ => Lifecycle.noConfusion⟩
  · split at h <;> cases h <;> exact ⟨Lifecycle.noConfusion, fun _ _ => Lifecycle.noConfusion⟩
  · cases h
    exact ⟨Lifecycle.noConfusion, fun _ _ => Lifecycle.noConfusion⟩
  · cases h
    exact ⟨Lifecycle.noConfusion, fun _ _ => Lifecycle.noConfusion⟩
  · cases h
    exact ⟨Lifecycle.noConfusion, fun _ _ => Lifecycle.noConfusion⟩
  · cases h
    exact ⟨Lifecycle.noConfusion, fun _ _ => Lifecycle.noConfusion⟩
  · split at h <;> cases h <;> exact ⟨Lifecycle.noConfusion, fun _ _ => Lifecycle.noConfusion⟩
  · cases h
    exact ⟨Lifecycle.noConfusion, fun _ _ => Lifecycle.noConfusion⟩
  · cases h
    exact ⟨Lifecycle.noConfusion, fun _ _ => Lifecycle.noConfusion⟩

/-- A disable that has saved found the backend idle, or was forced, when it took the lock. -/
theorem proceed_disable {failure : Option String} (h : world.proceed failure = some next) {id : BackendId}
    {force : Bool}
    {inFlight : Nat} (hnext : next.lifecycle = .disableSave id force inFlight ∨
      next.lifecycle = .disableClose id force inFlight) :
    world.lifecycle = .disableSave id force inFlight ∧ next.registry = world.registry := by
  unfold proceed at h
  split at h
  · cases h
  · split at h <;> cases h <;> rcases hnext with hnext | hnext <;> cases hnext
  · cases h
    rcases hnext with hnext | hnext <;> cases hnext
  · cases h
    rcases hnext with hnext | hnext <;> cases hnext
  · split at h <;> cases h <;> rcases hnext with hnext | hnext <;> cases hnext
  · obtain ⟨slot, _, rfl⟩ := Option.map_eq_some_iff.mp h
    split at hnext <;> rcases hnext with hnext | hnext <;> cases hnext
  · rename_i hlife
    split at h
    · cases h
      rcases hnext with hnext | hnext
      · cases hnext
      · cases hnext
        exact ⟨hlife, rfl⟩
    · cases h
      rcases hnext with hnext | hnext <;> cases hnext
  · cases h
    rcases hnext with hnext | hnext <;> cases hnext
  · split at h <;> cases h <;> rcases hnext with hnext | hnext <;> cases hnext
  · cases h
    rcases hnext with hnext | hnext <;> cases hnext
  · cases h
    rcases hnext with hnext | hnext <;> cases hnext
  · cases h
    rcases hnext with hnext | hnext <;> cases hnext
  · cases h
    rcases hnext with hnext | hnext <;> cases hnext
  · split at h <;> cases h <;> rcases hnext with hnext | hnext <;> cases hnext
  · cases h
    rcases hnext with hnext | hnext <;> cases hnext
  · cases h
    rcases hnext with hnext | hnext <;> cases hnext

end ControlWorld

end MistralrsProxy
