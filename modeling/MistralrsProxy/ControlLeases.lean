import MistralrsProxy.ControlCoherence

/-! The leases that requests hold. The holder of the lifecycle lock and the drain tasks leave the requests and
the lease accounting of every slot alone, so that each held lease stays accounted in the slot of its backend,
under a key of its own. -/

open Transition Keyed

namespace MistralrsProxy

namespace SlotState

/-- The same leases are outstanding and the same serial is next. -/
structure SameLeases (old new : SlotState) : Prop where
  leases : new.leases = old.leases
  nextLeaseSerial : new.nextLeaseSerial = old.nextLeaseSerial

theorem switchMode_sameLeases (slot : SlotState) (mode : BackendMode) : slot.SameLeases (slot.switchMode mode) :=
  ⟨switchMode_leases slot mode, switchMode_nextLeaseSerial slot mode⟩

theorem activate_sameLeases {slot opened : SlotState} (h : slot.activate = .ok opened) :
    opened.spec = slot.spec ∧ slot.SameLeases opened := by
  simp only [activate, setMode] at h
  split at h
  · cases h
  · cases h
    exact ⟨switchMode_spec slot .active, switchMode_sameLeases slot .active⟩

theorem restore_sameLeases (slot : SlotState) (mode : BackendMode) : slot.SameLeases (slot.restore mode) := by
  cases mode with
  | active =>
      simp only [restore]
      split
      · rename_i opened hopened
        exact (activate_sameLeases hopened).2
      · exact ⟨rfl, rfl⟩
  | draining => exact switchMode_sameLeases slot .draining
  | disabled => exact switchMode_sameLeases slot .disabled

end SlotState

namespace BackendRegistry

variable {registry : BackendRegistry} {id : BackendId} {slot : SlotState}

/-- Every slot is still there with its leases; a slot that is new has none. -/
structure SameLeases (old new : BackendRegistry) : Prop where
  kept : ∀ id slot, old.find? id = some slot → ∃ after, new.find? id = some after ∧ slot.SameLeases after
  idle : ∀ id slot, new.find? id = some slot → old.find? id = none → slot.leases = ∅

theorem SameLeases.refl (registry : BackendRegistry) : SameLeases registry registry := by
  refine ⟨fun id slot hslot => ⟨slot, hslot, rfl, rfl⟩, ?_⟩
  intro id slot hslot hnone
  rw [hslot] at hnone
  cases hnone

theorem SameLeases.of_eq {old new : BackendRegistry} (h : new = old) : SameLeases old new := by
  rw [h]
  exact SameLeases.refl old

theorem SameLeases.of_update {f : SlotState → SlotState} (hspec : ∀ slot, (f slot).spec = slot.spec)
    (hleases : ∀ slot : SlotState, slot.SameLeases (f slot)) (registry : BackendRegistry) (id : BackendId) :
    SameLeases registry (registry.update id f) := by
  have hfind := find?_modify hspec registry id
  refine ⟨?_, ?_⟩
  · intro other slot hslot
    by_cases hother : other = id
    · subst hother
      exact ⟨f slot, by rw [hfind, if_pos rfl, hslot]; rfl, hleases slot⟩
    · exact ⟨slot, by rw [hfind, if_neg hother, hslot], rfl, rfl⟩
  · intro other slot hslot hnone
    rw [hfind] at hslot
    split at hslot
    · rename_i hother
      rw [← hother, hnone] at hslot
      cases hslot
    · rw [hnone] at hslot
      cases hslot

theorem SameLeases.of_replace {new : SlotState} (hslot : registry.find? id = some slot) (hspec : new.spec = slot.spec)
    (hleases : slot.SameLeases new) : SameLeases registry (registry.put new) := by
  have hfind := find?_replace hslot (hspec ▸ slot_id hslot)
  refine ⟨?_, ?_⟩
  · intro other found hfound
    by_cases hother : other = id
    · subst hother
      rw [hslot, Option.some.injEq] at hfound
      subst hfound
      exact ⟨new, by rw [hfind, if_pos rfl], hleases⟩
    · exact ⟨found, by rw [hfind, if_neg hother, hfound], rfl, rfl⟩
  · intro other found hfound hnone
    rw [hfind] at hfound
    split at hfound
    · rename_i hother
      rw [hother, hslot] at hnone
      cases hnone
    · rw [hnone] at hfound
      cases hfound

theorem SameLeases.of_reconcile {specs : List BackendSpec} {next : BackendRegistry} {report : ReconcileReport}
    (h : reconcile specs registry = .ok (next, report)) : SameLeases registry next := by
  obtain ⟨desired, _, rfl, _⟩ := reconcile_ok h
  refine ⟨?_, ?_⟩
  · intro id slot hslot
    refine ⟨reconcileSlot desired slot, by rw [find?_reconciled, hslot], ?_⟩
    unfold reconcileSlot
    split
    · exact ⟨SlotState.reconcilePresent_leases _ _, SlotState.reconcilePresent_nextLeaseSerial _ _⟩
    · exact ⟨SlotState.reconcileAbsent_leases _, SlotState.reconcileAbsent_nextLeaseSerial _⟩
  · intro id slot hslot hnone
    rw [find?_reconciled, hnone] at hslot
    obtain ⟨spec, _, rfl⟩ := Option.map_eq_some_iff.mp hslot
    rfl

end BackendRegistry

/-- What commands, the holder of the lifecycle lock and the drain tasks leave alone. -/
structure Locked (world next : ControlWorld) : Prop where
  now : next.now = world.now
  selector : next.selector = world.selector
  requests : next.requests = world.requests
  scrapes : next.scrapes = world.scrapes
  inner : next.routing.inner = world.routing.inner ∨ next.routing.inner = world.routing.synchronised
  leases : BackendRegistry.SameLeases world.registry next.registry

/-- The operations of the background workers, and the passing of time. -/
def ControlOp.isProbe : ControlOp → Bool
  | .readiness _ _ _ _ | .beginScrape _ _ | .endScrape _ _ | .elapse _ => true
  | _ => false

namespace ControlWorld

variable {world next : ControlWorld}

/-- Probes and the clock touch neither the registry nor the requests. -/
theorem step_probe {op : ControlOp} (hop : op.isProbe = true) (h : world.step op = some next) :
    next.registry = world.registry ∧ next.requests = world.requests ∧ next.selector = world.selector := by
  cases op with
  | readiness id generation config failure =>
      cases failure with
      | none =>
          cases h
          exact ⟨rfl, rfl, rfl⟩
      | some failure =>
          cases h
          exact ⟨rfl, rfl, rfl⟩
  | beginScrape id generation =>
      simp only [step] at h
      split at h
      · cases h
      · cases h
        exact ⟨rfl, rfl, rfl⟩
  | endScrape id result =>
      obtain ⟨_, _, rfl⟩ := Option.map_eq_some_iff.mp h
      exact ⟨rfl, rfl, rfl⟩
  | elapse time =>
      cases h
      exact ⟨rfl, rfl, rfl⟩
  | _ => cases hop

theorem locked_unchanged {lifecycle : Lifecycle} {store : BackendStateStore} {operations : List DrainOperation}
    {replies : List ControlReply} :
    Locked world { world with
      lifecycle := lifecycle, store := store, operations := operations, replies := replies } :=
  ⟨rfl, rfl, rfl, rfl, .inl rfl, BackendRegistry.SameLeases.refl _⟩

theorem locked_synchronise {lifecycle : Lifecycle} {operations : List DrainOperation} {replies : List ControlReply} :
    Locked world { world.synchronise with lifecycle := lifecycle, operations := operations, replies := replies } :=
  ⟨rfl, rfl, rfl, rfl, .inr rfl, BackendRegistry.SameLeases.refl _⟩

theorem locked_registry {registry : BackendRegistry} {lifecycle : Lifecycle} {replies : List ControlReply}
    (h : BackendRegistry.SameLeases world.registry registry) :
    Locked world { world.setRegistry registry with lifecycle := lifecycle, replies := replies } :=
  ⟨rfl, rfl, rfl, rfl, .inl rfl, h⟩

theorem locked_ensureDrainOperation (id : BackendId) {lifecycle : Lifecycle} {replies : List ControlReply} :
    Locked world { (world.ensureDrainOperation id).1 with lifecycle := lifecycle, replies := replies } := by
  unfold ensureDrainOperation
  split
  · exact locked_unchanged
  · exact locked_synchronise

theorem locked_resumePersistedDrains (world : ControlWorld) :
    world.resumePersistedDrains.requests = world.requests ∧ world.resumePersistedDrains.selector = world.selector ∧
      world.resumePersistedDrains.scrapes = world.scrapes := by
  unfold resumePersistedDrains
  generalize world.drainingIds = ids
  induction ids generalizing world with
  | nil => exact ⟨rfl, rfl, rfl⟩
  | cons id rest ih =>
      have hlocked : Locked world (world.ensureDrainOperation id).1 := locked_ensureDrainOperation id
      obtain ⟨hrequests, hselector, hscrapes⟩ := ih (world.ensureDrainOperation id).1
      exact ⟨hrequests.trans hlocked.requests, hselector.trans hlocked.selector, hscrapes.trans hlocked.scrapes⟩

/-- A process that has just started serves nothing. -/
theorem boot_requests {config : ValidConfig} {store : BackendStateStore} {now : Nat}
    (h : boot config store now = some world) :
    (∀ request, world.requests request = none) ∧ world.selector = .idle := by
  unfold boot at h
  split at h
  · cases h
  · cases h
    rw [(locked_resumePersistedDrains _).1, (locked_resumePersistedDrains _).2.1]
    exact ⟨fun _ => rfl, rfl⟩

theorem locked_drain (id : BackendId) : Locked world (world.drain id) := by
  unfold drain
  split
  · exact locked_unchanged
  · rename_i slot hget
    exact locked_registry (BackendRegistry.SameLeases.of_replace (BackendRegistry.get_eq_some_iff.mp hget).1
      (SlotState.switchMode_spec slot .draining) (SlotState.switchMode_sameLeases slot .draining))

theorem locked_activate (id : BackendId) : Locked world (world.activate id) := by
  unfold activate
  split
  · exact locked_synchronise
  · split
    · exact locked_synchronise
    · exact locked_synchronise
    · split
      · exact locked_synchronise
      · split <;> exact locked_synchronise

theorem locked_disable (id : BackendId) (force : Bool) : Locked world (world.disable id force) := by
  unfold disable
  split
  · exact locked_synchronise
  · split
    · exact locked_synchronise
    · split <;> exact locked_synchronise

theorem locked_reload (config : ValidConfig) : Locked world (world.reload config) := by
  unfold reload
  split <;> exact locked_unchanged

theorem locked_drive {index : Nat} (h : world.driveStep index = some next) : Locked world next := by
  simp only [driveStep, Option.bind_eq_some_iff] at h
  obtain ⟨operation, _, h⟩ := h
  split at h
  · cases h
    exact locked_synchronise
  · cases h
    exact locked_unchanged
  · cases h
    exact locked_unchanged
  · split at h
    · cases h
      split
      · exact locked_synchronise
      · split <;> exact locked_synchronise
    · cases h
  · cases h
  · cases h

theorem locked_proceed {failure : Option String} (h : world.proceed failure = some next) : Locked world next := by
  have hdisable : ∀ id, BackendRegistry.SameLeases world.registry (world.registry.update id SlotState.disable) :=
    BackendRegistry.SameLeases.of_update (fun slot => SlotState.switchMode_spec slot .disabled)
      (fun slot => SlotState.switchMode_sameLeases slot .disabled) world.registry
  have hrestore : ∀ mode id,
      BackendRegistry.SameLeases world.registry (world.registry.update id (SlotState.restore mode)) :=
    fun mode => BackendRegistry.SameLeases.of_update (fun slot => SlotState.restore_spec slot mode)
      (fun slot => SlotState.restore_sameLeases slot mode) world.registry
  unfold proceed at h
  split at h
  · cases h
  · split at h <;> cases h <;> exact locked_unchanged
  · cases h
    exact locked_registry (hrestore _ _)
  · cases h
    exact locked_ensureDrainOperation _
  · split at h <;> cases h <;> exact locked_unchanged
  · obtain ⟨slot, hslot, rfl⟩ := Option.map_eq_some_iff.mp h
    split
    · rename_i opened hopened
      obtain ⟨hspec, hleases⟩ := SlotState.activate_sameLeases hopened
      exact locked_registry (BackendRegistry.SameLeases.of_replace hslot hspec hleases)
    · exact locked_unchanged
  · split at h <;> cases h <;> exact locked_unchanged
  · cases h
    exact locked_registry (hdisable _)
  · split at h
    · cases h
      exact locked_unchanged
    · rename_i registry report hreconcile
      cases h
      exact locked_registry (BackendRegistry.SameLeases.of_reconcile hreconcile)
  · cases h
    exact locked_registry (hrestore _ _)
  · cases h
    exact ⟨rfl, rfl, rfl, rfl, .inl rfl, BackendRegistry.SameLeases.refl _⟩
  · cases h
    exact locked_ensureDrainOperation _
  · cases h
    exact locked_unchanged
  · split at h <;> cases h <;> exact locked_unchanged
  · cases h
    exact locked_registry (hdisable _)
  · cases h
    exact locked_synchronise

/-- The published configuration changes only at the end of a reload. -/
theorem proceed_published {failure : Option String} (h : world.proceed failure = some next) :
    next.published = world.published ∨
      ∃ config report, world.lifecycle = .reloadRestore config report [] ∧
        next = { world with
          routing := { world.routing with
            runtime := { world.routing.runtime with published := world.published.publish config.val config.property } }
          lifecycle := .reloadResume ⟨world.published.revision + 1, report⟩ world.drainingIds } := by
  unfold proceed at h
  split at h
  · cases h
  · split at h <;> cases h <;> exact .inl rfl
  · cases h
    exact .inl rfl
  · cases h
    exact .inl (ensureDrainOperation_some _ _).1
  · split at h <;> cases h <;> exact .inl rfl
  · obtain ⟨slot, _, rfl⟩ := Option.map_eq_some_iff.mp h
    split <;> exact .inl rfl
  · split at h <;> cases h <;> exact .inl rfl
  · cases h
    exact .inl rfl
  · split at h <;> cases h <;> exact .inl rfl
  · cases h
    exact .inl rfl
  · rename_i config report hlife
    cases h
    exact .inr ⟨config, report, hlife, rfl⟩
  · cases h
    exact .inl (ensureDrainOperation_some _ _).1
  · cases h
    exact .inl rfl
  · split at h <;> cases h <;> exact .inl rfl
  · cases h
    exact .inl rfl
  · cases h
    exact .inl rfl

/-- Every step is one of the background, one of the lock or the drain tasks, or a restart. -/
theorem step_locked {op : ControlOp} (hbackground : op.isBackground = false) (hrestart : ∀ config, op ≠ .restart config)
    (h : world.step op = some next) : Locked world next := by
  cases op with
  | select | request | readiness | beginScrape | endScrape | elapse => cases hbackground
  | drain id =>
      obtain ⟨_, rfl⟩ := command_some h
      exact locked_drain id
  | activate id =>
      obtain ⟨_, rfl⟩ := command_some h
      exact locked_activate id
  | disable id force =>
      obtain ⟨_, rfl⟩ := command_some h
      exact locked_disable id force
  | reload config =>
      obtain ⟨_, rfl⟩ := command_some h
      exact locked_reload config
  | proceed failure => exact locked_proceed h
  | drive index => exact locked_drive h
  | restart config => exact absurd rfl (hrestart config)

theorem step_published {op : ControlOp} (hrestart : ∀ config, op ≠ .restart config) (h : world.step op = some next) :
    next.published = world.published ∨
      ∃ failure config report, op = .proceed failure ∧ world.lifecycle = .reloadRestore config report [] ∧
        next.published = world.published.publish config.val config.property ∧
        next.routing.inner = world.routing.inner := by
  cases op with
  | select | request | readiness | beginScrape | endScrape | elapse => exact .inl (step_background rfl h).published
  | drain id =>
      obtain ⟨_, rfl⟩ := command_some h
      exact .inl (drain_published id world)
  | activate id =>
      obtain ⟨_, rfl⟩ := command_some h
      exact .inl (activate_store id world).2.2
  | disable id force =>
      obtain ⟨_, rfl⟩ := command_some h
      exact .inl (disable_store id force world).2.2
  | reload config =>
      obtain ⟨_, rfl⟩ := command_some h
      exact .inl (reload_store config world).2.2
  | proceed failure =>
      rcases proceed_published h with hpublished | ⟨config, report, hlife, rfl⟩
      · exact .inl hpublished
      · exact .inr ⟨failure, config, report, rfl, hlife, rfl, rfl⟩
  | drive index =>
      obtain ⟨_, _, hpublished, _⟩ := driveStep_some h
      exact .inl hpublished
  | restart config => exact absurd rfl (hrestart config)

theorem requestStep_selector {request : Nat} {event : RequestEvent} (h : world.requestStep request event = some next) :
    next.selector = world.selector := by
  have hreleased : ∀ {lease : BackendLease} {routed : Option RoutedRequest},
      (world.releaseLease lease).map (·.setRequest request routed) = some next → next.selector = world.selector := by
    intro lease routed h
    obtain ⟨released, hreleased, rfl⟩ := Option.map_eq_some_iff.mp h
    obtain ⟨_, _, _, _, rfl⟩ := releaseLease_some hreleased
    rfl
  unfold requestStep at h
  split at h
  · cases h
    rfl
  · cases h
    rfl
  · exact hreleased h
  · cases h
    rfl
  · exact hreleased h
  · cases h
    rfl
  · cases h

/-- What happens to a request keeps its lease or releases it. -/
theorem requestStep_some {request : Nat} {event : RequestEvent} (h : world.requestStep request event = some next) :
    ∃ routed after, world.requests request = some routed ∧
      next.requests = Function.update world.requests request after ∧
      (next.registry = world.registry ∧ after.bind RoutedRequest.lease = routed.lease ∨
        after.bind RoutedRequest.lease = none ∧ ∃ lease slot released, routed.lease = some lease ∧
          world.registry.find? lease.spec.id = some slot ∧ slot.release lease.key = some released ∧
          next.registry = world.registry.put released) := by
  unfold requestStep at h
  split at h
  · rename_i hrouted
    cases h
    exact ⟨_, _, hrouted, rfl, .inl ⟨rfl, rfl⟩⟩
  · rename_i hrouted
    cases h
    exact ⟨_, _, hrouted, rfl, .inl ⟨rfl, rfl⟩⟩
  · rename_i lease permit hrouted
    obtain ⟨world', hreleased, rfl⟩ := Option.map_eq_some_iff.mp h
    obtain ⟨slot, released, hslot, hrelease, rfl⟩ := releaseLease_some hreleased
    exact ⟨_, _, hrouted, rfl, .inr ⟨rfl, lease, slot, released, rfl, hslot, hrelease, rfl⟩⟩
  · rename_i hrouted
    cases h
    exact ⟨_, _, hrouted, rfl, .inl ⟨rfl, rfl⟩⟩
  · rename_i lease observer hrouted
    obtain ⟨world', hreleased, rfl⟩ := Option.map_eq_some_iff.mp h
    obtain ⟨slot, released, hslot, hrelease, rfl⟩ := releaseLease_some hreleased
    exact ⟨_, _, hrouted, rfl, .inr ⟨rfl, lease, slot, released, rfl, hslot, hrelease, rfl⟩⟩
  · rename_i hrouted
    cases h
    exact ⟨_, _, hrouted, rfl, .inl ⟨rfl, rfl⟩⟩
  · cases h

/-- The request holds the lease. -/
def Holds (world : ControlWorld) (request : Nat) (lease : BackendLease) : Prop :=
  (world.requests request).bind RoutedRequest.lease = some lease

end ControlWorld

/-- Every held lease is accounted in its slot, under a key no other request holds. -/
structure Leased (world : ControlWorld) : Prop where
  accounted : ∀ request lease, world.Holds request lease →
    ∃ slot, world.registry.find? lease.spec.id = some slot ∧ lease.key ∈ slot.leases
  own : ∀ request other lease lease', world.Holds request lease → world.Holds other lease' →
    lease.spec.id = lease'.spec.id → lease.key = lease'.key → request = other
  fresh : ∀ id slot, world.registry.find? id = some slot → ∀ key ∈ slot.leases, key.serial < slot.nextLeaseSerial

namespace Leased

variable {world next : ControlWorld}

/-- A slot without leases is one no request holds a lease of. -/
theorem unheld (h : Leased world) {id : BackendId} {slot : SlotState} (hslot : world.registry.find? id = some slot)
    (hidle : slot.leases = ∅) {request : Nat} {lease : BackendLease} (hholds : world.Holds request lease) :
    lease.spec.id ≠ id := by
  rintro rfl
  obtain ⟨found, hfound, hmem⟩ := h.accounted request lease hholds
  rw [hslot, Option.some.injEq] at hfound
  rw [← hfound, hidle] at hmem
  exact absurd hmem (Finset.notMem_empty _)

/-- The requests are left alone, and so is the lease accounting. -/
theorem frame (h : Leased world) (hrequests : next.requests = world.requests)
    (hsame : BackendRegistry.SameLeases world.registry next.registry) : Leased next := by
  have hholds : ∀ {request lease}, next.Holds request lease → world.Holds request lease := by
    intro request lease hholds
    rw [ControlWorld.Holds, hrequests] at hholds
    exact hholds
  refine ⟨?_, ?_, ?_⟩
  · intro request lease hlease
    obtain ⟨slot, hslot, hmem⟩ := h.accounted request lease (hholds hlease)
    obtain ⟨after, hafter, hkept⟩ := hsame.kept _ slot hslot
    exact ⟨after, hafter, hkept.leases ▸ hmem⟩
  · intro request other lease lease' hlease hlease'
    exact h.own request other lease lease' (hholds hlease) (hholds hlease')
  · intro id slot hslot key hkey
    cases hbefore : world.registry.find? id with
    | none =>
        rw [hsame.idle id slot hslot hbefore] at hkey
        exact absurd hkey (Finset.notMem_empty _)
    | some before =>
        obtain ⟨after, hafter, hkept⟩ := hsame.kept id before hbefore
        obtain rfl : slot = after := Option.some.inj (hslot.symm.trans hafter)
        rw [hkept.leases] at hkey
        rw [hkept.nextLeaseSerial]
        exact h.fresh id before hbefore key hkey

theorem select (h : Leased world) {request : Nat} (hstep : world.selectStep request = some next) : Leased next := by
  rcases ControlWorld.selectStep_some hstep with
    ⟨hregistry, hrequests⟩ | ⟨_, candidate, permit, _, slot, after, lease, _, hnone, hslot, hacquire, hnext⟩
  · exact h.frame hrequests (BackendRegistry.SameLeases.of_eq hregistry)
  · obtain ⟨_, _, rfl, hafter⟩ := SlotState.tryAcquire_ok hacquire
    have hid := BackendRegistry.slot_id hslot
    have hleases : after.leases = insert ⟨world.now, slot.nextLeaseSerial⟩ slot.leases := by rw [hafter]; rfl
    have hserial : after.nextLeaseSerial = slot.nextLeaseSerial + 1 := by rw [hafter]; rfl
    have hfind : ∀ other, next.registry.find? other =
        if other = candidate.id then some after else world.registry.find? other := by
      rw [hnext]
      exact BackendRegistry.find?_replace hslot (by rw [hafter]; exact hid)
    have hrequests : next.requests = Function.update world.requests request
        (some (.selected ⟨⟨world.now, slot.nextLeaseSerial⟩, slot.spec⟩ permit)) := by rw [hnext]
    have hold : ∀ {other lease'}, other ≠ request → next.Holds other lease' → world.Holds other lease' := by
      intro other lease' hother hholds
      rwa [ControlWorld.Holds, hrequests, Function.update_of_ne hother] at hholds
    have hnew : ∀ {lease'}, next.Holds request lease' → lease' = ⟨⟨world.now, slot.nextLeaseSerial⟩, slot.spec⟩ := by
      intro lease' hholds
      rw [ControlWorld.Holds, hrequests, Function.update_self] at hholds
      exact (Option.some.inj hholds).symm
    -- the new key carries a serial that no lease of the slot has had
    have hfresh : ∀ {other lease'}, world.Holds other lease' → lease'.spec.id = candidate.id →
        lease'.key ≠ ⟨world.now, slot.nextLeaseSerial⟩ := by
      intro other lease' hholds hsame hkey
      obtain ⟨found, hfound, hmem⟩ := h.accounted other lease' hholds
      rw [hsame, hslot, Option.some.injEq] at hfound
      subst hfound
      have hlt := h.fresh candidate.id slot hslot _ hmem
      rw [hkey] at hlt
      exact absurd hlt (lt_irrefl _)
    refine ⟨?_, ?_, ?_⟩
    · intro other lease' hholds
      by_cases hother : other = request
      · subst hother
        rw [hnew hholds]
        refine ⟨after, (hfind slot.spec.id).trans (if_pos hid), ?_⟩
        rw [hleases]
        exact Finset.mem_insert_self _ _
      · obtain ⟨found, hfound, hmem⟩ := h.accounted other lease' (hold hother hholds)
        by_cases hsame : lease'.spec.id = candidate.id
        · rw [hsame, hslot, Option.some.injEq] at hfound
          subst hfound
          refine ⟨after, (hfind lease'.spec.id).trans (if_pos hsame), ?_⟩
          rw [hleases]
          exact Finset.mem_insert_of_mem hmem
        · exact ⟨found, ((hfind lease'.spec.id).trans (if_neg hsame)).trans hfound, hmem⟩
    · intro first second lease₁ lease₂ hfirst hsecond hids hkeys
      by_cases hone : first = request
      · by_cases htwo : second = request
        · rw [hone, htwo]
        · subst hone
          rw [hnew hfirst] at hids hkeys
          exact absurd hkeys.symm (hfresh (hold htwo hsecond) (hids.symm.trans hid))
      · by_cases htwo : second = request
        · subst htwo
          rw [hnew hsecond] at hids hkeys
          exact absurd hkeys (hfresh (hold hone hfirst) (hids.trans hid))
        · exact h.own first second lease₁ lease₂ (hold hone hfirst) (hold htwo hsecond) hids hkeys
    · intro id found hfound key hkey
      rw [hfind] at hfound
      split at hfound
      · obtain rfl := Option.some.inj hfound
        rw [hserial]
        rw [hleases] at hkey
        rcases Finset.mem_insert.mp hkey with rfl | hkey
        · exact Nat.lt_succ_self _
        · exact (h.fresh candidate.id slot hslot key hkey).trans (Nat.lt_succ_self _)
      · exact h.fresh id found hfound key hkey

theorem request (h : Leased world) {request : Nat} {event : RequestEvent}
    (hstep : world.requestStep request event = some next) : Leased next := by
  obtain ⟨routed, after, hrouted, hrequests, hcases⟩ := ControlWorld.requestStep_some hstep
  have hold : ∀ {other lease}, other ≠ request → next.Holds other lease → world.Holds other lease := by
    intro other lease hother hholds
    rwa [ControlWorld.Holds, hrequests, Function.update_of_ne hother] at hholds
  have hself : ∀ {lease}, next.Holds request lease → after.bind RoutedRequest.lease = some lease := by
    intro lease hholds
    rwa [ControlWorld.Holds, hrequests, Function.update_self] at hholds
  rcases hcases with ⟨hregistry, hkept⟩ | ⟨hdropped, lease, slot, released, hlease, hslot, hrelease, hregistry⟩
  · have hall : ∀ {other lease}, next.Holds other lease → world.Holds other lease := by
      intro other lease hholds
      by_cases hother : other = request
      · subst hother
        rw [ControlWorld.Holds, hrouted, Option.bind_some, ← hkept]
        exact hself hholds
      · exact hold hother hholds
    refine ⟨?_, ?_, ?_⟩
    · intro other lease hholds
      rw [hregistry]
      exact h.accounted other lease (hall hholds)
    · intro first second lease₁ lease₂ hfirst hsecond
      exact h.own first second lease₁ lease₂ (hall hfirst) (hall hsecond)
    · rw [hregistry]
      exact h.fresh
  · have hother : ∀ {other lease'}, next.Holds other lease' → other ≠ request := by
      rintro other lease' hholds rfl
      rw [hself hholds] at hdropped
      cases hdropped
    obtain ⟨_, hreleased⟩ := SlotState.release_some hrelease
    have hleases : released.leases = slot.leases.erase lease.key := by rw [hreleased]; rfl
    have hserial : released.nextLeaseSerial = slot.nextLeaseSerial := by rw [hreleased]; rfl
    have hfind : ∀ other, next.registry.find? other =
        if other = lease.spec.id then some released else world.registry.find? other := by
      rw [hregistry]
      have hid := BackendRegistry.slot_id hslot
      exact BackendRegistry.find?_replace hslot (by rw [hreleased]; exact hid)
    have hholder : world.Holds request lease := by
      rw [ControlWorld.Holds, hrouted]
      exact hlease
    refine ⟨?_, ?_, ?_⟩
    · intro other lease' hholds
      have hbefore := hold (hother hholds) hholds
      obtain ⟨found, hfound, hmem⟩ := h.accounted other lease' hbefore
      by_cases hsame : lease'.spec.id = lease.spec.id
      · rw [hsame, hslot, Option.some.injEq] at hfound
        subst hfound
        refine ⟨released, (hfind lease'.spec.id).trans (if_pos hsame), ?_⟩
        rw [hleases]
        refine Finset.mem_erase.mpr ⟨?_, hmem⟩
        intro hkey
        exact hother hholds (h.own other request lease' lease hbefore hholder hsame hkey)
      · exact ⟨found, ((hfind lease'.spec.id).trans (if_neg hsame)).trans hfound, hmem⟩
    · intro first second lease₁ lease₂ hfirst hsecond
      exact h.own first second lease₁ lease₂ (hold (hother hfirst) hfirst) (hold (hother hsecond) hsecond)
    · intro id found hfound key hkey
      rw [hfind] at hfound
      split at hfound
      · obtain rfl := Option.some.inj hfound
        rw [hserial]
        rw [hleases] at hkey
        exact h.fresh _ slot hslot key (Finset.mem_of_mem_erase hkey)
      · exact h.fresh id found hfound key hkey

theorem boot {config : ValidConfig} {store : BackendStateStore} {now : Nat}
    (h : ControlWorld.boot config store now = some world) : Leased world := by
  have hnone := (ControlWorld.boot_requests h).1
  obtain ⟨_, _, _, _, hslots⟩ := ControlWorld.boot_some h
  have hunheld : ∀ {request lease}, ¬world.Holds request lease := by
    intro request lease hholds
    rw [ControlWorld.Holds, hnone request] at hholds
    cases hholds
  refine ⟨fun _ _ hholds => (hunheld hholds).elim, fun _ _ _ _ hholds => (hunheld hholds).elim, ?_⟩
  intro id slot hslot key hkey
  rw [(hslots id slot hslot).2.2.1] at hkey
  exact absurd hkey (Finset.notMem_empty _)

theorem step (h : Leased world) {op : ControlOp} (hstep : world.step op = some next) : Leased next := by
  cases op with
  | select request => exact h.select hstep
  | request request event => exact h.request hstep
  | readiness | beginScrape | endScrape | elapse =>
      obtain ⟨hregistry, hrequests, _⟩ := ControlWorld.step_probe rfl hstep
      exact h.frame hrequests (BackendRegistry.SameLeases.of_eq hregistry)
  | restart config => exact boot (ControlWorld.restart_some hstep).2
  | drain | activate | disable | reload | proceed | drive =>
      have hlocked := ControlWorld.step_locked rfl (fun _ => ControlOp.noConfusion) hstep
      exact h.frame hlocked.requests hlocked.leases

theorem of_run {guard : ControlWorld → ControlOp → Prop} {record : List ControlStep}
    (hrun : Run controlSystem guard record world) : Leased world := by
  refine hrun.invariant ?_ ?_
  · rintro world ⟨config, store, now, hboot⟩
    exact boot hboot
  · intro world op next h _ hnext
    exact h.step hnext

end Leased

end MistralrsProxy
