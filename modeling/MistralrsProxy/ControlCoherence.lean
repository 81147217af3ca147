import MistralrsProxy.ControlSteps

/-! The invariant of the control plane: what the lifecycle lock protects. Registered slots are those of the
published configuration, or of the one a reload is putting in place; the gate of each is where the store
says, unless the holder of the lock is about to bring the two together; retired slots are disabled in both. -/

open Transition Keyed

namespace MistralrsProxy

/-- The endpoint of a slot or a lease is a spelling of the URL. -/
def Denotes (endpoint : String) (url : Uri) : Prop := ∃ uri : Uri, endpoint = uri.render ∧ uri.same url = true

namespace Lifecycle

/-- The configuration a reload has checked and not published yet. -/
def checked : Lifecycle → Option ValidConfig
  | .reloadReconcile config | .reloadRestore config _ _ => some config
  | _ => none

/-- Where the gate of a registered backend is, given its stored mode. -/
def Gate (store : BackendStateStore) (id : BackendId) (mode : BackendMode) : Lifecycle → Prop
  | .drainSave target before | .drainUndo target before _ =>
      if id = target then mode = .draining ∧ store.mode id = before ∧ before ≠ .draining
      else mode = store.mode id
  | .activateOpen target => if id = target then store.mode id = .active else mode = store.mode id
  | .disableClose target _ _ => if id = target then store.mode id = .disabled else mode = store.mode id
  | .commitClose _ target _ => if id = target then store.mode id = .disabled else mode = store.mode id
  | .reloadRestore _ _ pending => mode = store.mode id ∨ (mode = .disabled ∧ ∃ mode, (id, mode) ∈ pending)
  | _ => mode = store.mode id

/-- The gate can be away from the stored mode for this backend at most. -/
def Concerns (id : BackendId) : Lifecycle → Prop
  | .drainSave target _ | .drainUndo target _ _ | .activateOpen target | .disableClose target _ _
  | .commitClose _ target _ => target = id
  | .reloadRestore _ _ _ => False
  | _ => True

theorem Concerns.gate_iff {lifecycle : Lifecycle} {id other : BackendId} {store : BackendStateStore}
    {mode : BackendMode} (h : lifecycle.Concerns id) (hother : other ≠ id) :
    lifecycle.Gate store other mode ↔ mode = store.mode other := by
  cases lifecycle with
  | drainSave target | drainUndo target | activateOpen target | disableClose target | commitClose _ target =>
      obtain rfl : target = id := h
      simp only [Gate, if_neg hother]
  | reloadRestore => exact h.elim
  | free | drainEnsure | activateSave | disableSave | reloadReconcile | reloadResume | commitSave | commitSend =>
      exact Iff.rfl

/-- What the holder of the lock relies on. -/
def Owns (store : BackendStateStore) (registry : BackendRegistry) : Lifecycle → Prop
  | .drainSave id _ | .drainUndo id _ _ | .drainEnsure id _ | .commitSave _ id _ _ | .commitClose _ id _ =>
      ∃ slot, registry.find? id = some slot ∧ slot.registered = true ∧ slot.mode = .draining
  | .activateSave id | .activateOpen id | .commitSend _ id _ =>
      ∃ slot, registry.find? id = some slot ∧ slot.registered = true ∧ slot.mode = .disabled
  | .disableSave id _ _ | .disableClose id _ _ =>
      ∃ slot, registry.find? id = some slot ∧ slot.registered = true
  | .reloadRestore _ _ pending => ∀ entry ∈ pending, entry.2 = store.mode entry.1 ∧
      ∃ slot, registry.find? entry.1 = some slot ∧ slot.registered = true
  | _ => True

end Lifecycle

/-- The configuration whose backends are the registered ones. -/
def ControlWorld.registeredConfig (world : ControlWorld) : RuntimeConfig :=
  match world.lifecycle with
  | .reloadRestore config _ _ => config.val
  | _ => world.published.config

theorem ControlWorld.registeredConfig_of_concerns {world : ControlWorld} {id : BackendId}
    (h : world.lifecycle.Concerns id) : world.registeredConfig = world.published.config := by
  unfold ControlWorld.registeredConfig
  split
  · rename_i hlifecycle
    rw [hlifecycle] at h
    exact h.elim
  · rfl

structure Coherent (world : ControlWorld) : Prop where
  present : ∀ backend ∈ world.registeredConfig.backends,
    ∃ slot, world.registry.find? backend.id = some slot ∧ slot.registered = true
  registered : ∀ id slot, world.registry.find? id = some slot → slot.registered = true →
    (∃ backend ∈ world.registeredConfig.backends, backend.id = id ∧ Denotes slot.spec.endpoint backend.url) ∧
      world.lifecycle.Gate world.store id slot.mode
  retired : ∀ id slot, world.registry.find? id = some slot → slot.registered = false →
    slot.mode = .disabled ∧ world.store.mode id = .disabled
  owns : world.lifecycle.Owns world.store world.registry
  quiet : ∀ config, world.lifecycle.checked = some config → ∀ old ∈ world.published.config.backends,
    topologyChange config.val old ≠ none → ∀ slot, world.registry.find? old.id = some slot →
      slot.mode = .disabled ∧ slot.leases = ∅ ∧ world.store.mode old.id = .disabled

namespace Coherent

variable {world next : ControlWorld} {id : BackendId} {slot : SlotState}

theorem owns_of_ages {lifecycle : Lifecycle} {store : BackendStateStore} {old new : BackendRegistry}
    (hages : BackendRegistry.Ages old new) (h : lifecycle.Owns store old) : lifecycle.Owns store new := by
  have hmoded : ∀ {id mode}, (∃ slot, old.find? id = some slot ∧ slot.registered = true ∧ slot.mode = mode) →
      ∃ slot, new.find? id = some slot ∧ slot.registered = true ∧ slot.mode = mode := by
    rintro id mode ⟨slot, hslot, hregistered, hmode⟩
    obtain ⟨after, hafter, haged⟩ := hages.kept hslot
    exact ⟨after, hafter, haged.registered.trans hregistered, haged.mode.trans hmode⟩
  have hregistered : ∀ {id}, (∃ slot, old.find? id = some slot ∧ slot.registered = true) →
      ∃ slot, new.find? id = some slot ∧ slot.registered = true := by
    rintro id ⟨slot, hslot, hregistered⟩
    obtain ⟨after, hafter, haged⟩ := hages.kept hslot
    exact ⟨after, hafter, haged.registered.trans hregistered⟩
  cases lifecycle with
  | free | reloadReconcile | reloadResume => trivial
  | drainSave | drainUndo | drainEnsure | commitSave | commitClose | activateSave | activateOpen | commitSend =>
      exact hmoded h
  | disableSave | disableClose => exact hregistered h
  | reloadRestore config report pending =>
      intro entry hentry
      exact ⟨(h entry hentry).1, hregistered (h entry hentry).2⟩

/-- Requests leave the invariant alone. -/
theorem age (h : Coherent world) (hpublished : next.published = world.published) (hstore : next.store = world.store)
    (hlifecycle : next.lifecycle = world.lifecycle) (hages : BackendRegistry.Ages world.registry next.registry) :
    Coherent next := by
  have hconfig : next.registeredConfig = world.registeredConfig := by
    rw [ControlWorld.registeredConfig, ControlWorld.registeredConfig, hlifecycle, hpublished]
  refine ⟨?_, ?_, ?_, ?_, ?_⟩
  · intro backend hmem
    rw [hconfig] at hmem
    obtain ⟨slot, hslot, hregistered⟩ := h.present backend hmem
    obtain ⟨after, hafter, haged⟩ := hages.kept hslot
    exact ⟨after, hafter, haged.registered.trans hregistered⟩
  · intro id slot hslot hregistered
    obtain ⟨before, hbefore, haged⟩ := hages.find hslot
    obtain ⟨hbackend, hgate⟩ := h.registered id before hbefore (haged.registered.symm.trans hregistered)
    rw [hconfig, hlifecycle, hstore, haged.spec, haged.mode]
    exact ⟨hbackend, hgate⟩
  · intro id slot hslot hretired
    obtain ⟨before, hbefore, haged⟩ := hages.find hslot
    rw [hstore, haged.mode]
    exact h.retired id before hbefore (haged.registered.symm.trans hretired)
  · rw [hlifecycle, hstore]
    exact owns_of_ages hages h.owns
  · intro config hchecked old hold hchange slot hslot
    rw [hlifecycle] at hchecked
    rw [hpublished] at hold
    obtain ⟨before, hbefore, haged⟩ := hages.find hslot
    obtain ⟨hmode, hleases, hstored⟩ := h.quiet config hchecked old hold hchange before hbefore
    rw [hstore]
    refine ⟨haged.mode.trans hmode, ?_, hstored⟩
    have hsubset := haged.leases (by rw [hmode]; exact BackendMode.noConfusion)
    rw [hleases] at hsubset
    exact Finset.subset_empty.mp hsubset

/-- The lock changes hands, or its holder goes on, and nothing it protects changes. -/
theorem relock (h : Coherent world) (hpublished : next.published = world.published) (hstore : next.store = world.store)
    (hregistry : next.registry = world.registry) (hconfig : next.registeredConfig = world.registeredConfig)
    (hgate : ∀ id mode, world.lifecycle.Gate world.store id mode → next.lifecycle.Gate world.store id mode)
    (howns : next.lifecycle.Owns world.store world.registry)
    (hquiet : ∀ config, next.lifecycle.checked = some config → ∀ old ∈ world.published.config.backends,
      topologyChange config.val old ≠ none → ∀ slot, world.registry.find? old.id = some slot →
        slot.mode = .disabled ∧ slot.leases = ∅ ∧ world.store.mode old.id = .disabled) : Coherent next := by
  refine ⟨?_, ?_, ?_, ?_, ?_⟩
  · rw [hconfig, hregistry]
    exact h.present
  · intro id slot hslot hregistered
    rw [hregistry] at hslot
    rw [hconfig, hstore]
    exact ⟨(h.registered id slot hslot hregistered).1, hgate _ _ (h.registered id slot hslot hregistered).2⟩
  · rw [hregistry, hstore]
    exact h.retired
  · rw [hregistry, hstore]
    exact howns
  · rw [hpublished, hregistry, hstore]
    exact hquiet

/-- The holder of the lock sets the gate or the stored mode of one registered backend. -/
theorem regate (h : Coherent world) {new : SlotState} (hslot : world.registry.find? id = some slot)
    (hregistered : slot.registered = true) (hpublished : next.published = world.published)
    (hconfig : next.registeredConfig = world.registeredConfig)
    (hfind : ∀ other, next.registry.find? other = if other = id then some new else world.registry.find? other)
    (hspec : new.spec = slot.spec) (hnew : new.registered = true)
    (hstore : ∀ other, other ≠ id → next.store.mode other = world.store.mode other)
    (hself : next.lifecycle.Gate next.store id new.mode)
    (hothers : ∀ other mode, other ≠ id → world.lifecycle.Gate world.store other mode →
      next.lifecycle.Gate next.store other mode)
    (howns : next.lifecycle.Owns next.store next.registry)
    (hquiet : ∀ config, next.lifecycle.checked = some config → world.lifecycle.checked = some config ∧
      new.leases = slot.leases ∧ next.store.mode id = world.store.mode id ∧
        (slot.mode = .disabled → world.store.mode id = .disabled → new.mode = .disabled)) :
    Coherent next := by
  refine ⟨?_, ?_, ?_, howns, ?_⟩
  · intro backend hmem
    rw [hconfig] at hmem
    rw [hfind]
    by_cases hid : backend.id = id
    · rw [if_pos hid]
      exact ⟨new, rfl, hnew⟩
    · rw [if_neg hid]
      exact h.present backend hmem
  · intro other found hfound hregistered'
    rw [hfind] at hfound
    rw [hconfig]
    by_cases hid : other = id
    · subst hid
      rw [if_pos rfl, Option.some.injEq] at hfound
      subst hfound
      rw [hspec]
      exact ⟨(h.registered other slot hslot hregistered).1, hself⟩
    · rw [if_neg hid] at hfound
      obtain ⟨hbackend, hgate⟩ := h.registered other found hfound hregistered'
      exact ⟨hbackend, hothers other _ hid hgate⟩
  · intro other found hfound hretired
    rw [hfind] at hfound
    by_cases hid : other = id
    · subst hid
      rw [if_pos rfl, Option.some.injEq] at hfound
      subst hfound
      rw [hnew] at hretired
      cases hretired
    · rw [if_neg hid] at hfound
      rw [hstore other hid]
      exact h.retired other found hfound hretired
  · intro config hchecked old hold hchange found hfound
    obtain ⟨hbefore, hleases, hkept, hmode⟩ := hquiet config hchecked
    rw [hpublished] at hold
    rw [hfind] at hfound
    by_cases hid : old.id = id
    · rw [if_pos hid, Option.some.injEq] at hfound
      subst hfound
      obtain ⟨hdisabled, hidle, hstored⟩ := h.quiet config hbefore old hold hchange slot (hid ▸ hslot)
      rw [hid] at hstored ⊢
      exact ⟨hmode hdisabled hstored, hleases.trans hidle, hkept.trans hstored⟩
    · rw [if_neg hid] at hfound
      rw [hstore _ hid]
      exact h.quiet config hbefore old hold hchange found hfound

/-- With the lock free the gate is where the store says. -/
theorem mode_of_free (h : Coherent world) (hfree : world.lifecycle = .free)
    (hslot : world.registry.find? id = some slot)
    (hregistered : slot.registered = true) : slot.mode = world.store.mode id := by
  have hgate := (h.registered id slot hslot hregistered).2
  rw [hfree] at hgate
  exact hgate

/-- A command that only answers. -/
theorem answered (h : Coherent world) (hpublished : next.published = world.published)
    (hstore : next.store = world.store) (hregistry : next.registry = world.registry)
    (hsettled : ∀ id mode, world.lifecycle.Gate world.store id mode → mode = world.store.mode id)
    (hconfig : world.registeredConfig = world.published.config) (hfree : next.lifecycle = .free) : Coherent next := by
  refine h.relock hpublished hstore hregistry ?_ ?_ ?_ ?_
  · rw [hconfig, ControlWorld.registeredConfig, hfree, hpublished]
  · intro id mode hgate
    rw [hfree]
    exact hsettled id mode hgate
  · rw [hfree]
    trivial
  · intro config hchecked
    rw [hfree] at hchecked
    cases hchecked

section Commands

variable (h : Coherent world) (hfree : world.lifecycle = .free)

include h hfree

theorem answered_of_free (hpublished : next.published = world.published)
    (hstore : next.store = world.store) (hregistry : next.registry = world.registry) (hnext : next.lifecycle = .free) :
    Coherent next := by
  refine h.answered hpublished hstore hregistry ?_ ?_ hnext
  · intro id mode hgate
    rw [hfree] at hgate
    exact hgate
  · rw [ControlWorld.registeredConfig, hfree]

theorem drain (id : BackendId) : Coherent (world.drain id) := by
  unfold ControlWorld.drain
  split
  · exact h.answered_of_free hfree rfl rfl rfl rfl
  · rename_i slot hget
    obtain ⟨hslot, hregistered⟩ := BackendRegistry.get_eq_some_iff.mp hget
    have hmode := h.mode_of_free hfree hslot hregistered
    have hfind := BackendRegistry.find?_replace hslot (show (slot.beginDrain.1).spec.id = id by
      rw [SlotState.beginDrain, SlotState.switchMode_spec, BackendRegistry.slot_id hslot])
    have hconfig : world.registeredConfig = world.published.config := by rw [ControlWorld.registeredConfig, hfree]
    have hothers : ∀ other mode, other ≠ id → world.lifecycle.Gate world.store other mode →
        mode = world.store.mode other := by
      intro other mode _ hgate
      rw [hfree] at hgate
      exact hgate
    have hclosed : ∃ closed, (world.registry.put slot.beginDrain.1).find? id = some closed ∧
        closed.registered = true ∧ closed.mode = .draining := by
      refine ⟨slot.beginDrain.1, ?_, ?_, ?_⟩
      · rw [hfind, if_pos rfl]
      · simpa [SlotState.beginDrain] using hregistered
      · simp [SlotState.beginDrain]
    split
    · rename_i hdraining
      refine h.regate hslot hregistered rfl hconfig.symm hfind (by simp [SlotState.beginDrain])
        (by simpa [SlotState.beginDrain] using hregistered) (fun _ _ => rfl) ?_ hothers hclosed ?_
      · show (slot.beginDrain.1).mode = world.store.mode id
        rw [← hmode, hdraining]
        simp [SlotState.beginDrain]
      · intro config hchecked
        cases hchecked
    · rename_i hnot
      refine h.regate hslot hregistered rfl hconfig.symm hfind (by simp [SlotState.beginDrain])
        (by simpa [SlotState.beginDrain] using hregistered) (fun _ _ => rfl) ?_ ?_ hclosed ?_
      · show Lifecycle.Gate world.store id _ (.drainSave id slot.mode)
        simp only [Lifecycle.Gate, if_true]
        exact ⟨by simp [SlotState.beginDrain], hmode.symm, hnot⟩
      · intro other mode hother hgate
        show Lifecycle.Gate world.store other _ (.drainSave id slot.mode)
        simp only [Lifecycle.Gate, if_neg hother]
        exact hothers other mode hother hgate
      · intro config hchecked
        cases hchecked

/-- A command that goes on with a lock state under which the gate is settled. -/
theorem started (hpublished : next.published = world.published) (hstore : next.store = world.store)
    (hregistry : next.registry = world.registry) (hconfig : next.registeredConfig = next.published.config)
    (hgate : ∀ id mode, mode = world.store.mode id → next.lifecycle.Gate world.store id mode)
    (howns : next.lifecycle.Owns world.store world.registry)
    (hquiet : ∀ config, next.lifecycle.checked = some config → ∀ old ∈ world.published.config.backends,
      topologyChange config.val old ≠ none → ∀ slot, world.registry.find? old.id = some slot →
        slot.mode = .disabled ∧ slot.leases = ∅ ∧ world.store.mode old.id = .disabled) : Coherent next := by
  refine h.relock hpublished hstore hregistry ?_ ?_ howns hquiet
  · rw [hconfig, hpublished, ControlWorld.registeredConfig, hfree]
  · intro id mode hbefore
    rw [hfree] at hbefore
    exact hgate id mode hbefore

theorem activate (id : BackendId) : Coherent (world.activate id) := by
  unfold ControlWorld.activate
  split
  · exact h.answered_of_free hfree rfl rfl rfl rfl
  · rename_i status hstatus
    obtain ⟨slot, live, backend, hslot, hregistered, _, _, _, rfl⟩ := RoutingState.status_some hstatus
    split
    · exact h.answered_of_free hfree rfl rfl rfl rfl
    · exact h.answered_of_free hfree rfl rfl rfl rfl
    · rename_i hmode
      split
      · exact h.answered_of_free hfree rfl rfl rfl rfl
      · split
        · exact h.answered_of_free hfree rfl rfl rfl rfl
        · refine h.started hfree rfl rfl rfl rfl (fun _ _ hgate => hgate) ⟨slot, hslot, hregistered, hmode⟩ ?_
          intro config hchecked
          cases hchecked

theorem disable (id : BackendId) (force : Bool) : Coherent (world.disable id force) := by
  unfold ControlWorld.disable
  split
  · exact h.answered_of_free hfree rfl rfl rfl rfl
  · rename_i status hstatus
    obtain ⟨slot, live, backend, hslot, hregistered, _⟩ := RoutingState.status_some hstatus
    split
    · exact h.answered_of_free hfree rfl rfl rfl rfl
    · split
      · exact h.answered_of_free hfree rfl rfl rfl rfl
      · refine h.started hfree rfl rfl rfl rfl (fun _ _ hgate => hgate) ⟨slot, hslot, hregistered⟩ ?_
        intro config hchecked
        cases hchecked

theorem reload (config : ValidConfig) : Coherent (world.reload config) := by
  unfold ControlWorld.reload
  split
  · exact h.answered_of_free hfree rfl rfl rfl rfl
  · rename_i hcheck
    refine h.started hfree rfl rfl rfl rfl (fun _ _ hgate => hgate) trivial ?_
    intro checked hchecked old hold hchange slot hslot
    cases hchecked
    obtain ⟨change, hchange⟩ := Option.ne_none_iff_exists'.mp hchange
    obtain ⟨hmode, hleases⟩ := checkReload_ok hcheck hold hchange hslot
    refine ⟨hmode, hleases, ?_⟩
    cases hregistered : slot.registered with
    | true => rw [← h.mode_of_free hfree hslot hregistered, hmode]
    | false => exact (h.retired old.id slot hslot hregistered).2

end Commands

/-- The drain task that confirmed an idle backend takes the lock. -/
theorem commit (h : Coherent world) (hfree : world.lifecycle = .free) {operation : DrainOperation} {index : Nat}
    {status confirmed : BackendStatusSnapshot} (hpublished : next.published = world.published)
    (hstore : next.store = world.store) (hregistry : next.registry = world.registry)
    (hstatus : world.status operation.backendId = some confirmed) (hconfirms : operation.confirms confirmed = true)
    (hnext : next.lifecycle = .commitSave index operation.backendId status confirmed) : Coherent next := by
  obtain ⟨slot, live, backend, hslot, hregistered, _, _, _, rfl⟩ := RoutingState.status_some hstatus
  simp only [DrainOperation.confirms, Bool.and_eq_true, decide_eq_true_eq] at hconfirms
  refine h.started hfree hpublished hstore hregistry ?_ ?_ ?_ ?_
  · rw [ControlWorld.registeredConfig, hnext]
  · intro id mode hmode
    rw [hnext]
    exact hmode
  · rw [hnext]
    exact ⟨slot, hslot, hregistered, hconfirms.1.1⟩
  · intro config hchecked
    rw [hnext] at hchecked
    cases hchecked

theorem drive (h : Coherent world) {index : Nat} (hnext : world.driveStep index = some next) : Coherent next := by
  obtain ⟨operation, _, hpublished, hstore, hregistry, _, hlifecycle⟩ := ControlWorld.driveStep_some hnext
  rcases hlifecycle with hlifecycle | ⟨hfree, status, confirmed, hstatus, hconfirms, hlifecycle⟩
  · exact h.age hpublished hstore hlifecycle (hregistry ▸ BackendRegistry.Ages.refl _)
  · exact h.commit hfree hpublished hstore hregistry hstatus hconfirms hlifecycle

section Steps

variable (h : Coherent world) (hslot : world.registry.find? id = some slot) (hregistered : slot.registered = true)
  (hconcerns : world.lifecycle.Concerns id) (hnext : next.lifecycle.Concerns id)
  (hpublished : next.published = world.published) (hchecked : next.lifecycle.checked = none)

include h hslot hregistered hconcerns hnext hpublished hchecked

/-- The holder of the lock has saved a mode for its backend. -/
theorem saved {mode : BackendMode} (hregistry : next.registry = world.registry)
    (hstore : next.store = world.store.setMode id mode) (hself : next.lifecycle.Gate next.store id slot.mode)
    (howns : next.lifecycle.Owns next.store world.registry) : Coherent next := by
  refine h.regate hslot hregistered hpublished ?_ ?_ rfl hregistered ?_ hself ?_ (hregistry ▸ howns) ?_
  · rw [ControlWorld.registeredConfig_of_concerns hnext, ControlWorld.registeredConfig_of_concerns hconcerns,
      hpublished]
  · intro other
    rw [hregistry]
    by_cases hother : other = id
    · rw [if_pos hother, hother, hslot]
    · rw [if_neg hother]
  · intro other hother
    rw [hstore, BackendStateStore.mode_setMode_of_ne hother]
  · intro other mode' hother hgate
    rw [hnext.gate_iff hother, hstore, BackendStateStore.mode_setMode_of_ne hother]
    exact (hconcerns.gate_iff hother).mp hgate
  · intro config hcheck
    rw [hchecked] at hcheck
    cases hcheck

/-- The holder of the lock sets the gate of its backend. -/
theorem gated {new : SlotState} (hspec : new.spec = slot.spec) (hnew : new.registered = true)
    (hregistry : ∀ other, next.registry.find? other = if other = id then some new else world.registry.find? other)
    (hstore : next.store = world.store) (hself : next.lifecycle.Gate next.store id new.mode)
    (howns : next.lifecycle.Owns next.store next.registry) : Coherent next := by
  refine h.regate hslot hregistered hpublished ?_ hregistry hspec hnew ?_ hself ?_ howns ?_
  · rw [ControlWorld.registeredConfig_of_concerns hnext, ControlWorld.registeredConfig_of_concerns hconcerns,
      hpublished]
  · intro other _
    rw [hstore]
  · intro other mode hother hbefore
    rw [hnext.gate_iff hother, hstore]
    exact (hconcerns.gate_iff hother).mp hbefore
  · intro config hcheck
    rw [hchecked] at hcheck
    cases hcheck

end Steps

/-- The lock is released where the gate is settled. -/
theorem released (h : Coherent world) (hlifecycle : ∀ id, world.lifecycle.Concerns id)
    (hgate : ∀ id mode, world.lifecycle.Gate world.store id mode → mode = world.store.mode id)
    (hpublished : next.published = world.published) (hstore : next.store = world.store)
    (hregistry : next.registry = world.registry) (hfree : next.lifecycle = .free) : Coherent next :=
  h.answered hpublished hstore hregistry hgate (ControlWorld.registeredConfig_of_concerns (hlifecycle "")) hfree

section Proceed

variable (h : Coherent world) {failure : Option String} (hnext : world.proceed failure = some next)

include h hnext

theorem proceed_drainSave {before : BackendMode} (hlife : world.lifecycle = .drainSave id before) : Coherent next := by
  have howns := h.owns
  rw [hlife] at howns
  obtain ⟨slot, hslot, hregistered, hmode⟩ := howns
  simp only [ControlWorld.proceed, hlife] at hnext
  cases failure with
  | none =>
      cases hnext
      refine h.saved hslot hregistered (by rw [hlife]; rfl) trivial rfl rfl rfl rfl ?_ ⟨slot, hslot, hregistered, hmode⟩
      show slot.mode = (world.store.setMode id .draining).mode id
      rw [hmode, BackendStateStore.mode_setMode_self]
  | some error =>
      cases hnext
      refine h.relock rfl rfl rfl ?_ ?_ ⟨slot, hslot, hregistered, hmode⟩ ?_
      · rw [ControlWorld.registeredConfig, ControlWorld.registeredConfig, hlife]
        rfl
      · intro other mode hgate
        rw [hlife] at hgate
        exact hgate
      · intro config hchecked
        cases hchecked

theorem proceed_drainUndo {before : BackendMode} {error : String}
    (hlife : world.lifecycle = .drainUndo id before error) :
    Coherent next := by
  have howns := h.owns
  rw [hlife] at howns
  obtain ⟨slot, hslot, hregistered, hmode⟩ := howns
  have hgate := (h.registered id slot hslot hregistered).2
  simp only [hlife, Lifecycle.Gate, if_true] at hgate
  simp only [ControlWorld.proceed, hlife] at hnext
  cases hnext
  refine h.gated hslot hregistered (by rw [hlife]; rfl) trivial rfl rfl (SlotState.restore_spec slot before) ?_
    (BackendRegistry.find?_modify_of_find (fun slot => SlotState.restore_spec slot before) hslot) rfl ?_ trivial
  · rw [SlotState.restore_of_registered hregistered, SlotState.switchMode_registered]
    exact hregistered
  · show (slot.restore before).mode = world.store.mode id
    rw [SlotState.restore_of_registered hregistered, SlotState.switchMode_mode, hgate.2.1]

theorem proceed_drainEnsure {before : BackendMode} (hlife : world.lifecycle = .drainEnsure id before) :
    Coherent next := by
  obtain ⟨hpublished, hregistry, hstore, _⟩ := ControlWorld.ensureDrainOperation_some id world
  simp only [ControlWorld.proceed, hlife] at hnext
  cases hnext
  refine h.released (fun _ => by rw [hlife]; trivial) (fun _ _ hgate => ?_) hpublished hstore hregistry rfl
  rw [hlife] at hgate
  exact hgate

theorem proceed_activateSave (hlife : world.lifecycle = .activateSave id) : Coherent next := by
  have howns := h.owns
  rw [hlife] at howns
  obtain ⟨slot, hslot, hregistered, hmode⟩ := howns
  simp only [ControlWorld.proceed, hlife] at hnext
  cases failure with
  | none =>
      cases hnext
      refine h.saved hslot hregistered (by rw [hlife]; trivial) rfl rfl rfl rfl rfl ?_ ⟨slot, hslot, hregistered, hmode⟩
      simp [Lifecycle.Gate]
  | some error =>
      cases hnext
      refine h.released (fun _ => by rw [hlife]; trivial) (fun _ _ hgate => ?_) rfl rfl rfl rfl
      rw [hlife] at hgate
      exact hgate

theorem proceed_activateOpen (hlife : world.lifecycle = .activateOpen id) : Coherent next := by
  have howns := h.owns
  rw [hlife] at howns
  obtain ⟨slot, hslot, hregistered, hmode⟩ := howns
  have hgate := (h.registered id slot hslot hregistered).2
  simp only [hlife, Lifecycle.Gate, if_true] at hgate
  have hopened : slot.activate = .ok (slot.switchMode .active) := by
    simp [SlotState.activate, SlotState.setMode, hregistered]
  simp only [ControlWorld.proceed, hlife, BackendRegistry.getRetained, hslot, Option.map_some, hopened] at hnext
  cases hnext
  refine h.gated hslot hregistered (by rw [hlife]; rfl) trivial rfl rfl (SlotState.switchMode_spec slot .active) ?_
    (BackendRegistry.find?_replace hslot (by rw [SlotState.switchMode_spec, BackendRegistry.slot_id hslot])) rfl ?_
    trivial
  · rw [SlotState.switchMode_registered]
    exact hregistered
  · show (slot.switchMode .active).mode = world.store.mode id
    rw [SlotState.switchMode_mode, hgate]

theorem proceed_disableSave {force : Bool} {inFlight : Nat} (hlife : world.lifecycle = .disableSave id force inFlight) :
    Coherent next := by
  have howns := h.owns
  rw [hlife] at howns
  obtain ⟨slot, hslot, hregistered⟩ := howns
  simp only [ControlWorld.proceed, hlife] at hnext
  cases failure with
  | none =>
      cases hnext
      refine h.saved hslot hregistered (by rw [hlife]; trivial) rfl rfl rfl rfl rfl ?_ ⟨slot, hslot, hregistered⟩
      simp [Lifecycle.Gate]
  | some error =>
      cases hnext
      refine h.released (fun _ => by rw [hlife]; trivial) (fun _ _ hgate => ?_) rfl rfl rfl rfl
      rw [hlife] at hgate
      exact hgate

theorem proceed_disableClose {force : Bool} {inFlight : Nat}
    (hlife : world.lifecycle = .disableClose id force inFlight) :
    Coherent next := by
  have howns := h.owns
  rw [hlife] at howns
  obtain ⟨slot, hslot, hregistered⟩ := howns
  have hgate := (h.registered id slot hslot hregistered).2
  simp only [hlife, Lifecycle.Gate, if_true] at hgate
  simp only [ControlWorld.proceed, hlife] at hnext
  cases hnext
  refine h.gated hslot hregistered (by rw [hlife]; rfl) trivial rfl rfl (SlotState.switchMode_spec slot .disabled) ?_
    (BackendRegistry.find?_modify_of_find (fun slot => SlotState.switchMode_spec slot .disabled) hslot) rfl ?_ trivial
  · rw [SlotState.switchMode_registered]
    exact hregistered
  · show (slot.switchMode .disabled).mode = world.store.mode id
    rw [SlotState.switchMode_mode, hgate]

theorem proceed_commitSave {index : Nat} {status confirmed : BackendStatusSnapshot}
    (hlife : world.lifecycle = .commitSave index id status confirmed) : Coherent next := by
  have howns := h.owns
  rw [hlife] at howns
  obtain ⟨slot, hslot, hregistered, hmode⟩ := howns
  simp only [ControlWorld.proceed, hlife] at hnext
  cases failure with
  | none =>
      cases hnext
      refine h.saved hslot hregistered (by rw [hlife]; trivial) rfl rfl rfl rfl rfl ?_ ⟨slot, hslot, hregistered, hmode⟩
      simp [Lifecycle.Gate]
  | some error =>
      cases hnext
      refine h.released (fun _ => by rw [hlife]; trivial) (fun _ _ hgate => ?_) rfl rfl rfl rfl
      rw [hlife] at hgate
      exact hgate

theorem proceed_commitClose {index : Nat} {confirmed : BackendStatusSnapshot}
    (hlife : world.lifecycle = .commitClose index id confirmed) : Coherent next := by
  have howns := h.owns
  rw [hlife] at howns
  obtain ⟨slot, hslot, hregistered, hmode⟩ := howns
  have hgate := (h.registered id slot hslot hregistered).2
  simp only [hlife, Lifecycle.Gate, if_true] at hgate
  have hfind := BackendRegistry.find?_modify_of_find (fun slot => SlotState.switchMode_spec slot .disabled) hslot
  simp only [ControlWorld.proceed, hlife] at hnext
  cases hnext
  refine h.gated hslot hregistered (by rw [hlife]; rfl) trivial rfl rfl (SlotState.switchMode_spec slot .disabled) ?_
    hfind rfl ?_ ?_
  · rw [SlotState.switchMode_registered]
    exact hregistered
  · show (slot.switchMode .disabled).mode = world.store.mode id
    rw [SlotState.switchMode_mode, hgate]
  · refine ⟨slot.switchMode .disabled, ?_, ?_, SlotState.switchMode_mode slot .disabled⟩
    · exact (hfind id).trans (if_pos rfl)
    · rw [SlotState.switchMode_registered]
      exact hregistered

theorem proceed_commitSend {index : Nat} {confirmed : BackendStatusSnapshot}
    (hlife : world.lifecycle = .commitSend index id confirmed) : Coherent next := by
  simp only [ControlWorld.proceed, hlife] at hnext
  cases hnext
  refine h.released (fun _ => by rw [hlife]; trivial) (fun _ _ hgate => ?_) rfl rfl rfl rfl
  rw [hlife] at hgate
  exact hgate

theorem proceed_reloadResume {report : RuntimeReloadReport} {pending : List BackendId}
    (hlife : world.lifecycle = .reloadResume report pending) : Coherent next := by
  have hsettled : ∀ id mode, world.lifecycle.Gate world.store id mode → mode = world.store.mode id := by
    intro id mode hgate
    rw [hlife] at hgate
    exact hgate
  cases pending with
  | nil =>
      simp only [ControlWorld.proceed, hlife] at hnext
      cases hnext
      exact h.released (fun _ => by rw [hlife]; trivial) hsettled rfl rfl rfl rfl
  | cons id pending =>
      obtain ⟨hpublished, hregistry, hstore, _⟩ := ControlWorld.ensureDrainOperation_some id world
      simp only [ControlWorld.proceed, hlife] at hnext
      cases hnext
      refine h.relock hpublished hstore hregistry ?_ hsettled trivial ?_
      · rw [ControlWorld.registeredConfig_of_concerns (show world.lifecycle.Concerns id by rw [hlife]; trivial)]
        exact congrArg PublishedRuntime.config hpublished
      · intro config hchecked
        cases hchecked

theorem proceed_reloadReconcile {config : ValidConfig} (hlife : world.lifecycle = .reloadReconcile config) :
    Coherent next := by
  have hgate : ∀ {id slot}, world.registry.find? id = some slot → slot.registered = true →
      slot.mode = world.store.mode id := by
    intro id slot hslot hregistered
    have hgate := (h.registered id slot hslot hregistered).2
    rw [hlife] at hgate
    exact hgate
  have hconfig : world.registeredConfig = world.published.config := by
    rw [ControlWorld.registeredConfig, hlife]
  simp only [ControlWorld.proceed, hlife] at hnext
  split at hnext
  · cases hnext
    refine h.released (fun _ => by rw [hlife]; trivial) (fun _ _ hgate => ?_) rfl rfl rfl rfl
    rw [hlife] at hgate
    exact hgate
  · rename_i registry report hreconcile
    cases hnext
    refine ⟨?_, ?_, ?_, ?_, ?_⟩
    · intro backend hmem
      exact BackendRegistry.reconcile_present hreconcile hmem
    · intro id slot hslot hregistered
      rcases BackendRegistry.reconcile_cases hreconcile hslot with
        ⟨backend, hmem, hid, _, hspec, horigin⟩ | ⟨_, hretired, _⟩
      · refine ⟨⟨backend, hmem, hid, backend.url, by rw [hspec]; rfl, Uri.same_refl _⟩, ?_⟩
        rcases horigin with ⟨old, hold, hmode, _⟩ | ⟨_, hadded, hmode, _⟩
        · refine .inl (hmode.trans ?_)
          cases holdRegistered : old.registered with
          | true => exact hgate hold holdRegistered
          | false =>
              obtain ⟨hdisabled, hstored⟩ := h.retired id old hold holdRegistered
              exact hdisabled.trans hstored.symm
        · refine .inr ⟨hmode, world.store.mode id, ?_⟩
          exact List.mem_append_left _ (List.mem_map.mpr ⟨id, List.mem_append_left _ hadded, rfl⟩)
      · rw [hregistered] at hretired
        cases hretired
    · intro id slot hslot hretired
      rcases BackendRegistry.reconcile_cases hreconcile hslot with
        ⟨_, _, _, hregistered, _⟩ | ⟨habsent, _, old, hold, rfl⟩
      · rw [hretired] at hregistered
        cases hregistered
      · have hdisabled : old.mode = .disabled ∧ world.store.mode id = .disabled := by
          cases holdRegistered : old.registered with
          | false => exact h.retired id old hold holdRegistered
          | true =>
              -- a backend that is removed was checked to be disabled
              obtain ⟨⟨backend, hmem, hid, _⟩, _⟩ := h.registered id old hold holdRegistered
              rw [hconfig] at hmem
              have hchange : topologyChange config.val backend ≠ none := by
                rw [topologyChange, Backend.lookup_none_iff.mpr (hid ▸ habsent)]
                exact Option.some_ne_none _
              obtain ⟨hmode, _, hstored⟩ :=
                h.quiet config (by rw [hlife]; rfl) backend hmem hchange old (hid.symm ▸ hold)
              exact ⟨hmode, hid ▸ hstored⟩
        refine ⟨?_, hdisabled.2⟩
        rw [(SlotState.reconcileAbsent_mode old).1, hdisabled.1]
        simp
    · intro entry hentry
      rcases List.mem_append.mp hentry with hentry | hentry
      · obtain ⟨id, hid, rfl⟩ := List.mem_map.mp hentry
        exact ⟨rfl, BackendRegistry.reconcile_reported hreconcile hid⟩
      · obtain ⟨id, hid, hmode⟩ := List.mem_filterMap.mp hentry
        obtain ⟨mode, hstored, rfl⟩ := Option.map_eq_some_iff.mp hmode
        refine ⟨?_, BackendRegistry.mem_registeredIds.mp hid⟩
        show mode = world.store.mode id
        rw [BackendStateStore.mode, hstored]
        rfl
    · intro checked hchecked old hold hchange slot hslot
      cases hchecked
      obtain ⟨before, hbefore, _⟩ := h.present old (hconfig ▸ hold)
      obtain ⟨hmode, hleases, hstored⟩ := h.quiet config (by rw [hlife]; rfl) old hold hchange before hbefore
      rcases BackendRegistry.reconcile_cases hreconcile hslot with
        ⟨_, _, _, _, _, ⟨origin, horigin, hslotMode, hslotLeases⟩ | ⟨hnone, _⟩⟩ | ⟨_, _, origin, horigin, rfl⟩
      · obtain rfl : before = origin := Option.some.inj (hbefore.symm.trans horigin)
        exact ⟨hslotMode.trans hmode, hslotLeases.trans hleases, hstored⟩
      · rw [hbefore] at hnone
        cases hnone
      · obtain rfl : before = origin := Option.some.inj (hbefore.symm.trans horigin)
        refine ⟨?_, (SlotState.reconcileAbsent_leases before).trans hleases, hstored⟩
        rw [(SlotState.reconcileAbsent_mode before).1, hmode]
        simp

theorem proceed_reloadRestore {config : ValidConfig} {report : ReconcileReport}
    {pending : List (BackendId × BackendMode)}
    (hlife : world.lifecycle = .reloadRestore config report pending) : Coherent next := by
  have howns := h.owns
  rw [hlife] at howns
  cases pending with
  | nil =>
      simp only [ControlWorld.proceed, hlife] at hnext
      cases hnext
      have hconfig : world.registeredConfig = config.val := by rw [ControlWorld.registeredConfig, hlife]
      refine ⟨?_, ?_, h.retired, trivial, ?_⟩
      · intro backend hmem
        exact h.present backend (hconfig ▸ hmem)
      · intro id slot hslot hregistered
        obtain ⟨hbackend, hgate⟩ := h.registered id slot hslot hregistered
        rw [hconfig] at hbackend
        rw [hlife] at hgate
        refine ⟨hbackend, ?_⟩
        rcases hgate with hgate | ⟨_, _, hpending⟩
        · exact hgate
        · cases hpending
      · intro checked hchecked
        cases hchecked
  | cons entry pending =>
      obtain ⟨id, mode⟩ := entry
      obtain ⟨hmode, slot, hslot, hregistered⟩ := howns (id, mode) List.mem_cons_self
      have hfind := BackendRegistry.find?_modify_of_find (fun slot => SlotState.restore_spec slot mode) hslot
      have hnewRegistered : (slot.restore mode).registered = true := by
        rw [SlotState.restore_of_registered hregistered, SlotState.switchMode_registered]
        exact hregistered
      have hnewMode : (slot.restore mode).mode = world.store.mode id := by
        rw [SlotState.restore_of_registered hregistered, SlotState.switchMode_mode]
        exact hmode
      simp only [ControlWorld.proceed, hlife] at hnext
      cases hnext
      refine h.regate hslot hregistered rfl ?_ hfind (SlotState.restore_spec slot mode) hnewRegistered (fun _ _ => rfl)
        (.inl hnewMode) ?_ ?_ ?_
      · rw [ControlWorld.registeredConfig, ControlWorld.registeredConfig, hlife]
      · intro other mode' hother hgate
        rw [hlife] at hgate
        rcases hgate with hgate | ⟨hdisabled, mode'', hentry⟩
        · exact .inl hgate
        · refine .inr ⟨hdisabled, mode'', ?_⟩
          rcases List.mem_cons.mp hentry with heq | hentry
          · exact absurd (congrArg Prod.fst heq) hother
          · exact hentry
      · intro entry hentry
        obtain ⟨hentryMode, found, hfound, hfoundRegistered⟩ := howns entry (List.mem_cons_of_mem _ hentry)
        refine ⟨hentryMode, ?_⟩
        by_cases hother : entry.1 = id
        · exact ⟨slot.restore mode, (hfind entry.1).trans (if_pos hother), hnewRegistered⟩
        · exact ⟨found, ((hfind entry.1).trans (if_neg hother)).trans hfound, hfoundRegistered⟩
      · intro checked hchecked
        cases hchecked
        refine ⟨by rw [hlife]; rfl, ?_, rfl, fun _ hstored => hnewMode.trans hstored⟩
        rw [SlotState.restore_of_registered hregistered, SlotState.switchMode_leases]

theorem proceed : Coherent next := by
  cases hlife : world.lifecycle with
  | free => simp [ControlWorld.proceed, hlife] at hnext
  | drainSave => exact h.proceed_drainSave hnext hlife
  | drainUndo => exact h.proceed_drainUndo hnext hlife
  | drainEnsure => exact h.proceed_drainEnsure hnext hlife
  | activateSave => exact h.proceed_activateSave hnext hlife
  | activateOpen => exact h.proceed_activateOpen hnext hlife
  | disableSave => exact h.proceed_disableSave hnext hlife
  | disableClose => exact h.proceed_disableClose hnext hlife
  | reloadReconcile => exact h.proceed_reloadReconcile hnext hlife
  | reloadRestore => exact h.proceed_reloadRestore hnext hlife
  | reloadResume => exact h.proceed_reloadResume hnext hlife
  | commitSave => exact h.proceed_commitSave hnext hlife
  | commitClose => exact h.proceed_commitClose hnext hlife
  | commitSend => exact h.proceed_commitSend hnext hlife

end Proceed

theorem boot {config : ValidConfig} {store : BackendStateStore} {now : Nat}
    (h : ControlWorld.boot config store now = some world) : Coherent world := by
  obtain ⟨hpublished, hstore, hlifecycle, hpresent, hslots⟩ := ControlWorld.boot_some h
  have hconfig : world.registeredConfig = config.val := by
    rw [ControlWorld.registeredConfig, hlifecycle, hpublished]
    rfl
  refine ⟨?_, ?_, ?_, ?_, ?_⟩
  · intro backend hmem
    obtain ⟨slot, hslot⟩ := hpresent backend (hconfig ▸ hmem)
    exact ⟨slot, hslot, (hslots _ slot hslot).1⟩
  · intro id slot hslot _
    obtain ⟨_, hmode, _, backend, hmem, hid, hspec⟩ := hslots id slot hslot
    rw [hconfig, hlifecycle, hstore]
    exact ⟨⟨backend, hmem, hid, backend.url, by rw [hspec]; rfl, Uri.same_refl _⟩, hmode⟩
  · intro id slot hslot hretired
    rw [(hslots id slot hslot).1] at hretired
    cases hretired
  · rw [hlifecycle]
    trivial
  · intro checked hchecked
    rw [hlifecycle] at hchecked
    cases hchecked

theorem step (h : Coherent world) {op : ControlOp} (hnext : world.step op = some next) : Coherent next := by
  by_cases hop : op.isBackground = true
  · have hbackground := ControlWorld.step_background hop hnext
    exact h.age hbackground.published hbackground.store hbackground.lifecycle hbackground.ages
  · cases op with
    | select | request | readiness | beginScrape | endScrape | elapse => exact absurd rfl hop
    | drain id =>
        obtain ⟨hfree, rfl⟩ := ControlWorld.command_some hnext
        exact h.drain hfree id
    | activate id =>
        obtain ⟨hfree, rfl⟩ := ControlWorld.command_some hnext
        exact h.activate hfree id
    | disable id force =>
        obtain ⟨hfree, rfl⟩ := ControlWorld.command_some hnext
        exact h.disable hfree id force
    | reload config =>
        obtain ⟨hfree, rfl⟩ := ControlWorld.command_some hnext
        exact h.reload hfree config
    | proceed failure => exact h.proceed hnext
    | drive index => exact h.drive hnext
    | restart config => exact boot (ControlWorld.restart_some hnext).2

theorem of_run {guard : ControlWorld → ControlOp → Prop} {record : List ControlStep}
    (hrun : Run controlSystem guard record world) : Coherent world := by
  refine hrun.invariant ?_ ?_
  · rintro world ⟨config, store, now, hboot⟩
    exact boot hboot
  · intro world op next h _ hnext
    exact h.step hnext

/-- The publication of a reload keeps the endpoints and the generation of every backend that is not disabled
and idle. -/
theorem publish_keeps (h : Coherent world) {config : ValidConfig} {report : ReconcileReport}
    (hlife : world.lifecycle = .reloadRestore config report []) (hslot : world.registry.find? id = some slot)
    (hbusy : ¬(slot.mode = .disabled ∧ slot.leases = ∅)) {old : Backend}
    (hold : world.published.backend id = some old) :
    ∃ new ∈ config.val.backends, new.id = id ∧ old.sameEndpoints new = true ∧
      (world.published.publish config.val config.property).backendGeneration id =
        world.published.backendGeneration id := by
  obtain ⟨hmem, rfl⟩ := PublishedRuntime.backend_eq_some_iff.mp hold
  have hchange : topologyChange config.val old = none := by
    by_contra hchange
    obtain ⟨hmode, hleases, _⟩ := h.quiet config (by rw [hlife]; rfl) old hmem hchange slot hslot
    exact hbusy ⟨hmode, hleases⟩
  unfold topologyChange at hchange
  split at hchange
  · cases hchange
  · rename_i new hlookup
    split at hchange
    · rename_i hsame
      obtain ⟨hnew, hid⟩ := Backend.lookup_some hlookup
      refine ⟨new, hnew, hid, hsame, ?_⟩
      have hkept := PublishedRuntime.nextGenerations_kept config.property hnew ⟨old, hid ▸ hold, hsame⟩
      rw [hid] at hkept
      exact hkept
    · cases hchange

end Coherent

end MistralrsProxy
