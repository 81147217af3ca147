import MistralrsProxy.BackendReconcile
import MistralrsProxy.Runtime
import MistralrsProxy.TransitionSystem

/-! Reloads over whole runs. A reload that is refused has changed nothing, one that succeeds publishes exactly what it
has registered, and the generations it assigns have never been used before. -/

open Keyed Transition

namespace MistralrsProxy

namespace BackendRegistry

variable {specs : List BackendSpec} {registry next : BackendRegistry}

theorem reconcileInPlace_error {error : ReconcileError} (h : reconcileInPlace specs registry = (next, .error error)) :
    next = registry := by
  unfold reconcileInPlace at h
  split at h
  · exact (Prod.mk.inj h).1.symm
  · cases h

theorem reconcileInPlace_ok {report : ReconcileReport} (h : reconcileInPlace specs registry = (next, .ok report)) :
    reconcile specs registry = .ok (next, report) := by
  unfold reconcileInPlace at h
  split at h
  · cases h
  · rename_i hreconcile
    cases h
    exact hreconcile

/-- A slot that is registered now and was not before has been added or revived. -/
theorem reported_of_registered {config : RuntimeConfig} {report : ReconcileReport} {id : BackendId} {slot : SlotState}
    (h : reconcile (config.backends.map Backend.registrySpec) registry = .ok (next, report))
    (hslot : next.find? id = some slot) (hregistered : slot.registered = true)
    (hbefore : ∀ old, registry.find? id = some old → old.registered = false) : id ∈ report.added ++ report.revived := by
  rcases reconcile_cases h hslot with ⟨backend, hmem, rfl, _⟩ | ⟨_, hretired, _⟩
  · obtain ⟨desired, hentries, _, rfl⟩ := reconcile_ok h
    have hdesired : desired.find? backend.id = some backend.registrySpec := by
      rw [Table.find?_eq_some_iff, hentries]
      exact ⟨List.mem_map_of_mem hmem, rfl⟩
    rw [List.mem_append, mem_added, mem_revived]
    cases hold : registry.find? backend.id with
    | none => exact .inl ⟨rfl, _, hdesired⟩
    | some old => exact .inr ⟨⟨old, rfl, hbefore old hold⟩, _, hdesired⟩
  · rw [hretired] at hregistered
    cases hregistered

end BackendRegistry

/-- `apply_with_modes` on the state it is called on, as far as each of its parts has changed it. -/
def RuntimeState.applyWithModes (config : RuntimeConfig) (modes : BackendId → Option BackendMode)
    (state : RuntimeState) : RuntimeState × Except RuntimeApplyError RuntimeReloadReport :=
  match checkReload config state.published.config.backends state.registry with
  | .error error => (state, .error error)
  | .ok () =>
      match h : BackendRegistry.reconcileInPlace (config.backends.map Backend.registrySpec) state.registry with
      | (registry, .error error) => ({ state with registry := registry }, .error (.reconcile error))
      | (registry, .ok report) =>
          let restored := (report.added ++ report.revived).foldl
            (fun registry id => restoreAdded modes id registry) registry
          let published := state.published.publish config
            (distinct_of_reconcile (BackendRegistry.reconcileInPlace_ok h))
          (⟨published, restoreModes modes restored⟩, .ok ⟨published.revision, report⟩)

/-- Reloads, and what requests and operators do with the slots in between. -/
inductive ReloadAction where
  | apply (config : RuntimeConfig) (modes : BackendId → Option BackendMode)
  | acquire (id : BackendId) (now : Nat)
  | release (id : BackendId) (key : LeaseKey)
  | setMode (id : BackendId) (mode : BackendMode)

def RuntimeState.step (state : RuntimeState) : ReloadAction → Option RuntimeState
  | .apply config modes => some (state.applyWithModes config modes).1
  | .acquire id now =>
      match BackendRegistry.tryAcquire id now state.registry with
      | .error _ => some state
      | .ok (registry, _) => some { state with registry := registry }
  | .release id key =>
      (state.registry.find? id).bind fun slot =>
        (slot.release key).map fun released => { state with registry := state.registry.put released }
  | .setMode id mode => some { state with registry := state.registry.update id (SlotState.restore mode) }

/-- `from_config`, and any actions from then on. -/
def reloadSystem : System RuntimeState ReloadAction where
  initial state := ∃ config distinct, state.published = .fromConfig config distinct ∧
    registryFromConfig config = .ok state.registry
  step := RuntimeState.step

/-- The registered slots are those of the published backends. -/
def RuntimeState.Matched (state : RuntimeState) : Prop :=
  ∀ id, (∃ slot, state.registry.find? id = some slot ∧ slot.registered = true) ↔
    id ∈ state.published.config.backends.map Backend.id

namespace RuntimeState

variable {state next : RuntimeState} {config : RuntimeConfig} {modes : BackendId → Option BackendMode}

/-- The state a reload publishes, from the registry it has reconciled. -/
def reloaded (config : RuntimeConfig) (distinct : config.Distinct) (modes : BackendId → Option BackendMode)
    (registry : BackendRegistry) (report : ReconcileReport) (state : RuntimeState) : RuntimeState where
  published := state.published.publish config distinct
  registry := restoreModes modes
    ((report.added ++ report.revived).foldl (fun registry id => restoreAdded modes id registry) registry)

/-- A reload is refused, with the state left alone, or it goes through all its parts. -/
theorem applyWithModes_cases (config : RuntimeConfig) (modes : BackendId → Option BackendMode) (state : RuntimeState) :
    (∃ error, state.applyWithModes config modes = (state, .error error)) ∨
      checkReload config state.published.config.backends state.registry = .ok () ∧
        ∃ registry report, ∃ distinct : config.Distinct,
          BackendRegistry.reconcile (config.backends.map Backend.registrySpec) state.registry = .ok (registry, report) ∧
          state.applyWithModes config modes = (state.reloaded config distinct modes registry report,
            .ok ⟨state.published.revision + 1, report⟩) := by
  unfold applyWithModes
  split
  · exact .inl ⟨_, rfl⟩
  · rename_i hcheck
    split
    · rename_i hreconcile
      rw [BackendRegistry.reconcileInPlace_error hreconcile]
      exact .inl ⟨_, rfl⟩
    · rename_i registry report hreconcile
      have hok := BackendRegistry.reconcileInPlace_ok hreconcile
      exact .inr ⟨hcheck, registry, report, distinct_of_reconcile hok, hok, rfl⟩

section Reloaded

variable {registry : BackendRegistry} {report : ReconcileReport} {distinct : config.Distinct} {id : BackendId}
  {slot : SlotState}

/-- The slots of the published state: those of the reconciled registry, with the modes of both passes. -/
theorem reloaded_slot
    (hreconcile : BackendRegistry.reconcile (config.backends.map Backend.registrySpec) state.registry =
      .ok (registry, report)) (id : BackendId) :
    (registry.find? id = none → (state.reloaded config distinct modes registry report).registry.find? id = none) ∧
      ∀ slot, registry.find? id = some slot →
        ∃ after, (state.reloaded config distinct modes registry report).registry.find? id = some after ∧
          after.registered = slot.registered ∧
          (slot.registered = true → ∀ mode, modes id = some mode → after.mode = mode) ∧
          (id ∈ report.added ++ report.revived → modes id = none → after.mode = .active) := by
  generalize hrestored : (report.added ++ report.revived).foldl (fun registry id => restoreAdded modes id registry)
    registry = restored
  have hfirst : restored.find? id = (registry.find? id).map fun slot =>
      if id ∈ report.added ++ report.revived then slot.switchMode ((modes id).getD .active) else slot := by
    rw [← hrestored]
    refine BackendRegistry.find?_foldl_reassertMode (fun id => some ((modes id).getD .active)) _ ?_ id
    intro id hid slot hslot
    obtain ⟨found, hfound, hregistered⟩ := BackendRegistry.reconcile_reported hreconcile hid
    rw [hslot, Option.some.injEq] at hfound
    rw [hfound]
    exact hregistered
  have hsecond : (state.reloaded config distinct modes registry report).registry.find? id =
      (restored.find? id).map fun slot =>
        if id ∈ BackendRegistry.registeredIds restored then ((modes id).map fun mode => slot.switchMode mode).getD slot
        else slot := by
    show (restoreModes modes _).find? id = _
    rw [hrestored]
    refine BackendRegistry.find?_foldl_reassertMode modes _ ?_ id
    intro id hid slot hslot
    obtain ⟨found, hfound, hregistered⟩ := BackendRegistry.mem_registeredIds.mp hid
    rw [hslot, Option.some.injEq] at hfound
    rw [hfound]
    exact hregistered
  refine ⟨fun hnone => by rw [hsecond, hfirst, hnone]; rfl, ?_⟩
  intro slot hslot
  rw [hslot, Option.map_some] at hfirst
  generalize hpass : (if id ∈ report.added ++ report.revived then slot.switchMode ((modes id).getD .active) else slot) =
    passed at hfirst
  have hregistered : passed.registered = slot.registered := by
    rw [← hpass]
    split
    · exact SlotState.switchMode_registered _ _
    · rfl
  rw [hfirst, Option.map_some] at hsecond
  refine ⟨_, hsecond, ?_, ?_, ?_⟩
  · split
    · cases modes id with
      | none => exact hregistered
      | some mode => exact (SlotState.switchMode_registered _ _).trans hregistered
    · exact hregistered
  · intro hslotRegistered mode hmode
    have hlisted : id ∈ BackendRegistry.registeredIds restored :=
      BackendRegistry.mem_registeredIds.mpr ⟨passed, hfirst, hregistered.trans hslotRegistered⟩
    rw [if_pos hlisted, hmode]
    exact SlotState.switchMode_mode _ _
  · intro hreported hmode
    rw [if_pos hreported, hmode] at hpass
    have hkept : ∀ listed : Prop, ∀ _ : Decidable listed,
        (if listed then ((modes id).map fun mode => passed.switchMode mode).getD passed else passed) = passed := by
      intro listed _
      rw [hmode]
      exact ite_self _
    rw [hkept, ← hpass]
    exact SlotState.switchMode_mode _ _

/-- After a reload the registered slots are those of the published backends, whatever they were before. -/
theorem reloaded_matched
    (hreconcile : BackendRegistry.reconcile (config.backends.map Backend.registrySpec) state.registry =
      .ok (registry, report)) : (state.reloaded config distinct modes registry report).Matched := by
  intro id
  obtain ⟨hnone, hsome⟩ := @reloaded_slot state config modes registry report distinct hreconcile id
  constructor
  · rintro ⟨after, hafter, hregistered⟩
    cases hslot : registry.find? id with
    | none =>
        rw [hnone hslot] at hafter
        cases hafter
    | some slot =>
        obtain ⟨found, hfound, hsame, _⟩ := hsome slot hslot
        rw [hafter, Option.some.injEq] at hfound
        rw [hfound, hsame] at hregistered
        rcases BackendRegistry.reconcile_cases hreconcile hslot with ⟨backend, hmem, rfl, _⟩ | ⟨_, hretired, _⟩
        · exact List.mem_map_of_mem hmem
        · rw [hretired] at hregistered
          cases hregistered
  · intro hid
    obtain ⟨backend, hmem, rfl⟩ := List.mem_map.mp hid
    obtain ⟨slot, hslot, hregistered⟩ := BackendRegistry.reconcile_present hreconcile hmem
    obtain ⟨after, hafter, hsame, _⟩ := hsome slot hslot
    exact ⟨after, hafter, hsame.trans hregistered⟩

end Reloaded

/-- What a successful reload promises. A backend is removed or re-pointed when no definition of the new configuration
has its id and its endpoints, and it is added or revived when no registered slot had its id. -/
structure Reloads (config : RuntimeConfig) (modes : BackendId → Option BackendMode) (state next : RuntimeState) :
    Prop where
  publishes : next.published.config = config
  revision : next.published.revision = state.published.revision + 1
  registered : next.Matched
  keys : ∀ id, (next.published.backendGenerations id).isSome = true ↔ id ∈ next.published.config.backends.map Backend.id
  instances : next.published.backendInstances.map Prod.fst = next.published.config.backends
  quiet : ∀ old ∈ state.published.config.backends,
    (∀ new ∈ config.backends, new.id = old.id → old.sameEndpoints new = false) →
      ∃ slot, state.registry.find? old.id = some slot ∧ slot.mode = .disabled ∧ slot.leases = ∅
  stored : ∀ id slot mode, next.registry.find? id = some slot → slot.registered = true → modes id = some mode →
    slot.mode = mode
  fresh : ∀ id slot, next.registry.find? id = some slot → slot.registered = true → modes id = none →
    (∀ old, state.registry.find? id = some old → old.registered = false) → slot.mode = .active
  generations : ∀ backend ∈ config.backends,
    (next.published.backendGeneration backend.id = state.published.backendGeneration backend.id ↔
      ∃ old ∈ state.published.config.backends, old.id = backend.id ∧ old.sameEndpoints backend = true)

theorem instances_of_keys (published : PublishedRuntime) :
    published.backendInstances.map Prod.fst = published.config.backends := by
  unfold PublishedRuntime.backendInstances
  rw [List.map_filterMap]
  have hsome : ∀ backend ∈ published.config.backends,
      ((published.backendGenerations backend.id).map fun generation => (backend, generation)).map Prod.fst =
        some backend := by
    intro backend hmem
    obtain ⟨generation, hgeneration⟩ :=
      Option.isSome_iff_exists.mp ((published.keys backend.id).mpr (List.mem_map_of_mem hmem))
    rw [hgeneration]
    rfl
  rw [List.filterMap_congr hsome, List.filterMap_some]

/-- A generation is kept exactly with unchanged endpoints. -/
theorem generations_of_publish {published : PublishedRuntime} (distinct : config.Distinct) {backend : Backend}
    (hmem : backend ∈ config.backends) :
    (published.publish config distinct).backendGeneration backend.id = published.backendGeneration backend.id ↔
      ∃ old ∈ published.config.backends, old.id = backend.id ∧ old.sameEndpoints backend = true := by
  have hkeeps : published.Keeps backend ↔
      ∃ old ∈ published.config.backends, old.id = backend.id ∧ old.sameEndpoints backend = true := by
    simp only [PublishedRuntime.Keeps, PublishedRuntime.backend_eq_some_iff, and_assoc]
  rw [← hkeeps]
  constructor
  · intro hsame
    by_contra hnew
    obtain ⟨generation, hassigned, hle, _⟩ := PublishedRuntime.nextGenerations_new distinct hmem hnew
    have hheld : published.backendGenerations backend.id = some generation := hsame.symm.trans hassigned
    exact absurd (published.below _ _ hheld) (Nat.not_lt.mpr hle)
  · intro hkept
    exact PublishedRuntime.nextGenerations_kept distinct hmem hkept

theorem reloads (hmatched : state.Matched) {registry : BackendRegistry} {report : ReconcileReport}
    {distinct : config.Distinct} (hcheck : checkReload config state.published.config.backends state.registry = .ok ())
    (hreconcile : BackendRegistry.reconcile (config.backends.map Backend.registrySpec) state.registry =
      .ok (registry, report)) :
    Reloads config modes state (state.reloaded config distinct modes registry report) where
  publishes := rfl
  revision := rfl
  registered := reloaded_matched hreconcile
  keys := PublishedRuntime.keys _
  instances := instances_of_keys _
  quiet := by
    intro old hold hgone
    obtain ⟨slot, hslot, _⟩ := (hmatched old.id).mpr (List.mem_map_of_mem hold)
    have hchange : ∃ change, topologyChange config old = some change := by
      unfold topologyChange
      cases hlookup : Backend.lookup old.id config.backends with
      | none => exact ⟨_, rfl⟩
      | some new =>
          obtain ⟨hmem, hid⟩ := Backend.lookup_some hlookup
          simp only [hgone new hmem hid, Bool.false_eq_true, if_false]
          exact ⟨_, rfl⟩
    obtain ⟨change, hchange⟩ := hchange
    exact ⟨slot, hslot, checkReload_ok hcheck hold hchange hslot⟩
  stored := by
    intro id after mode hafter hregistered hmode
    obtain ⟨hnone, hsome⟩ := @reloaded_slot state config modes registry report distinct hreconcile id
    cases hslot : registry.find? id with
    | none =>
        rw [hnone hslot] at hafter
        cases hafter
    | some slot =>
        obtain ⟨found, hfound, hsame, hstored, _⟩ := hsome slot hslot
        obtain rfl : after = found := Option.some.inj (hafter.symm.trans hfound)
        exact hstored (hsame ▸ hregistered) mode hmode
  fresh := by
    intro id after hafter hregistered hmode hbefore
    obtain ⟨hnone, hsome⟩ := @reloaded_slot state config modes registry report distinct hreconcile id
    cases hslot : registry.find? id with
    | none =>
        rw [hnone hslot] at hafter
        cases hafter
    | some slot =>
        obtain ⟨found, hfound, hsame, _, hfresh⟩ := hsome slot hslot
        obtain rfl : after = found := Option.some.inj (hafter.symm.trans hfound)
        refine hfresh (BackendRegistry.reported_of_registered hreconcile hslot (hsame ▸ hregistered) hbefore) hmode
  generations := by
    intro backend hmem
    exact generations_of_publish distinct hmem

end RuntimeState

/-- No two backends have the same generation. -/
def Separate (generations : BackendId → Option Nat) : Prop :=
  ∀ id other generation, generations id = some generation → generations other = some generation → id = other

/-- The loop keeps generations apart: below `base` it hands out the old ones, and from `base` on each one once. -/
theorem assignGenerations_separate {current : List Backend} {generations : BackendId → Option Nat} {base : Nat}
    (hold : Separate generations) (hbelow : ∀ id generation, generations id = some generation → generation < base)
    (backends : List Backend) {assigned : BackendId → Option Nat} {next : Nat} (hbase : base ≤ next)
    (hassigned : Separate assigned)
    (hfrom : ∀ id generation, assigned id = some generation → generation < next ∧
      (generation < base → generations id = some generation)) :
    Separate (assignGenerations current generations backends (assigned, next)).1 := by
  induction backends generalizing assigned next with
  | nil => exact hassigned
  | cons backend rest ih =>
      rw [assignGenerations]
      split
      · -- the old generation: whoever else holds it already held it before
        have hown : ∀ {id generation}, generations backend.id = some generation → assigned id = some generation →
            id = backend.id := by
          intro id generation hkept hheld
          exact hold _ _ _ ((hfrom id generation hheld).2 (hbelow _ _ hkept)) hkept
        refine ih hbase ?_ ?_
        · intro id other generation hid hother
          rw [Function.update_apply] at hid hother
          split_ifs at hid hother with hfirst hsecond hsecond
          · exact hfirst.trans hsecond.symm
          · exact hfirst.trans (hown hid hother).symm
          · exact (hown hother hid).trans hsecond.symm
          · exact hassigned id other generation hid hother
        · intro id generation hid
          rw [Function.update_apply] at hid
          split_ifs at hid with hfirst
          · exact ⟨(hbelow _ _ hid).trans_le hbase, fun _ => hfirst ▸ hid⟩
          · exact hfrom id generation hid
      · refine ih (hbase.trans (Nat.le_succ next)) ?_ ?_
        · intro id other generation hid hother
          rw [Function.update_apply] at hid hother
          split_ifs at hid hother with hfirst hsecond hsecond
          · exact hfirst.trans hsecond.symm
          · cases hid
            exact absurd (hfrom other next hother).1 (lt_irrefl _)
          · cases hother
            exact absurd (hfrom id next hid).1 (lt_irrefl _)
          · exact hassigned id other generation hid hother
        · intro id generation hid
          rw [Function.update_apply] at hid
          split_ifs at hid with hfirst
          · cases hid
            exact ⟨Nat.lt_succ_self next, fun hlt => absurd (hbase.trans_lt hlt) (lt_irrefl _)⟩
          · obtain ⟨hlt, hkept⟩ := hfrom id generation hid
            exact ⟨Nat.lt_succ_of_lt hlt, hkept⟩

namespace PublishedRuntime

variable {published : PublishedRuntime} {config : RuntimeConfig} {distinct : config.Distinct}

theorem separate_fromConfig : Separate (fromConfig config distinct).backendGenerations :=
  assignGenerations_separate (fun _ _ _ hnone _ => absurd hnone (Option.some_ne_none _).symm)
    (fun _ _ hnone => absurd hnone (Option.some_ne_none _).symm) config.backends (le_refl 1)
    (fun _ _ _ hnone _ => absurd hnone (Option.some_ne_none _).symm)
    fun _ _ hnone => absurd hnone (Option.some_ne_none _).symm

theorem separate_publish (h : Separate published.backendGenerations) :
    Separate (published.publish config distinct).backendGenerations :=
  assignGenerations_separate h published.below config.backends le_rfl
    (fun _ _ _ hnone _ => absurd hnone (Option.some_ne_none _).symm)
    fun _ _ hnone => absurd hnone (Option.some_ne_none _).symm

end PublishedRuntime

namespace RuntimeState

variable {state next : RuntimeState} {action : ReloadAction}

theorem registered_replace {registry : BackendRegistry} {id : BackendId} {slot after : SlotState}
    (hslot : registry.find? id = some slot) (hid : after.spec.id = id)
    (hregistered : after.registered = slot.registered)
    (other : BackendId) :
    ((registry.put after).find? other).map SlotState.registered = (registry.find? other).map SlotState.registered := by
  rw [BackendRegistry.find?_replace hslot hid]
  split
  · rename_i hother
    rw [hother, hslot, Option.map_some, Option.map_some, hregistered]
  · rfl

/-- Between reloads nothing is registered or retired. -/
theorem step_cases (h : state.step action = some next) :
    (∃ config modes, action = .apply config modes ∧ next = (state.applyWithModes config modes).1) ∨
      next.published = state.published ∧
        ∀ id, (next.registry.find? id).map SlotState.registered =
          (state.registry.find? id).map SlotState.registered := by
  cases action with
  | apply config modes => exact .inl ⟨config, modes, rfl, (Option.some.inj h).symm⟩
  | acquire id now =>
      refine .inr ?_
      simp only [step] at h
      split at h
      · cases h
        exact ⟨rfl, fun _ => rfl⟩
      · rename_i registry lease hacquire
        cases h
        obtain ⟨slot, after, hslot, htry, rfl⟩ := BackendRegistry.tryAcquire_ok hacquire
        obtain ⟨_, _, _, rfl⟩ := SlotState.tryAcquire_ok htry
        have hid : slot.spec.id = id := BackendRegistry.slot_id hslot
        exact ⟨rfl, registered_replace hslot hid rfl⟩
  | release id key =>
      refine .inr ?_
      simp only [step, Option.bind_eq_some_iff, Option.map_eq_some_iff] at h
      obtain ⟨slot, hslot, released, hrelease, rfl⟩ := h
      unfold SlotState.release at hrelease
      split at hrelease
      · cases hrelease
        have hid : slot.spec.id = id := BackendRegistry.slot_id hslot
        exact ⟨rfl, registered_replace hslot hid rfl⟩
      · cases hrelease
  | setMode id mode =>
      refine .inr ?_
      cases h
      refine ⟨rfl, fun other => ?_⟩
      rw [BackendRegistry.find?_modify (fun slot => SlotState.restore_spec slot mode)]
      split
      · rename_i hother
        subst hother
        cases state.registry.find? other with
        | none => rfl
        | some slot => exact congrArg some (SlotState.restore_registered slot mode)
      · rfl

theorem Matched.of_registered (h : state.Matched) (hpublished : next.published = state.published)
    (hslots : ∀ id, (next.registry.find? id).map SlotState.registered =
      (state.registry.find? id).map SlotState.registered) :
    next.Matched := by
  intro id
  rw [hpublished, ← h id]
  have hmem : ∀ registry : BackendRegistry, (∃ slot, registry.find? id = some slot ∧ slot.registered = true) ↔
      (registry.find? id).map SlotState.registered = some true := fun registry => Option.map_eq_some_iff.symm
  rw [hmem, hmem, hslots]

/-- What a step can publish: nothing new, or a reload. -/
theorem step_published (h : state.step action = some next) :
    next.published = state.published ∨
      ∃ config, ∃ distinct : config.Distinct, next.published = state.published.publish config distinct := by
  rcases step_cases h with ⟨config, modes, _, rfl⟩ | ⟨hpublished, _⟩
  · rcases applyWithModes_cases config modes state with ⟨_, hrefused⟩ | ⟨_, _, _, distinct, _, hdone⟩
    · rw [hrefused]
      exact .inl rfl
    · rw [hdone]
      exact .inr ⟨config, distinct, rfl⟩
  · exact .inl hpublished

/-- A generation that a step does not keep is new. -/
theorem step_generations (h : state.step action = some next) :
    state.published.nextBackendGeneration ≤ next.published.nextBackendGeneration ∧
      ∀ id generation, next.published.backendGeneration id = some generation →
        state.published.backendGeneration id = some generation ∨
        state.published.nextBackendGeneration ≤ generation := by
  rcases step_published h with hpublished | ⟨config, distinct, hpublished⟩
  · rw [hpublished]
    exact ⟨le_rfl, fun _ _ hgeneration => .inl hgeneration⟩
  · rw [hpublished]
    refine ⟨PublishedRuntime.nextGenerations_le, ?_⟩
    intro id generation hgeneration
    by_cases hbelow : generation < state.published.nextBackendGeneration
    · exact .inl (PublishedRuntime.generation_of_publish hgeneration hbelow)
    · exact .inr (Nat.not_lt.mp hbelow)

theorem step_separate (hseparate : Separate state.published.backendGenerations) (h : state.step action = some next) :
    Separate next.published.backendGenerations := by
  rcases step_published h with hpublished | ⟨config, distinct, hpublished⟩
  · rw [hpublished]
    exact hseparate
  · rw [hpublished]
    exact PublishedRuntime.separate_publish hseparate

theorem step_matched (hmatched : state.Matched) (h : state.step action = some next) : next.Matched := by
  rcases step_cases h with ⟨config, modes, _, rfl⟩ | ⟨hpublished, hslots⟩
  · rcases applyWithModes_cases config modes state with ⟨_, hrefused⟩ | ⟨_, _, _, _, hreconcile, hdone⟩
    · rw [hrefused]
      exact hmatched
    · rw [hdone]
      exact reloaded_matched hreconcile
  · exact hmatched.of_registered hpublished hslots

end RuntimeState

/-- A generation held after a step of the record was held by the same backend before it, or by none ever before. -/
def GenerationsNew (record : List (Step RuntimeState ReloadAction)) : Prop :=
  ∀ newer step older, record = newer ++ step :: older → ∀ id generation,
    step.after.published.backendGeneration id = some generation →
      step.before.published.backendGeneration id = some generation ∨
        ∀ earlier ∈ step :: older, ∀ other, earlier.before.published.backendGeneration other ≠ some generation

/-- The invariant of a run: no generation of the past reaches the next one to assign. -/
theorem generations_of_run {record : List (Step RuntimeState ReloadAction)} {state : RuntimeState}
    (h : Run reloadSystem Free record state) :
    state.Matched ∧ Separate state.published.backendGenerations ∧ GenerationsNew record ∧
      ∀ earlier ∈ record,
        earlier.before.published.nextBackendGeneration ≤ state.published.nextBackendGeneration := by
  induction h with
  | @start state hinitial =>
      obtain ⟨config, distinct, hpublished, hregistry⟩ := hinitial
      obtain ⟨hpresent, hslots⟩ := BackendRegistry.registryFromConfig_ok hregistry
      refine ⟨?_, ?_, fun _ _ _ hsplit => absurd hsplit (by simp), fun _ hmem => absurd hmem List.not_mem_nil⟩
      · intro id
        rw [hpublished]
        constructor
        · rintro ⟨slot, hslot, _⟩
          obtain ⟨_, _, _, backend, hmem, rfl, _⟩ := hslots id slot hslot
          exact List.mem_map_of_mem hmem
        · intro hid
          obtain ⟨backend, hmem, rfl⟩ := List.mem_map.mp hid
          obtain ⟨slot, hslot⟩ := hpresent backend hmem
          exact ⟨slot, hslot, (hslots _ slot hslot).1⟩
      · rw [hpublished]
        exact PublishedRuntime.separate_fromConfig
  | @step record state next action _ _ hnext ih =>
      obtain ⟨hmatched, hseparate, hnew, hpast⟩ := ih
      obtain ⟨hgrows, hassigns⟩ := RuntimeState.step_generations hnext
      refine ⟨RuntimeState.step_matched hmatched hnext, RuntimeState.step_separate hseparate hnext, ?_, ?_⟩
      · intro newer step older hsplit id generation hheld
        cases newer with
        | cons _ newer =>
            cases hsplit
            exact hnew newer step older rfl id generation hheld
        | nil =>
            cases hsplit
            refine (hassigns id generation hheld).imp_right fun hle => ?_
            intro earlier hearlier other hother
            have hbound := earlier.before.published.below other generation hother
            rcases List.mem_cons.mp hearlier with rfl | hearlier
            · exact absurd hle (Nat.not_le.mpr hbound)
            · exact absurd ((hpast earlier hearlier).trans hle) (Nat.not_le.mpr hbound)
      · intro earlier hearlier
        rcases List.mem_cons.mp hearlier with rfl | hearlier
        · exact hgrows
        · exact (hpast earlier hearlier).trans hgrows

/-- In every state of every run a reload either fails and changes nothing or publishes what it has registered, and no
generation is ever assigned twice. -/
theorem reloads_are_atomic (record : List (Step RuntimeState ReloadAction)) (state : RuntimeState)
    (hrun : Run reloadSystem Free record state) :
    (∀ config modes error, (state.applyWithModes config modes).2 = .error error →
      (state.applyWithModes config modes).1 = state) ∧
    (∀ config modes report, (state.applyWithModes config modes).2 = .ok report →
      report.revision = state.published.revision + 1 ∧
        RuntimeState.Reloads config modes state (state.applyWithModes config modes).1) ∧
    Separate state.published.backendGenerations ∧ GenerationsNew record := by
  obtain ⟨hmatched, hseparate, hnew, _⟩ := generations_of_run hrun
  refine ⟨?_, ?_, hseparate, hnew⟩
  · intro config modes error herror
    rcases state.applyWithModes_cases config modes with ⟨_, hrefused⟩ | ⟨_, _, _, _, _, hdone⟩
    · rw [hrefused]
    · rw [hdone] at herror
      cases herror
  · intro config modes report hok
    rcases state.applyWithModes_cases config modes with ⟨_, hrefused⟩ | ⟨hcheck, _, _, _, hreconcile, hdone⟩
    · rw [hrefused] at hok
      cases hok
    · rw [hdone] at hok ⊢
      cases hok
      exact ⟨rfl, RuntimeState.reloads hmatched hcheck hreconcile⟩

def pairConfig : RuntimeConfig :=
  .new [⟨"a", ⟨"a", "/"⟩, ⟨"a", "/metrics"⟩, ⟨"a", "/v1/models"⟩, none⟩,
    ⟨"b", ⟨"b", "/"⟩, ⟨"b", "/metrics"⟩, ⟨"b", "/v1/models"⟩, none⟩]

/-- The same without the second backend. -/
def remainingConfig : RuntimeConfig := .new [⟨"a", ⟨"a", "/"⟩, ⟨"a", "/metrics"⟩, ⟨"a", "/v1/models"⟩, none⟩]

def pairRuntime : RuntimeState where
  published := .fromConfig pairConfig (by decide)
  registry := ((registryFromConfig pairConfig).toOption).getD Table.empty

theorem pairRuntime_initial : reloadSystem.initial pairRuntime := by
  refine ⟨pairConfig, by decide, rfl, ?_⟩
  cases hregistry : registryFromConfig pairConfig with
  | ok registry => simp only [pairRuntime, hregistry, Except.toOption, Option.getD_some]
  | error error =>
      have hok : (registryFromConfig pairConfig).toOption.isSome = true := by decide +kernel
      rw [hregistry] at hok
      cases hok

/-- The second backend is disabled and then removed; the first has a stored fence. -/
theorem reloads_are_atomic_removal :
    ∃ record state, Run reloadSystem Free record state ∧
      (state.applyWithModes remainingConfig fun id => if id = "a" then some .draining else none).2 =
        .ok ⟨2, ⟨[], [], [], ["b"]⟩⟩ ∧
      RuntimeState.Reloads remainingConfig (fun id => if id = "a" then some .draining else none) state
        (state.applyWithModes remainingConfig fun id => if id = "a" then some .draining else none).1 := by
  have hrun : Run reloadSystem Free _ _ :=
    .step (.setMode "b" .disabled) (.start pairRuntime_initial) trivial rfl
  refine ⟨_, _, hrun, ?_, ?_⟩
  · decide +kernel
  · exact ((reloads_are_atomic _ _ hrun).2.1 remainingConfig _ ⟨2, ⟨[], [], [], ["b"]⟩⟩ (by decide +kernel)).2

end MistralrsProxy
