import MistralrsProxy.BackendRegistry
import Mathlib.Data.Rat.Defs
import Mathlib.Logic.Function.Basic

/-! The published runtime configuration and its reload. A reload checks that every backend it removes or
re-points is disabled and idle, assigns topology generations, reconciles the registry, restores the stored
operator modes and publishes. The pieces are separate functions here, since requests run between them. -/

open Keyed

namespace MistralrsProxy

/-- A validated backend URL: plain `http`, no user information and no query. -/
structure Uri where
  authority : String
  path : String
  deriving DecidableEq, Repr

/-- `==` on URLs compares authorities without regard to ASCII case. -/
def Uri.same (left right : Uri) : Bool :=
  left.authority.toLower == right.authority.toLower && left.path == right.path

def Uri.render (uri : Uri) : String := "http://" ++ uri.authority ++ uri.path

theorem Uri.same_iff {left right : Uri} :
    left.same right = true ↔
      left.authority.toLower = right.authority.toLower ∧ left.path = right.path := by
  simp [Uri.same]

theorem Uri.same_refl (uri : Uri) : uri.same uri = true := by simp [Uri.same]

theorem Uri.same_symm {left right : Uri} (h : left.same right = true) : right.same left = true := by
  rw [Uri.same_iff] at h ⊢
  exact ⟨h.1.symm, h.2.symm⟩

theorem Uri.same_trans {left middle right : Uri} (h : left.same middle = true) (h' : middle.same right = true) :
    left.same right = true := by
  rw [Uri.same_iff] at *
  exact ⟨h.1.trans h'.1, h.2.trans h'.2⟩

/-- One validated backend definition. -/
structure Backend where
  id : BackendId
  url : Uri
  metricsUrl : Uri
  readinessUrl : Uri
  capacity : Option Nat
  deriving DecidableEq, Repr

namespace Backend

def registrySpec (backend : Backend) : BackendSpec := ⟨backend.id, backend.url.render⟩

/-- No request, metrics or readiness endpoint differs. -/
def sameEndpoints (old new : Backend) : Bool :=
  new.url.same old.url && new.metricsUrl.same old.metricsUrl && new.readinessUrl.same old.readinessUrl

/-- Lookup in the map collected from a list of definitions: the last one of an identity wins. -/
def lookup (id : BackendId) (backends : List Backend) : Option Backend :=
  backends.reverse.find? fun backend => decide (backend.id = id)

theorem lookup_some {id : BackendId} {backends : List Backend} {backend : Backend}
    (h : lookup id backends = some backend) : backend ∈ backends ∧ backend.id = id :=
  ⟨List.mem_reverse.mp (List.mem_of_find?_eq_some h), by simpa using List.find?_some h⟩

theorem lookup_none_iff {id : BackendId} {backends : List Backend} :
    lookup id backends = none ↔ id ∉ backends.map Backend.id := by
  simp [lookup]

theorem lookup_of_mem {backends : List Backend} (hnodup : (backends.map Backend.id).Nodup) {backend : Backend}
    (hmem : backend ∈ backends) : lookup backend.id backends = some backend := by
  cases hlookup : lookup backend.id backends with
  | none => exact absurd (List.mem_map_of_mem hmem) (lookup_none_iff.mp hlookup)
  | some other =>
      obtain ⟨hmem', hid⟩ := lookup_some hlookup
      rw [List.inj_on_of_nodup_map hnodup hmem' hmem hid]

end Backend

structure RoutingConfig where
  kvSoftLimit : ℚ
  deriving DecidableEq

structure TelemetryConfig where
  scrapeIntervalMs : Nat
  scrapeTimeoutMs : Nat
  staleAfterMs : Nat
  deriving DecidableEq, Repr

structure ReadinessConfig where
  probeIntervalMs : Nat
  probeTimeoutMs : Nat
  successThreshold : Nat
  failureThreshold : Nat
  deriving DecidableEq, Repr

structure RuntimeConfig where
  backends : List Backend
  routing : RoutingConfig
  telemetry : TelemetryConfig
  readiness : ReadinessConfig
  deriving DecidableEq

namespace RuntimeConfig

/-- `RuntimeConfig::new`: the given backends under the default controls. -/
def new (backends : List Backend) : RuntimeConfig where
  backends := backends
  routing := ⟨17 / 20⟩
  telemetry := ⟨1000, 750, 5000⟩
  readiness := ⟨2000, 1000, 2, 3⟩

/-- Backend ids are distinct; `parse` rejects every other configuration. -/
def Distinct (config : RuntimeConfig) : Prop := (config.backends.map Backend.id).Nodup

instance (config : RuntimeConfig) : Decidable config.Distinct :=
  inferInstanceAs (Decidable (config.backends.map Backend.id).Nodup)

end RuntimeConfig

/-- The published configuration with the topology generation of each backend. Every configured backend
has one, so that indexing the map cannot fail. -/
structure PublishedRuntime where
  config : RuntimeConfig
  revision : Nat
  backendGenerations : BackendId → Option Nat
  nextBackendGeneration : Nat
  distinct : config.Distinct
  keys : ∀ id, (backendGenerations id).isSome = true ↔ id ∈ config.backends.map Backend.id
  below : ∀ id generation, backendGenerations id = some generation → generation < nextBackendGeneration

namespace PublishedRuntime

/-- One coherent topology snapshot. -/
def backendInstances (published : PublishedRuntime) : List (Backend × Nat) :=
  published.config.backends.filterMap fun backend =>
    (published.backendGenerations backend.id).map fun generation => (backend, generation)

def backendGeneration (id : BackendId) (published : PublishedRuntime) : Option Nat :=
  published.backendGenerations id

/-- The definition published for an identity. -/
def backend (id : BackendId) (published : PublishedRuntime) : Option Backend :=
  published.config.backends.find? fun backend => decide (backend.id = id)

variable {published : PublishedRuntime} {id : BackendId} {backend : Backend}

theorem backend_eq_some_iff :
    published.backend id = some backend ↔ backend ∈ published.config.backends ∧ backend.id = id :=
  @Table.find?_eq_some_iff _ _ _ _ ⟨published.config.backends, published.distinct⟩ id backend

theorem backend_isSome_iff : (published.backend id).isSome = true ↔ id ∈ published.config.backends.map Backend.id := by
  rw [Option.isSome_iff_exists, List.mem_map]
  exact exists_congr fun backend => backend_eq_some_iff

theorem mem_backendInstances {generation : Nat} :
    (backend, generation) ∈ published.backendInstances ↔
      backend ∈ published.config.backends ∧ published.backendGenerations backend.id = some generation := by
  simp only [backendInstances, List.mem_filterMap, Option.map_eq_some_iff, Prod.mk.injEq]
  constructor
  · rintro ⟨_, hmem, _, hgeneration, rfl, rfl⟩
    exact ⟨hmem, hgeneration⟩
  · rintro ⟨hmem, hgeneration⟩
    exact ⟨backend, hmem, generation, hgeneration, rfl, rfl⟩

theorem generation_of_backend (h : published.backend id = some backend) :
    ∃ generation, published.backendGeneration id = some generation := by
  rw [← Option.isSome_iff_exists]
  show (published.backendGenerations id).isSome = true
  rw [published.keys, ← backend_isSome_iff, h]
  rfl

theorem backend_of_generation {generation : Nat} (h : published.backendGeneration id = some generation) :
    ∃ backend, published.backend id = some backend := by
  rw [← Option.isSome_iff_exists, backend_isSome_iff, ← published.keys]
  exact Option.isSome_iff_exists.mpr ⟨generation, h⟩

/-- The entry of a published backend in a topology snapshot. -/
theorem find?_backendInstances {generation : Nat} (hbackend : published.backend id = some backend)
    (hgeneration : published.backendGeneration id = some generation) :
    (published.backendInstances.find? fun entry => decide (entry.1.id = id)) = some (backend, generation) := by
  obtain ⟨hmem, rfl⟩ := backend_eq_some_iff.mp hbackend
  have hsome : ((published.backendInstances.find? fun entry => decide (entry.1.id = backend.id))).isSome = true := by
    rw [List.find?_isSome]
    exact ⟨(backend, generation), mem_backendInstances.mpr ⟨hmem, hgeneration⟩, by simp⟩
  obtain ⟨⟨found, assigned⟩, hfound⟩ := Option.isSome_iff_exists.mp hsome
  have hid : found.id = backend.id := by simpa using List.find?_some hfound
  obtain ⟨hfoundMem, hassigned⟩ := mem_backendInstances.mp (List.mem_of_find?_eq_some hfound)
  obtain rfl : found = backend := List.inj_on_of_nodup_map published.distinct hfoundMem hmem hid
  rw [hfound, Option.some.inj (hassigned.symm.trans hgeneration)]

end PublishedRuntime

/-- `apply_with_modes`, first loop over the new definitions: a backend keeps its generation exactly when
none of its endpoints differs from the current definition. -/
def assignGenerations (current : List Backend) (generations : BackendId → Option Nat) :
    List Backend → (BackendId → Option Nat) × Nat → (BackendId → Option Nat) × Nat
  | [], assigned => assigned
  | backend :: rest, (assigned, next) =>
      if (Backend.lookup backend.id current).any (·.sameEndpoints backend) then
        assignGenerations current generations rest
          (Function.update assigned backend.id (generations backend.id), next)
      else
        assignGenerations current generations rest (Function.update assigned backend.id (some next), next + 1)

theorem assignGenerations_next_le (current : List Backend) (generations : BackendId → Option Nat)
    (backends : List Backend) (assigned : BackendId → Option Nat) (next : Nat) :
    next ≤ (assignGenerations current generations backends (assigned, next)).2 := by
  induction backends generalizing assigned next with
  | nil => exact le_rfl
  | cons backend rest ih =>
      rw [assignGenerations]
      split
      · exact ih _ _
      · exact (Nat.le_succ next).trans (ih _ _)

theorem assignGenerations_of_not_mem {current backends : List Backend} {generations : BackendId → Option Nat}
    {id : BackendId} (hid : id ∉ backends.map Backend.id) (assigned : BackendId → Option Nat) (next : Nat) :
    (assignGenerations current generations backends (assigned, next)).1 id = assigned id := by
  induction backends generalizing assigned next with
  | nil => rfl
  | cons backend rest ih =>
      rw [List.map_cons, List.mem_cons, not_or] at hid
      rw [assignGenerations]
      split
      · rw [ih hid.2, Function.update_of_ne hid.1]
      · rw [ih hid.2, Function.update_of_ne hid.1]

/-- A configured backend keeps its generation or gets one that was never assigned before. -/
theorem assignGenerations_of_mem (current : List Backend) (generations : BackendId → Option Nat)
    {backends : List Backend} (hnodup : (backends.map Backend.id).Nodup) {backend : Backend} (hmem : backend ∈ backends)
    (assigned : BackendId → Option Nat) (next : Nat) :
    let result := assignGenerations current generations backends (assigned, next)
    if (Backend.lookup backend.id current).any (·.sameEndpoints backend) = true then
      result.1 backend.id = generations backend.id
    else ∃ generation, result.1 backend.id = some generation ∧ next ≤ generation ∧ generation < result.2 := by
  induction backends generalizing assigned next with
  | nil => cases hmem
  | cons head rest ih =>
      rw [List.map_cons, List.nodup_cons] at hnodup
      simp only [assignGenerations]
      rcases List.mem_cons.mp hmem with rfl | hmem
      · by_cases hkept : (Backend.lookup backend.id current).any (·.sameEndpoints backend) = true
        · rw [if_pos hkept, if_pos hkept, assignGenerations_of_not_mem hnodup.1, Function.update_self]
        · rw [if_neg hkept, if_neg hkept, assignGenerations_of_not_mem hnodup.1, Function.update_self]
          exact ⟨next, rfl, le_rfl, assignGenerations_next_le current generations rest _ (next + 1)⟩
      · by_cases hhead : (Backend.lookup head.id current).any (·.sameEndpoints head) = true
        · rw [if_pos hhead]
          exact ih hnodup.2 hmem _ _
        · rw [if_neg hhead]
          have hrest := ih hnodup.2 hmem (Function.update assigned head.id (some next)) (next + 1)
          by_cases hkept : (Backend.lookup backend.id current).any (·.sameEndpoints backend) = true
          · simpa only [if_pos hkept] using hrest
          · simp only [if_neg hkept] at hrest ⊢
            obtain ⟨generation, hassigned, hle, hlt⟩ := hrest
            exact ⟨generation, hassigned, (Nat.le_succ next).trans hle, hlt⟩

namespace PublishedRuntime

/-- The generations a reload to `config` assigns, and the next one to assign. -/
def nextGenerations (config : RuntimeConfig) (published : PublishedRuntime) : (BackendId → Option Nat) × Nat :=
  assignGenerations published.config.backends published.backendGenerations config.backends
    (fun _ => none, published.nextBackendGeneration)

variable {published : PublishedRuntime} {config : RuntimeConfig} {id : BackendId} {backend : Backend}

/-- The definition is one of the current configuration, with the same endpoints. -/
def Keeps (published : PublishedRuntime) (backend : Backend) : Prop :=
  ∃ old, published.backend backend.id = some old ∧ old.sameEndpoints backend = true

theorem keeps_iff :
    published.Keeps backend ↔
      (Backend.lookup backend.id published.config.backends).any (·.sameEndpoints backend) = true := by
  rw [Option.any_eq_true]
  constructor
  · rintro ⟨old, hold, hsame⟩
    obtain ⟨hmem, hid⟩ := backend_eq_some_iff.mp hold
    exact ⟨old, hid ▸ Backend.lookup_of_mem published.distinct hmem, hsame⟩
  · rintro ⟨old, hold, hsame⟩
    exact ⟨old, backend_eq_some_iff.mpr (Backend.lookup_some hold), hsame⟩

theorem nextGenerations_kept (hdistinct : config.Distinct) (hmem : backend ∈ config.backends)
    (hkeeps : published.Keeps backend) :
    (published.nextGenerations config).1 backend.id = published.backendGenerations backend.id := by
  have h := assignGenerations_of_mem published.config.backends published.backendGenerations hdistinct hmem
    (fun _ => none) published.nextBackendGeneration
  simp only [if_pos (keeps_iff.mp hkeeps)] at h
  exact h

theorem nextGenerations_new (hdistinct : config.Distinct) (hmem : backend ∈ config.backends)
    (hkeeps : ¬published.Keeps backend) :
    ∃ generation, (published.nextGenerations config).1 backend.id = some generation ∧
      published.nextBackendGeneration ≤ generation ∧ generation < (published.nextGenerations config).2 := by
  have h := assignGenerations_of_mem published.config.backends published.backendGenerations hdistinct hmem
    (fun _ => none) published.nextBackendGeneration
  rw [keeps_iff] at hkeeps
  simp only [if_neg hkeeps] at h
  exact h

theorem nextGenerations_none (hid : id ∉ config.backends.map Backend.id) :
    (published.nextGenerations config).1 id = none :=
  assignGenerations_of_not_mem hid _ _

theorem nextGenerations_le : published.nextBackendGeneration ≤ (published.nextGenerations config).2 :=
  assignGenerations_next_le _ _ _ _ _

/-- The publication at the end of a reload. -/
def publish (config : RuntimeConfig) (distinct : config.Distinct) (published : PublishedRuntime) :
    PublishedRuntime where
  config := config
  revision := published.revision + 1
  backendGenerations := (published.nextGenerations config).1
  nextBackendGeneration := (published.nextGenerations config).2
  distinct := distinct
  keys := by
    intro id
    by_cases hid : id ∈ config.backends.map Backend.id
    · obtain ⟨backend, hmem, rfl⟩ := List.mem_map.mp hid
      simp only [hid, iff_true]
      by_cases hkeeps : published.Keeps backend
      · rw [nextGenerations_kept distinct hmem hkeeps, published.keys, ← backend_isSome_iff]
        obtain ⟨old, hold, -⟩ := hkeeps
        rw [hold]
        rfl
      · obtain ⟨generation, hnew, -⟩ := nextGenerations_new distinct hmem hkeeps
        rw [hnew]
        rfl
    · rw [nextGenerations_none hid]
      simpa using hid
  below := by
    intro id generation hgeneration
    by_cases hid : id ∈ config.backends.map Backend.id
    · obtain ⟨backend, hmem, rfl⟩ := List.mem_map.mp hid
      by_cases hkeeps : published.Keeps backend
      · rw [nextGenerations_kept distinct hmem hkeeps] at hgeneration
        exact (published.below _ _ hgeneration).trans_le nextGenerations_le
      · obtain ⟨_, hnew, -, hlt⟩ := nextGenerations_new distinct hmem hkeeps
        rw [hgeneration, Option.some.injEq] at hnew
        rwa [hnew]
    · rw [nextGenerations_none hid] at hgeneration
      cases hgeneration

/-- A generation that was assigned before the reload was already that of the backend. -/
theorem generation_of_publish {distinct : config.Distinct} {generation : Nat}
    (h : (published.publish config distinct).backendGeneration id = some generation)
    (hbelow : generation < published.nextBackendGeneration) : published.backendGeneration id = some generation := by
  change (published.nextGenerations config).1 id = some generation at h
  by_cases hid : id ∈ config.backends.map Backend.id
  · obtain ⟨backend, hmem, rfl⟩ := List.mem_map.mp hid
    by_cases hkeeps : published.Keeps backend
    · rwa [nextGenerations_kept distinct hmem hkeeps] at h
    · obtain ⟨_, hnew, hle, _⟩ := nextGenerations_new distinct hmem hkeeps
      rw [h, Option.some.injEq] at hnew
      rw [hnew] at hbelow
      exact absurd hbelow (Nat.not_lt.mpr hle)
  · rw [nextGenerations_none hid] at h
    cases h

/-- `from_config`: generations from one on, in the order of the configuration. -/
def fromConfig (config : RuntimeConfig) (distinct : config.Distinct) : PublishedRuntime where
  config := config
  revision := 1
  backendGenerations := (assignGenerations [] (fun _ => none) config.backends (fun _ => none, 1)).1
  nextBackendGeneration := (assignGenerations [] (fun _ => none) config.backends (fun _ => none, 1)).2
  distinct := distinct
  keys := by
    intro id
    by_cases hid : id ∈ config.backends.map Backend.id
    · obtain ⟨backend, hmem, rfl⟩ := List.mem_map.mp hid
      obtain ⟨generation, hnew, -⟩ := assignGenerations_of_mem [] (fun _ => none) distinct hmem (fun _ => none) 1
      simp [hid, hnew]
    · rw [assignGenerations_of_not_mem hid]
      simpa using hid
  below := by
    intro id generation hgeneration
    by_cases hid : id ∈ config.backends.map Backend.id
    · obtain ⟨backend, hmem, rfl⟩ := List.mem_map.mp hid
      obtain ⟨_, hnew, -, hlt⟩ := assignGenerations_of_mem [] (fun _ => none) distinct hmem (fun _ => none) 1
      rw [hgeneration, Option.some.injEq] at hnew
      rwa [hnew]
    · rw [assignGenerations_of_not_mem hid] at hgeneration
      cases hgeneration

end PublishedRuntime

/-- What a rejected reload wanted to do with a backend. -/
inductive TopologyChange where
  | removed
  | changedEndpoints
  deriving DecidableEq, Repr

inductive RuntimeApplyError where
  | reconcile (error : ReconcileError)
  | backendMustBeDisabled (backendId : BackendId) (change : TopologyChange)
  deriving DecidableEq, Repr

/-- The change a new configuration makes to a current definition, if it needs the backend quiet. -/
def topologyChange (config : RuntimeConfig) (old : Backend) : Option TopologyChange :=
  match Backend.lookup old.id config.backends with
  | none => some .removed
  | some new => if old.sameEndpoints new then none else some .changedEndpoints

/-- `apply_with_modes`, the check: removals and endpoint changes are permitted only for a backend that is
disabled and locally idle. -/
def checkReload (config : RuntimeConfig) (current : List Backend) (registry : BackendRegistry) :
    Except RuntimeApplyError Unit :=
  match current.findSome? fun old =>
    (topologyChange config old).bind fun change =>
      (BackendRegistry.getRetained old.id registry).bind fun slot =>
        if slot.mode ≠ .disabled ∨ slot.leases.card ≠ 0 then
          some (RuntimeApplyError.backendMustBeDisabled old.id change)
        else none with
  | some error => .error error
  | none => .ok ()

theorem checkReload_ok {config : RuntimeConfig} {current : List Backend} {registry : BackendRegistry}
    (h : checkReload config current registry = .ok ()) {old : Backend} (hold : old ∈ current)
    {change : TopologyChange} (hchange : topologyChange config old = some change) {slot : SlotState}
    (hslot : registry.find? old.id = some slot) : slot.mode = .disabled ∧ slot.leases = ∅ := by
  unfold checkReload at h
  split at h
  · cases h
  · rename_i hnone
    have hquiet := List.findSome?_eq_none_iff.mp hnone old hold
    rw [hchange] at hquiet
    simp only [Option.bind_some, BackendRegistry.getRetained, hslot] at hquiet
    split at hquiet
    · cases hquiet
    · rename_i hok
      simp only [not_or, ne_eq, not_not] at hok
      exact ⟨hok.1, Finset.card_eq_zero.mp hok.2⟩

/-- Set a slot to a stored mode. -/
def SlotState.restore (mode : BackendMode) (slot : SlotState) : SlotState :=
  match mode with
  | .active =>
      match slot.activate with
      | .ok slot => slot
      | .error _ => slot
  | .draining => slot.beginDrain.1
  | .disabled => slot.disable

theorem SlotState.restore_of_registered {slot : SlotState} (h : slot.registered = true) (mode : BackendMode) :
    slot.restore mode = slot.switchMode mode := by
  cases mode with
  | active => simp [restore, activate, setMode, h]
  | draining => rfl
  | disabled => rfl

@[simp] theorem SlotState.restore_spec (slot : SlotState) (mode : BackendMode) :
    (slot.restore mode).spec = slot.spec := by
  cases mode with
  | active =>
      simp only [restore, activate, setMode]
      split
      · rename_i next heq
        split at heq
        · cases heq
        · cases heq
          simp
      · rfl
  | draining => simp [restore, beginDrain]
  | disabled => simp [restore, disable]

theorem SlotState.restore_registered (slot : SlotState) (mode : BackendMode) :
    (slot.restore mode).registered = slot.registered := by
  cases mode with
  | active =>
      simp only [restore, activate, setMode]
      split
      · rename_i next heq
        split at heq
        · cases heq
        · cases heq
          simp
      · rfl
  | draining => simp [restore, beginDrain]
  | disabled => simp [restore, disable]

/-- The stored mode of an added or revived backend; a missing entry means active. -/
def restoreAdded (modes : BackendId → Option BackendMode) (id : BackendId) (registry : BackendRegistry) :
    BackendRegistry := registry.update id (SlotState.restore ((modes id).getD .active))

/-- Reassert a stored fence; a missing entry keeps the current mode. -/
def reassertMode (modes : BackendId → Option BackendMode) (id : BackendId) (registry : BackendRegistry) :
    BackendRegistry :=
  match modes id with
  | none => registry
  | some mode => registry.update id (SlotState.restore mode)

/-- Identities of the registered backends, in the order of their snapshots. -/
def BackendRegistry.registeredIds (registry : BackendRegistry) : List BackendId :=
  (BackendRegistry.snapshots 0 registry).map (·.spec.id)

/-- `restore_modes`. -/
def restoreModes (modes : BackendId → Option BackendMode) (registry : BackendRegistry) : BackendRegistry :=
  (BackendRegistry.registeredIds registry).foldl (fun registry id => reassertMode modes id registry) registry

/-- The registry half of `from_config`: every configured backend, active. -/
def registryFromConfig (config : RuntimeConfig) : Except ReconcileError BackendRegistry :=
  match BackendRegistry.reconcile (config.backends.map Backend.registrySpec) Table.empty with
  | .error error => .error error
  | .ok (registry, report) =>
      .ok (report.added.foldl (fun registry id => registry.update id (SlotState.restore .active)) registry)

structure RuntimeReloadReport where
  revision : Nat
  reconciled : ReconcileReport
  deriving DecidableEq, Repr

/-- The published configuration with the registry. -/
structure RuntimeState where
  published : PublishedRuntime
  registry : BackendRegistry

theorem distinct_of_reconcile {config : RuntimeConfig} {registry : BackendRegistry}
    {result : BackendRegistry × ReconcileReport}
    (h : BackendRegistry.reconcile (config.backends.map Backend.registrySpec) registry = .ok result) :
    config.Distinct := by
  obtain ⟨desired, hentries, -⟩ := BackendRegistry.reconcile_ok h
  have hnodup := desired.nodup
  rw [hentries, List.map_map] at hnodup
  exact hnodup

namespace BackendRegistry

variable {registry : BackendRegistry} {id : BackendId} {slot : SlotState}

/-- Where the slots of a reconciled registry come from. -/
theorem reconcile_cases {config : RuntimeConfig} {next : BackendRegistry} {report : ReconcileReport}
    (h : reconcile (config.backends.map Backend.registrySpec) registry = .ok (next, report))
    (hslot : next.find? id = some slot) :
    (∃ backend ∈ config.backends, backend.id = id ∧ slot.registered = true ∧ slot.spec = backend.registrySpec ∧
        ((∃ old, registry.find? id = some old ∧ slot.mode = old.mode ∧ slot.leases = old.leases) ∨
          (registry.find? id = none ∧ id ∈ report.added ∧ slot.mode = .disabled ∧ slot.leases = ∅))) ∨
      (id ∉ config.backends.map Backend.id ∧ slot.registered = false ∧
        ∃ old, registry.find? id = some old ∧ slot = old.reconcileAbsent.1) := by
  obtain ⟨desired, hentries, rfl, rfl⟩ := reconcile_ok h
  have hspec : ∀ {spec}, desired.find? id = some spec →
      ∃ backend ∈ config.backends, backend.id = id ∧ spec = backend.registrySpec := by
    intro spec hfind
    obtain ⟨hmem, hid⟩ := Table.find?_eq_some_iff.mp hfind
    rw [hentries, List.mem_map] at hmem
    obtain ⟨backend, hbackend, rfl⟩ := hmem
    exact ⟨backend, hbackend, hid, rfl⟩
  rw [find?_reconciled] at hslot
  cases hold : registry.find? id with
  | some old =>
      simp only [hold, Option.some.injEq] at hslot
      rw [← hslot, reconcileSlot, slot_id hold]
      cases hdesired : desired.find? id with
      | some spec =>
          obtain ⟨backend, hbackend, hid, rfl⟩ := hspec hdesired
          exact .inl ⟨backend, hbackend, hid, SlotState.reconcilePresent_registered _ _,
            SlotState.reconcilePresent_spec _ _, .inl ⟨old, rfl, SlotState.reconcilePresent_mode _ _,
              SlotState.reconcilePresent_leases _ _⟩⟩
      | none =>
          refine .inr ⟨?_, SlotState.reconcileAbsent_registered old, old, rfl, rfl⟩
          rw [Table.find?_eq_none_iff, hentries] at hdesired
          intro hid
          obtain ⟨backend, hbackend, hid⟩ := List.mem_map.mp hid
          exact hdesired backend.registrySpec (List.mem_map_of_mem hbackend) hid
  | none =>
      simp only [hold, Option.map_eq_some_iff] at hslot
      obtain ⟨spec, hdesired, rfl⟩ := hslot
      obtain ⟨backend, hbackend, hid, hbackendSpec⟩ := hspec hdesired
      exact .inl ⟨backend, hbackend, hid, rfl, hbackendSpec, .inr ⟨rfl, mem_added.mpr ⟨hold, spec, hdesired⟩, rfl, rfl⟩⟩

/-- Every backend of the configuration is registered afterwards. -/
theorem reconcile_present {config : RuntimeConfig} {next : BackendRegistry} {report : ReconcileReport}
    (h : reconcile (config.backends.map Backend.registrySpec) registry = .ok (next, report)) {backend : Backend}
    (hmem : backend ∈ config.backends) : ∃ slot, next.find? backend.id = some slot ∧ slot.registered = true := by
  obtain ⟨desired, hentries, rfl, rfl⟩ := reconcile_ok h
  have hdesired : desired.find? backend.id = some backend.registrySpec := by
    rw [Table.find?_eq_some_iff, hentries]
    exact ⟨List.mem_map_of_mem hmem, rfl⟩
  rw [find?_reconciled]
  cases hold : registry.find? backend.id with
  | some old =>
      refine ⟨_, rfl, ?_⟩
      rw [reconcileSlot, slot_id hold, hdesired]
      exact SlotState.reconcilePresent_registered _ _
  | none => exact ⟨SlotState.new backend.registrySpec .disabled, by rw [hdesired]; rfl, rfl⟩

/-- The added and revived identities are registered afterwards. -/
theorem reconcile_reported {config : RuntimeConfig} {next : BackendRegistry} {report : ReconcileReport}
    (h : reconcile (config.backends.map Backend.registrySpec) registry = .ok (next, report))
    (hid : id ∈ report.added ++ report.revived) : ∃ slot, next.find? id = some slot ∧ slot.registered = true := by
  have hdesired : ∃ backend ∈ config.backends, backend.id = id := by
    obtain ⟨desired, hentries, rfl, rfl⟩ := reconcile_ok h
    have hspec : ∃ spec, desired.find? id = some spec := by
      rcases List.mem_append.mp hid with hid | hid
      · exact (mem_added.mp hid).2
      · exact (mem_revived.mp hid).2
    obtain ⟨spec, hspec⟩ := hspec
    obtain ⟨hmem, rfl⟩ := Table.find?_eq_some_iff.mp hspec
    rw [hentries, List.mem_map] at hmem
    obtain ⟨backend, hbackend, rfl⟩ := hmem
    exact ⟨backend, hbackend, rfl⟩
  obtain ⟨backend, hbackend, rfl⟩ := hdesired
  exact reconcile_present h hbackend

theorem mem_registeredIds :
    id ∈ registeredIds registry ↔ ∃ slot, registry.find? id = some slot ∧ slot.registered = true := by
  simp only [registeredIds, List.mem_map]
  constructor
  · rintro ⟨snapshot, hsnapshot, rfl⟩
    obtain ⟨slot, hslot, hregistered, _⟩ := mem_snapshots.mp hsnapshot
    exact ⟨slot, hslot, hregistered⟩
  · rintro ⟨slot, hslot, hregistered⟩
    have hid := slot_id hslot
    exact ⟨slot.snapshot 0, mem_snapshots.mpr ⟨slot, hid.symm ▸ hslot, hregistered, rfl⟩, hid⟩

/-- Reasserting modes on registered slots one after the other sets each of them once. -/
theorem find?_foldl_reassertMode (modes : BackendId → Option BackendMode) (ids : List BackendId)
    (hregistered : ∀ id ∈ ids, ∀ slot, registry.find? id = some slot → slot.registered = true) (id : BackendId) :
    (ids.foldl (fun registry id => reassertMode modes id registry) registry).find? id =
      (registry.find? id).map fun slot =>
        if id ∈ ids then ((modes id).map fun mode => slot.switchMode mode).getD slot else slot := by
  induction ids generalizing registry with
  | nil => simp
  | cons head rest ih =>
      have hhead : ∀ other, (reassertMode modes head registry).find? other =
          (registry.find? other).map fun slot =>
            if other = head then ((modes other).map fun mode => slot.switchMode mode).getD slot else slot := by
        intro other
        unfold reassertMode
        cases hmodes : modes head with
        | none =>
            by_cases hother : other = head
            · subst hother
              simp [hmodes]
            · simp [hother]
        | some mode =>
            rw [find?_modify (fun slot => SlotState.restore_spec slot mode)]
            by_cases hother : other = head
            · subst hother
              cases hslot : registry.find? other with
              | none => simp
              | some slot =>
                  simp [hmodes, SlotState.restore_of_registered (hregistered other List.mem_cons_self slot hslot)]
            · simp [hother]
      rw [List.foldl_cons, ih, hhead]
      · cases hslot : registry.find? id with
        | none => rfl
        | some slot =>
            cases hmodes : modes id with
            | none => simp
            | some mode =>
                by_cases hid : id = head
                · simp [hid, SlotState.switchMode_of_mode]
                · simp [hid]
      · intro other hother slot hslot
        rw [hhead] at hslot
        obtain ⟨before, hbefore, rfl⟩ := Option.map_eq_some_iff.mp hslot
        have hbefore := hregistered other (List.mem_cons_of_mem _ hother) before hbefore
        split
        · cases modes other with
          | none => exact hbefore
          | some mode => simpa using hbefore
        · exact hbefore

/-- The registry of a process that has just started. -/
theorem registryFromConfig_ok {config : RuntimeConfig} (h : registryFromConfig config = .ok registry) :
    (∀ backend ∈ config.backends, ∃ slot, registry.find? backend.id = some slot) ∧
      ∀ id slot, registry.find? id = some slot → slot.registered = true ∧ slot.mode = .active ∧ slot.leases = ∅ ∧
        ∃ backend ∈ config.backends, backend.id = id ∧ slot.spec = backend.registrySpec := by
  unfold registryFromConfig at h
  split at h
  · cases h
  · rename_i reconciled report hreconcile
    cases h
    have hnew : ∀ id slot, reconciled.find? id = some slot → slot.registered = true ∧ slot.leases = ∅ ∧
        id ∈ report.added ∧ ∃ backend ∈ config.backends, backend.id = id ∧ slot.spec = backend.registrySpec := by
      intro id slot hslot
      rcases reconcile_cases hreconcile hslot with ⟨backend, hmem, hid, hregistered, hspec, horigin⟩ |
        ⟨_, _, old, hold, _⟩
      · rcases horigin with ⟨old, hold, _⟩ | ⟨_, hadded, _, hleases⟩
        · cases hold
        · exact ⟨hregistered, hleases, hadded, backend, hmem, hid, hspec⟩
      · cases hold
    have hfold : ∀ id, (report.added.foldl (fun registry id => registry.update id (SlotState.restore .active))
        reconciled).find? id = (reconciled.find? id).map fun slot =>
          if id ∈ report.added then slot.switchMode .active else slot :=
      find?_foldl_reassertMode (fun _ => some .active) report.added (fun id _ slot hslot => (hnew id slot hslot).1)
    refine ⟨?_, ?_⟩
    · intro backend hmem
      obtain ⟨slot, hslot, _⟩ := reconcile_present hreconcile hmem
      exact ⟨_, by rw [hfold, hslot]; rfl⟩
    · intro id slot hslot
      rw [hfold] at hslot
      obtain ⟨before, hbefore, rfl⟩ := Option.map_eq_some_iff.mp hslot
      obtain ⟨hregistered, hleases, hadded, hbackend⟩ := hnew id before hbefore
      simp only [if_pos hadded, SlotState.switchMode_registered, SlotState.switchMode_mode,
        SlotState.switchMode_leases, SlotState.switchMode_spec]
      exact ⟨hregistered, trivial, hleases, hbackend⟩

end BackendRegistry

end MistralrsProxy
