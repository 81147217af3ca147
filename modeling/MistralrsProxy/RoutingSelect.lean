import MistralrsProxy.RoutingLive

/-! Backend selection: registry snapshots are filtered to the eligible candidates, scored, ordered, and
tried one after the other for a circuit permit and a lease. As soon as one candidate is scored the
unscored ones are dropped, before anything is known about permits. -/

namespace MistralrsProxy

/-- `stale_after_ms` as a duration. -/
def TelemetryConfig.staleAfter (config : TelemetryConfig) : Nat := config.staleAfterMs * 1000000

/-- `duration_ms`. -/
def durationMs (duration : Nat) : Nat := min (duration / 1000000) u64Max

structure CandidateMetrics where
  running : Nat
  waiting : Nat
  capacity : Option Nat
  kvRatio : Option (Option ℚ)
  age : Nat
  deriving DecidableEq

structure Candidate where
  id : BackendId
  localActive : Nat
  score : Option LeastPressureV1Score
  metrics : Option CandidateMetrics
  deriving DecidableEq

inductive RoutingReason where
  | freshMetricsLowestPressure
  | leastInflightFallback
  deriving DecidableEq, Repr

def RoutingReason.text : RoutingReason → String
  | .freshMetricsLowestPressure => "fresh_metrics_lowest_pressure"
  | .leastInflightFallback => "least_inflight_fallback"

structure RoutingDecision where
  backendId : BackendId
  routingPolicy : String
  routingReason : RoutingReason
  eligibleBackendCount : Nat
  backendPressureAtDispatch : Option ℚ
  backendRunningAtDispatch : Option Nat
  backendWaitingAtDispatch : Option Nat
  backendCapacityAtDispatch : Option Nat
  backendKvPressureAtDispatch : Option (Option ℚ)
  backendMetricsAgeMs : Option Nat
  backendProxyActiveAtDispatch : Nat
  deriving DecidableEq

structure RouteSelection where
  lease : BackendLease
  decision : RoutingDecision
  circuitPermit : CircuitPermit
  deriving DecidableEq

/-- The smaller of the reported and the configured capacity, or the one that is there. -/
def effectiveCapacity : Option Nat → Option Nat → Option Nat
  | some reported, some configured => some (min reported configured)
  | some reported, none => some reported
  | none, configured => configured

def scoreCandidate (snapshot : BackendSnapshot) (live : LiveBackend) (config : Backend)
    (now staleAfter : Nat) (kvSoftLimit : ℚ) : Option LeastPressureV1Score × Option CandidateMetrics :=
  match live.metrics with
  | none => (none, none)
  | some observation =>
      let age := now - observation.observedAt
      if staleAfter < age then (none, none)
      else
        let effective := effectiveCapacity observation.metrics.sequencesCapacity config.capacity
        let newSequences := snapshot.totalAcquired - observation.dispatchesAtObservation
        let score := effective.bind fun capacity =>
          (leastPressureV1WithSoftLimit kvSoftLimit
            (observation.metrics.pressureInputs (min (newSequences + 1) u64Max) capacity)).toOption
        (score, some ⟨observation.metrics.sequencesRunning, observation.metrics.sequencesWaiting, effective,
          observation.metrics.kvCacheRatio, age⟩)

/-- The candidate a snapshot gives rise to: an active backend that is ready, whose circuit is not open and
whose live state belongs to the generation the configuration was read with. -/
def candidateOf (instances : List (Backend × Nat)) (inner : RoutingInner) (now staleAfter : Nat)
    (kvSoftLimit : ℚ) (snapshot : BackendSnapshot) : Option Candidate :=
  if snapshot.mode ≠ .active then none
  else
    (inner.backends snapshot.spec.id).bind fun live =>
      if live.readiness ≠ .ready ∨ live.circuit.state now = .opened then none
      else
        (instances.find? fun entry => decide (entry.1.id = snapshot.spec.id)).bind fun (config, generation) =>
          if live.topologyGeneration ≠ generation then none
          else
            let scored := scoreCandidate snapshot live config now staleAfter kvSoftLimit
            some ⟨snapshot.spec.id, snapshot.localActive, scored.1, scored.2⟩

/-- Stable ids establish an order, which the parity of the cursor flips. -/
def rotatedLe (cursor : Nat) (left right : BackendId) : Bool :=
  if cursor % 2 = 0 then decide (left ≤ right) else decide (right ≤ left)

def inflightLe (cursor : Nat) (left right : Candidate) : Bool :=
  decide (left.localActive < right.localActive) ||
    (left.localActive == right.localActive && rotatedLe cursor left.id right.id)

def pressureLe (cursor : Nat) (left right : Candidate) : Bool :=
  match left.score, right.score with
  | some leftScore, some rightScore =>
      decide (leftScore.pressure < rightScore.pressure) ||
        (decide (leftScore.pressure = rightScore.pressure) && inflightLe cursor left right)
  | _, _ => inflightLe cursor left right

/-- Once a candidate is scored only scored ones remain. -/
def orderCandidates (cursor : Nat) (candidates : List Candidate) : List Candidate :=
  if candidates.any (·.score.isSome) then
    (candidates.filter (·.score.isSome)).insertionSort (pressureLe cursor · ·)
  else candidates.insertionSort (inflightLe cursor · ·)

/-- A circuit that can issue a permit at the instant. -/
def Circuit.canIssue (now : Nat) : Circuit → Bool
  | .closed => true
  | .opened deadline => decide (deadline ≤ now)
  | .halfOpen trialInFlight => !trialInFlight

/-- Everything `select` reads and writes. -/
structure RoutingState where
  runtime : RuntimeState
  inner : RoutingInner

def decisionOf (eligibleBackendCount : Nat) (candidate : Candidate) : RoutingDecision where
  backendId := candidate.id
  routingPolicy := "least-pressure-v1"
  routingReason := if candidate.score.isSome then .freshMetricsLowestPressure else .leastInflightFallback
  eligibleBackendCount := eligibleBackendCount
  backendPressureAtDispatch := candidate.score.map (·.pressure)
  backendRunningAtDispatch := candidate.metrics.map (·.running)
  backendWaitingAtDispatch := candidate.metrics.map (·.waiting)
  backendCapacityAtDispatch := candidate.metrics.bind (·.capacity)
  backendKvPressureAtDispatch := candidate.metrics.bind (·.kvRatio)
  backendMetricsAgeMs := candidate.metrics.map fun metrics => durationMs metrics.age
  backendProxyActiveAtDispatch := candidate.localActive + 1

namespace RoutingState

/-- One turn of the last loop of `select`: a permit, then a lease; a permit without a lease is dropped. -/
def tryCandidate (eligible now : Nat) (candidate : Candidate) (state : RoutingState) :
    RoutingState × Option RouteSelection :=
  match state.inner.tryCircuitPermit candidate.id now with
  | (inner, none) => ({ state with inner := inner }, none)
  | (inner, some permit) =>
      match BackendRegistry.tryAcquire candidate.id now state.runtime.registry with
      | .error _ => ({ state with inner := inner.dropPermit permit now }, none)
      | .ok (registry, lease) =>
          (⟨{ state.runtime with registry := registry }, inner⟩,
            some ⟨lease, decisionOf eligible candidate, permit⟩)

/-- The candidates in order, until one gets a permit and a lease; each is tried at its own instant. -/
def tryCandidates (eligible : Nat) (later : BackendId → Nat) :
    List Candidate → RoutingState → RoutingState × Option RouteSelection
  | [], state => (state, none)
  | candidate :: rest, state =>
      match state.tryCandidate eligible (later candidate.id) candidate with
      | (state, some selection) => (state, some selection)
      | (state, none) => state.tryCandidates eligible later rest

/-- The live state as every critical section of the routing mutex sees it after synchronising. -/
def synchronised (state : RoutingState) : RoutingInner := state.inner.ensureBackends state.runtime.published

/-- The candidates `select` finds at an instant when nothing else is running. -/
def candidates (now : Nat) (state : RoutingState) : List Candidate :=
  (BackendRegistry.snapshots now state.runtime.registry).filterMap
    (candidateOf state.runtime.published.backendInstances state.synchronised now
      state.runtime.published.config.telemetry.staleAfter state.runtime.published.config.routing.kvSoftLimit)

/-- `RoutingState::select` with nothing else running during the call. A candidate is tried some time after
the call has read the clock. -/
def select (now : Nat) (delay : BackendId → Nat) (state : RoutingState) : RoutingState × Option RouteSelection :=
  let candidates := state.candidates now
  let inner := state.synchronised
  let cursor := inner.rotatingCursor
  let advanced : RoutingState :=
    { state with inner := { inner with rotatingCursor := (cursor + 1) % 2 ^ 64 } }
  if candidates.isEmpty then (advanced, none)
  else advanced.tryCandidates candidates.length (fun id => now + delay id) (orderCandidates cursor candidates)

/-- A registered, active backend that is ready under its current generation; its live state. -/
def Ready (state : RoutingState) (id : BackendId) (live : LiveBackend) : Prop :=
  (∃ slot, state.runtime.registry.find? id = some slot ∧ slot.registered = true ∧ slot.mode = .active) ∧
    state.synchronised.backends id = some live ∧ live.readiness = .ready

/-- The backend could take a request now. -/
def Usable (now : Nat) (state : RoutingState) (id : BackendId) : Prop :=
  ∃ live, state.Ready id live ∧ live.circuit.canIssue now = true

/-- The backend is a candidate, with or without a score. -/
def IsCandidate (now : Nat) (scored : Bool) (state : RoutingState) (id : BackendId) : Prop :=
  ∃ candidate ∈ state.candidates now, candidate.id = id ∧ candidate.score.isSome = scored

/-- The circuit of the backend is half-open and its trial has not reported yet. -/
def TrialInFlight (state : RoutingState) (id : BackendId) : Prop :=
  ∃ live, state.synchronised.backends id = some live ∧ live.circuit = .halfOpen true

end RoutingState

theorem Circuit.canIssue_mono {circuit : Circuit} {now later : Nat} (h : circuit.canIssue now = true)
    (hle : now ≤ later) : circuit.canIssue later = true := by
  cases circuit with
  | closed => rfl
  | opened deadline =>
      simp only [canIssue, decide_eq_true_eq] at h ⊢
      exact h.trans hle
  | halfOpen trialInFlight => exact h

/-- A circuit that is not open either issues permits or has its trial in flight. -/
theorem Circuit.state_ne_opened_iff {circuit : Circuit} {now : Nat} :
    circuit.state now ≠ .opened ↔ circuit.canIssue now = true ∨ circuit = .halfOpen true := by
  cases circuit with
  | closed => simp [state, canIssue]
  | opened deadline =>
      simp only [state, canIssue, decide_eq_true_eq, reduceCtorEq, or_false]
      split <;> simp [*]
  | halfOpen trialInFlight => cases trialInFlight <;> simp [state, canIssue]

theorem Breaker.tryCircuitPermit_isSome (id : BackendId) (now : Nat) (breaker : Breaker) :
    (breaker.tryCircuitPermit id now).isSome = breaker.circuit.canIssue now := by
  unfold tryCircuitPermit
  cases breaker.circuit with
  | closed => rfl
  | opened deadline =>
      simp only [Circuit.canIssue]
      split <;> simp [*]
  | halfOpen trialInFlight => cases trialInFlight <;> rfl

namespace RoutingInner

variable {inner : RoutingInner} {id : BackendId} {live : LiveBackend} {now : Nat}

theorem tryCircuitPermit_none (hlive : inner.backends id = some live) (h : live.circuit.canIssue now = false) :
    inner.tryCircuitPermit id now = (inner, none) := by
  have hnone : live.toBreaker.tryCircuitPermit id now = none := by
    rw [← Option.isNone_iff_eq_none, ← Option.not_isSome, Breaker.tryCircuitPermit_isSome, h]
    rfl
  simp only [tryCircuitPermit, updateBreaker, hlive, hnone, Option.join_some]
  rw [← hlive, Function.update_eq_self]

theorem tryCircuitPermit_some (hlive : inner.backends id = some live) (h : live.circuit.canIssue now = true) :
    ∃ next permit, inner.tryCircuitPermit id now = (next, some permit) := by
  rw [← Breaker.tryCircuitPermit_isSome id, Option.isSome_iff_exists] at h
  obtain ⟨⟨breaker, permit⟩, hpermit⟩ := h
  simp only [tryCircuitPermit, updateBreaker, hlive, hpermit, Option.join_some]
  exact ⟨_, _, rfl⟩

end RoutingInner

namespace RoutingState

variable {state : RoutingState} {now : Nat} {id : BackendId}

theorem candidateOf_some {instances : List (Backend × Nat)} {inner : RoutingInner} {staleAfter : Nat} {kvSoftLimit : ℚ}
    {snapshot : BackendSnapshot} {candidate : Candidate}
    (h : candidateOf instances inner now staleAfter kvSoftLimit snapshot = some candidate) :
    snapshot.mode = .active ∧ ∃ live config, inner.backends snapshot.spec.id = some live ∧
      live.readiness = .ready ∧ live.circuit.state now ≠ .opened ∧
      (instances.find? fun entry => decide (entry.1.id = snapshot.spec.id)) = some (config, live.topologyGeneration) ∧
      candidate = ⟨snapshot.spec.id, snapshot.localActive,
        (scoreCandidate snapshot live config now staleAfter kvSoftLimit).1,
        (scoreCandidate snapshot live config now staleAfter kvSoftLimit).2⟩ := by
  unfold candidateOf at h
  split at h
  · cases h
  · rename_i hmode
    obtain ⟨live, hlive, hcandidate⟩ := Option.bind_eq_some_iff.mp h
    split at hcandidate
    · cases hcandidate
    · rename_i hready
      simp only [not_or, ne_eq, not_not] at hmode hready
      obtain ⟨⟨config, generation⟩, hentry, hcandidate⟩ := Option.bind_eq_some_iff.mp hcandidate
      simp only at hcandidate
      split at hcandidate
      · cases hcandidate
      · rename_i hgeneration
        cases hcandidate
        obtain rfl := not_not.mp hgeneration
        exact ⟨hmode, live, config, hlive, hready.1, hready.2, hentry, rfl⟩

theorem candidate_ready {candidate : Candidate} (h : candidate ∈ state.candidates now) :
    ∃ live, state.Ready candidate.id live ∧ live.circuit.state now ≠ .opened := by
  simp only [candidates, List.mem_filterMap] at h
  obtain ⟨snapshot, hsnapshot, hcandidate⟩ := h
  obtain ⟨slot, hslot, hregistered, rfl⟩ := BackendRegistry.mem_snapshots.mp hsnapshot
  obtain ⟨hmode, live, config, hlive, hready, hcircuit, _, rfl⟩ := candidateOf_some hcandidate
  exact ⟨live, ⟨⟨slot, hslot, hregistered, hmode⟩, hlive, hready⟩, hcircuit⟩

theorem exists_candidate {live : LiveBackend} (hready : state.Ready id live)
    (hcircuit : live.circuit.state now ≠ .opened) : ∃ candidate ∈ state.candidates now, candidate.id = id := by
  obtain ⟨⟨slot, hslot, hregistered, hmode⟩, hlive, hready⟩ := hready
  have hid : slot.spec.id = id := BackendRegistry.slot_id hslot
  have hgeneration := (RoutingInner.ensureBackends_some hlive).1
  obtain ⟨backend, hbackend⟩ := PublishedRuntime.backend_of_generation hgeneration
  have hentry := PublishedRuntime.find?_backendInstances hbackend hgeneration
  have hsnapshot : slot.snapshot now ∈ BackendRegistry.snapshots now state.runtime.registry := by
    refine BackendRegistry.mem_snapshots.mpr ⟨slot, ?_, hregistered, rfl⟩
    show state.runtime.registry.find? slot.spec.id = some slot
    rw [hid, hslot]
  have hcandidate : ∃ candidate, candidateOf state.runtime.published.backendInstances state.synchronised now
      state.runtime.published.config.telemetry.staleAfter state.runtime.published.config.routing.kvSoftLimit
      (slot.snapshot now) = some candidate ∧ candidate.id = id := by
    simp only [candidateOf, SlotState.snapshot, hmode, hid, hlive, hready, hcircuit, hentry, ne_eq,
      not_true_eq_false, or_self, if_false, Option.bind_some, Option.some.injEq]
    exact ⟨_, rfl, rfl⟩
  obtain ⟨candidate, hcandidate, hcandidateId⟩ := hcandidate
  exact ⟨candidate, List.mem_filterMap.mpr ⟨slot.snapshot now, hsnapshot, hcandidate⟩, hcandidateId⟩

theorem mem_orderCandidates {cursor : Nat} {candidates : List Candidate} {candidate : Candidate} :
    candidate ∈ orderCandidates cursor candidates ↔
      candidate ∈ candidates ∧ ((∃ other ∈ candidates, other.score.isSome = true) → candidate.score.isSome = true) := by
  unfold orderCandidates
  split
  · rename_i hany
    simp only [List.any_eq_true] at hany
    simp only [List.mem_insertionSort, List.mem_filter, hany, true_implies]
  · rename_i hany
    simp only [List.any_eq_true] at hany
    simp only [List.mem_insertionSort, hany, false_implies, and_true]

/-- A candidate that gets a permit also gets its lease, as long as its backend is registered and active. -/
theorem tryCandidate_of_canIssue {candidate : Candidate} {live : LiveBackend} {slot : SlotState} (eligible : Nat)
    (hslot : state.runtime.registry.find? candidate.id = some slot) (hregistered : slot.registered = true)
    (hmode : slot.mode = .active) (hlive : state.inner.backends candidate.id = some live)
    (h : live.circuit.canIssue now = true) :
    ∃ next selection, state.tryCandidate eligible now candidate = (next, some selection) := by
  obtain ⟨inner, permit, hpermit⟩ := RoutingInner.tryCircuitPermit_some hlive h
  obtain ⟨after, hacquire⟩ := SlotState.tryAcquire_of_active hregistered hmode now
  simp only [tryCandidate, hpermit, BackendRegistry.tryAcquire, BackendRegistry.getRetained, hslot, hacquire]
  exact ⟨_, _, rfl⟩

/-- Trying registered, active candidates fails exactly when no circuit of theirs can issue a permit. -/
theorem tryCandidates_none_iff {ordered : List Candidate} (eligible : Nat) (later : BackendId → Nat)
    (h : ∀ candidate ∈ ordered, (∃ slot, state.runtime.registry.find? candidate.id = some slot ∧
      slot.registered = true ∧ slot.mode = .active) ∧ ∃ live, state.inner.backends candidate.id = some live) :
    (state.tryCandidates eligible later ordered).2 = none ↔
      ∀ candidate ∈ ordered, ∀ live, state.inner.backends candidate.id = some live →
        live.circuit.canIssue (later candidate.id) = false := by
  induction ordered with
  | nil => simp [tryCandidates]
  | cons candidate rest ih =>
      obtain ⟨⟨slot, hslot, hregistered, hmode⟩, live, hlive⟩ := h candidate List.mem_cons_self
      rw [List.forall_mem_cons]
      cases hissue : live.circuit.canIssue (later candidate.id) with
      | true =>
          obtain ⟨next, selection, htry⟩ := tryCandidate_of_canIssue eligible hslot hregistered hmode hlive hissue
          simp only [tryCandidates, htry, reduceCtorEq, false_iff, not_and]
          intro hhead
          have := hhead live hlive
          simp [hissue] at this
      | false =>
          have htry : state.tryCandidate eligible (later candidate.id) candidate = (state, none) := by
            simp only [tryCandidate, RoutingInner.tryCircuitPermit_none hlive hissue]
          simp only [tryCandidates, htry]
          rw [ih (fun other hother => h other (List.mem_cons_of_mem _ hother))]
          refine ⟨fun hrest => ⟨fun other hother => ?_, hrest⟩, fun hall => hall.2⟩
          rw [hlive, Option.some.injEq] at hother
          rw [← hother, hissue]

/-- Selection fails exactly when every candidate left after scoring has its trial in flight. -/
theorem select_none_iff (delay : BackendId → Nat) :
    (state.select now delay).2 = none ↔
      ∀ candidate ∈ orderCandidates state.synchronised.rotatingCursor (state.candidates now),
        state.TrialInFlight candidate.id := by
  unfold select
  dsimp only
  split
  · rename_i hempty
    rw [List.isEmpty_iff] at hempty
    simp [hempty, orderCandidates]
  · have hready : ∀ candidate ∈ orderCandidates state.synchronised.rotatingCursor (state.candidates now),
        ∃ live, state.Ready candidate.id live ∧ live.circuit.state now ≠ .opened :=
      fun candidate hmem => candidate_ready (mem_orderCandidates.mp hmem).1
    rw [tryCandidates_none_iff]
    · refine forall₂_congr fun candidate hmem => ?_
      obtain ⟨live, ⟨-, hlive, -⟩, hcircuit⟩ := hready candidate hmem
      constructor
      · intro hnone
        rcases Circuit.state_ne_opened_iff.mp hcircuit with hissue | htrial
        · have hlater := Circuit.canIssue_mono hissue (Nat.le_add_right now (delay candidate.id))
          rw [hnone live hlive] at hlater
          cases hlater
        · exact ⟨live, hlive, htrial⟩
      · rintro ⟨other, hother, htrial⟩ found hfound
        change state.synchronised.backends candidate.id = some found at hfound
        rw [hother, Option.some.injEq] at hfound
        rw [← hfound, htrial]
        rfl
    · intro candidate hmem
      obtain ⟨live, ⟨hslot, hlive, -⟩, -⟩ := hready candidate hmem
      exact ⟨hslot, live, hlive⟩

/-- A usable backend is a candidate without a trial in flight, and conversely. -/
theorem usable_iff : state.Usable now id ↔
    (∃ candidate ∈ state.candidates now, candidate.id = id) ∧ ¬state.TrialInFlight id := by
  constructor
  · rintro ⟨live, hready, hissue⟩
    refine ⟨exists_candidate hready (Circuit.state_ne_opened_iff.mpr (Or.inl hissue)), ?_⟩
    rintro ⟨other, hother, htrial⟩
    rw [hready.2.1, Option.some.injEq] at hother
    rw [hother, htrial] at hissue
    cases hissue
  · rintro ⟨⟨candidate, hmem, rfl⟩, htrial⟩
    obtain ⟨live, hready, hcircuit⟩ := candidate_ready hmem
    refine ⟨live, hready, (Circuit.state_ne_opened_iff.mp hcircuit).resolve_right fun hhalf => ?_⟩
    exact htrial ⟨live, hready.2.1, hhalf⟩

end RoutingState

/-- `select` returns nothing only when no backend could have taken the request: in every routing state this
holds exactly when either no candidate is scored, or some scored candidate has no trial in flight, or all
unscored candidates have theirs in flight too. -/
theorem select_complete_iff (state : RoutingState) (now : Nat) (delay : BackendId → Nat) :
    ((state.select now delay).2 = none → ∀ id, ¬state.Usable now id) ↔
      ((∃ id, state.IsCandidate now true id) →
        (∃ id, state.IsCandidate now true id ∧ ¬state.TrialInFlight id) ∨
          ∀ id, state.IsCandidate now false id → state.TrialInFlight id) := by
  rw [RoutingState.select_none_iff]
  simp only [RoutingState.mem_orderCandidates]
  constructor
  · rintro hcomplete ⟨_, scored, hscored, rfl, hscore⟩
    by_cases hfree : ∃ id, state.IsCandidate now true id ∧ ¬state.TrialInFlight id
    · exact Or.inl hfree
    · apply Or.inr
      rintro _ ⟨candidate, hmem, rfl, -⟩
      by_contra htrial
      refine hcomplete ?_ candidate.id (RoutingState.usable_iff.mpr ⟨⟨candidate, hmem, rfl⟩, htrial⟩)
      rintro other ⟨hother, hretained⟩
      by_contra hidle
      exact hfree ⟨other.id, ⟨other, hother, rfl, hretained ⟨scored, hscored, hscore⟩⟩, hidle⟩
  · rintro hcondition hnone id husable
    obtain ⟨⟨candidate, hmem, rfl⟩, htrial⟩ := RoutingState.usable_iff.mp husable
    by_cases hscored : ∃ other ∈ state.candidates now, other.score.isSome = true
    · have ⟨other, hother, hscore⟩ := hscored
      rcases hcondition ⟨other.id, other, hother, rfl, hscore⟩ with ⟨_, ⟨free, hfree, rfl, hfreeScore⟩, hidle⟩ | hall
      · exact hidle (hnone free ⟨hfree, fun _ => hfreeScore⟩)
      · cases hcandidate : candidate.score.isSome with
        | true => exact htrial (hnone candidate ⟨hmem, fun _ => hcandidate⟩)
        | false => exact htrial (hall candidate.id ⟨candidate, hmem, rfl, hcandidate⟩)
    · exact htrial (hnone candidate ⟨hmem, fun h => absurd h hscored⟩)

/-- Two backends, of which only the first will report metrics. -/
def mixedConfig : RuntimeConfig :=
  .new [⟨"a", ⟨"a", "/"⟩, ⟨"a", "/metrics"⟩, ⟨"a", "/v1/models"⟩, some 8⟩,
    ⟨"b", ⟨"b", "/"⟩, ⟨"b", "/metrics"⟩, ⟨"b", "/v1/models"⟩, none⟩]

def mixedRuntime : RuntimeState where
  published := .fromConfig mixedConfig (by decide)
  registry := ⟨mixedConfig.backends.map fun backend =>
    (SlotState.new backend.registrySpec .disabled).restore .active, by decide⟩

/-- A request to the backend that gets no response. -/
def RoutingInner.failRequest (id : BackendId) (inner : RoutingInner) : RoutingInner :=
  match inner.tryCircuitPermit id 0 with
  | (inner, none) => inner
  | (inner, some permit) => (inner.updateBreaker id fun breaker => ((permit.failure 0 breaker).2, ())).1

/-- Both backends are ready. The first failed three requests, was scraped ten seconds later, and has just
been given its trial. -/
def mixedInner : RoutingInner :=
  let published := mixedRuntime.published
  let ready := fun (inner : RoutingInner) (probe : BackendId × Nat) =>
    (inner.recordReadinessSuccessFor published published.config.readiness probe.1 probe.2 0).1
  let probed := [("a", 1), ("a", 1), ("b", 2), ("b", 2)].foldl ready (RoutingInner.new published)
  let failed := ((probed.failRequest "a").failRequest "a").failRequest "a"
  let scraping := (failed.beginMetricsScrape published mixedRuntime.registry "a" 1 circuitOpenFor).1
  let scraped := scraping.recordMetricsSuccessFor published "a" 1 ⟨1, 0, none, none, none, none, none⟩
    ⟨1, 0, circuitOpenFor⟩ circuitOpenFor
  (scraped.tryCircuitPermit "a" circuitOpenFor).1

def mixedPool : RoutingState := ⟨mixedRuntime, mixedInner⟩

/-- The trial of the scored backend hides the usable one without metrics. -/
theorem select_hides_unscored_backend :
    (mixedPool.select circuitOpenFor (fun _ => 0)).2 = none ∧ mixedPool.Usable circuitOpenFor "b" ∧
      ¬((mixedPool.select circuitOpenFor (fun _ => 0)).2 = none →
        ∀ id, ¬mixedPool.Usable circuitOpenFor id) := by
  have hnone : (mixedPool.select circuitOpenFor (fun _ => 0)).2 = none := by decide +kernel
  have husable : mixedPool.Usable circuitOpenFor "b" := ⟨_, ⟨⟨_, rfl, rfl, rfl⟩, rfl, rfl⟩, rfl⟩
  exact ⟨hnone, husable, fun hcomplete => hcomplete hnone "b" husable⟩

end MistralrsProxy
