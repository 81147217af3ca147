import Mathlib.Algebra.Order.Field.Basic
import Mathlib.Tactic.GCongr
import Mathlib.Tactic.Positivity
import MistralrsProxy.Greedy
import MistralrsProxy.RoutingSelect

/-! Bursts of selections. The selection mutex makes each selection see the reservations of those before it,
through the acquisitions its backends count; so a burst is a greedy assignment. -/

open Keyed

namespace MistralrsProxy

/-- The pressure that a sample gives with this number of assignments since its scrape began, if the sample is not
stale as of `start`. -/
def MetricsObservation.pressureAt (start staleAfter : Nat) (kvSoftLimit : ℚ) (capacity : Option Nat) (assignments : Nat)
    (observation : MetricsObservation) : Option ℚ :=
  if staleAfter < start - observation.observedAt then none
  else
    (effectiveCapacity observation.metrics.sequencesCapacity capacity).bind fun capacity =>
      (leastPressureV1WithSoftLimit kvSoftLimit
        (observation.metrics.pressureInputs (min assignments u64Max) capacity)).toOption.map (·.pressure)

namespace RoutingState

/-- The pressure of a backend with this number of assignments since the scrape of its sample began. -/
def pressureAt (start : Nat) (id : BackendId) (assignments : Nat) (state : RoutingState) : Option ℚ :=
  (state.synchronised.backends id).bind fun live =>
    (state.runtime.published.backend id).bind fun backend =>
      live.metrics.bind (MetricsObservation.pressureAt start state.runtime.published.config.telemetry.staleAfter
        state.runtime.published.config.routing.kvSoftLimit backend.capacity assignments)

/-- The assignments of a backend since the scrape of its sample began. -/
def assignments (id : BackendId) (state : RoutingState) : Nat :=
  ((state.runtime.registry.find? id).map SlotState.totalAcquired).getD 0 -
    (((state.synchronised.backends id).bind (·.metrics)).map (·.dispatchesAtObservation)).getD 0

def localActive (id : BackendId) (state : RoutingState) : Nat :=
  ((state.runtime.registry.find? id).map fun slot => slot.leases.card).getD 0

/-- Since `start` no circuit of the pool and no sample in it has changed its state by the passing of time, and
the circuits of the eligible backends are closed. -/
def Steady (start now : Nat) (state : RoutingState) : Prop :=
  ∀ id live, state.Ready id live →
    (live.circuit = .closed ∨ live.circuit.state start = .opened ∧ live.circuit.state now = .opened) ∧
    ∀ observation, live.metrics = some observation →
      (state.runtime.published.config.telemetry.staleAfter < now - observation.observedAt ↔
        state.runtime.published.config.telemetry.staleAfter < start - observation.observedAt)

end RoutingState

/-- The parts of a slot and of a live backend that selections read and that a burst leaves alone. -/
def SlotState.gate (slot : SlotState) : BackendSpec × Bool × BackendMode := (slot.spec, slot.registered, slot.mode)

def LiveBackend.view (live : LiveBackend) : Nat × ReadinessState × Circuit × Option MetricsObservation :=
  (live.topologyGeneration, live.readiness, live.circuit, live.metrics)

/-- No scrape result, mode, readiness or circuit differs. -/
structure RoutingState.Alike (old new : RoutingState) : Prop where
  published : new.runtime.published = old.runtime.published
  slots : ∀ id, (new.runtime.registry.find? id).map SlotState.gate = (old.runtime.registry.find? id).map SlotState.gate
  live : ∀ id, (new.synchronised.backends id).map LiveBackend.view = (old.synchronised.backends id).map LiveBackend.view

/-- What may happen between two selections of a burst: anything that touches neither of these nor the counted
acquisitions, such as the drop of a lease. -/
structure RoutingState.Undisturbed (old new : RoutingState) : Prop extends RoutingState.Alike old new where
  acquired : ∀ id, (new.runtime.registry.find? id).map SlotState.totalAcquired =
    (old.runtime.registry.find? id).map SlotState.totalAcquired

/-- And no lease is dropped either. -/
structure RoutingState.Held (old new : RoutingState) : Prop extends RoutingState.Undisturbed old new where
  leases : ∀ id, (new.runtime.registry.find? id).map SlotState.leases =
    (old.runtime.registry.find? id).map SlotState.leases

/-- A burst of selections, with what each of them returned, newest first. -/
inductive Burst (quiet : RoutingState → RoutingState → Prop) (start : Nat) (state : RoutingState) :
    List (Option BackendId) → RoutingState → Prop
  | start : Burst quiet start state [] state
  | quiet {chosen : List (Option BackendId)} {current next : RoutingState} :
      Burst quiet start state chosen current → quiet current next → Burst quiet start state chosen next
  | select {chosen : List (Option BackendId)} {current : RoutingState} (now : Nat) (delay : BackendId → Nat) :
      Burst quiet start state chosen current → current.Steady start now →
      Burst quiet start state
        ((current.select now delay).2.map (fun selection => selection.lease.spec.id) :: chosen)
        (current.select now delay).1

/-- A score counts one more assignment. -/
theorem scoreCandidate_pressure (snapshot : BackendSnapshot) (live : LiveBackend) (config : Backend)
    (now staleAfter : Nat) (kvSoftLimit : ℚ) :
    (scoreCandidate snapshot live config now staleAfter kvSoftLimit).1.map (·.pressure) =
      live.metrics.bind fun observation => observation.pressureAt now staleAfter kvSoftLimit config.capacity
        (snapshot.totalAcquired - observation.dispatchesAtObservation + 1) := by
  unfold scoreCandidate
  cases live.metrics with
  | none => rfl
  | some observation =>
      simp only [Option.bind_some, MetricsObservation.pressureAt]
      split
      · rfl
      · simp only [Option.map_bind, Function.comp_def]

/-- The pressure as a function of the assignments: undefined for all of them, or monotone. -/
theorem MetricsObservation.pressureAt_cases (start staleAfter : Nat) (kvSoftLimit : ℚ) (capacity : Option Nat)
    (observation : MetricsObservation) :
    (∀ assignments, observation.pressureAt start staleAfter kvSoftLimit capacity assignments = none) ∨
      ∃ load : Nat → ℚ, Monotone load ∧
        ∀ assignments, observation.pressureAt start staleAfter kvSoftLimit capacity assignments =
          some (load assignments) := by
  unfold MetricsObservation.pressureAt
  split
  · exact .inl fun _ => rfl
  · cases effectiveCapacity observation.metrics.sequencesCapacity capacity with
    | none => exact .inl fun _ => rfl
    | some capacity =>
        simp only [Option.bind_some, leastPressureV1WithSoftLimit, MistralRsMetrics.pressureInputs]
        by_cases hcapacity : capacity = 0
        · simp only [hcapacity, if_true]
          exact .inl fun _ => rfl
        · simp only [hcapacity, if_false]
          cases kvPenalty kvSoftLimit observation.metrics.kvCacheRatio with
          | error error => exact .inl fun _ => rfl
          | ok penalty =>
              refine .inr ⟨_, ?_, fun _ => rfl⟩
              intro fewer more hle
              dsimp only
              gcongr

theorem MetricsObservation.pressureAt_of_fresh_iff {start now staleAfter : Nat} {observation : MetricsObservation}
    (h : staleAfter < now - observation.observedAt ↔ staleAfter < start - observation.observedAt) (kvSoftLimit : ℚ)
    (capacity : Option Nat) (assignments : Nat) :
    observation.pressureAt now staleAfter kvSoftLimit capacity assignments =
      observation.pressureAt start staleAfter kvSoftLimit capacity assignments := by
  unfold MetricsObservation.pressureAt
  simp only [h]

namespace RoutingState

variable {state current next : RoutingState} {start now : Nat} {id : BackendId}

-- The `bind`s here and below go by `rw`: on a `rfl` the kernel unfolds the pressures before it sees the `none`.
theorem pressureAt_eq {live : LiveBackend} {backend : Backend} (hlive : state.synchronised.backends id = some live)
    (hbackend : state.runtime.published.backend id = some backend) (start assignments : Nat) :
    state.pressureAt start id assignments = live.metrics.bind (MetricsObservation.pressureAt start
      state.runtime.published.config.telemetry.staleAfter state.runtime.published.config.routing.kvSoftLimit
      backend.capacity assignments) := by
  rw [pressureAt, hlive, Option.bind_some, hbackend, Option.bind_some]

/-- A candidate carries the count of leases of its slot and the score with one more assignment. -/
theorem candidate_spec {candidate : Candidate} (h : candidate ∈ state.candidates now) :
    candidate.localActive = state.localActive candidate.id ∧
      candidate.score.map (·.pressure) = state.pressureAt now candidate.id (state.assignments candidate.id + 1) := by
  simp only [candidates, List.mem_filterMap] at h
  obtain ⟨snapshot, hsnapshot, hcandidate⟩ := h
  obtain ⟨slot, hslot, _, rfl⟩ := BackendRegistry.mem_snapshots.mp hsnapshot
  obtain ⟨_, live, config, hlive, _, _, hentry, rfl⟩ := candidateOf_some hcandidate
  have hslot : state.runtime.registry.find? slot.spec.id = some slot := hslot
  have hlive : state.synchronised.backends slot.spec.id = some live := hlive
  have hconfig : state.runtime.published.backend slot.spec.id = some config := by
    have hid : config.id = slot.spec.id := by
      have hfound := List.find?_some hentry
      exact of_decide_eq_true hfound
    exact PublishedRuntime.backend_eq_some_iff.mpr
      ⟨(PublishedRuntime.mem_backendInstances.mp (List.mem_of_find?_eq_some hentry)).1, hid⟩
  refine ⟨?_, ?_⟩
  · simp only [SlotState.snapshot, localActive, hslot, Option.map_some, Option.getD_some]
  · change Option.map _ _ = state.pressureAt now slot.spec.id (state.assignments slot.spec.id + 1)
    rw [scoreCandidate_pressure, pressureAt_eq hlive hconfig]
    cases hmetrics : live.metrics with
    | none => rw [Option.bind_none, Option.bind_none]
    | some observation =>
        have hassignments : state.assignments slot.spec.id =
            slot.totalAcquired - observation.dispatchesAtObservation := by
          simp only [assignments, hslot, hlive, hmetrics, Option.bind_some, Option.map_some, Option.getD_some]
        rw [Option.bind_some, Option.bind_some, hassignments]
        simp only [SlotState.snapshot]

/-- Eligibility, and whether there is a score, in terms of the slot and the live state. -/
theorem isCandidate_iff {scored : Bool} : state.IsCandidate now scored id ↔
    (∃ live, state.Ready id live ∧ live.circuit.state now ≠ .opened) ∧
      (state.pressureAt now id (state.assignments id + 1)).isSome = scored := by
  constructor
  · rintro ⟨candidate, hmem, rfl, hscore⟩
    refine ⟨candidate_ready hmem, ?_⟩
    rw [← (candidate_spec hmem).2, Option.isSome_map]
    exact hscore
  · rintro ⟨⟨live, hready, hcircuit⟩, hscore⟩
    obtain ⟨candidate, hmem, rfl⟩ := exists_candidate hready hcircuit
    rw [← (candidate_spec hmem).2, Option.isSome_map] at hscore
    exact ⟨candidate, hmem, rfl, hscore⟩

theorem pressureAt_cases (start : Nat) (id : BackendId) (state : RoutingState) :
    (∀ assignments, state.pressureAt start id assignments = none) ∨
      ∃ load : Nat → ℚ, Monotone load ∧
      ∀ assignments, state.pressureAt start id assignments = some (load assignments) := by
  unfold pressureAt
  cases state.synchronised.backends id with
  | none => exact .inl fun _ => rfl
  | some live =>
      cases state.runtime.published.backend id with
      | none => exact .inl fun _ => rfl
      | some backend =>
          simp only [Option.bind_some]
          cases live.metrics with
          | none => exact .inl fun _ => rfl
          | some observation =>
              rcases observation.pressureAt_cases start state.runtime.published.config.telemetry.staleAfter
                state.runtime.published.config.routing.kvSoftLimit backend.capacity with hnone | ⟨load, hmono, hload⟩
              · refine .inl fun assignments => ?_
                rw [Option.bind_some]
                exact hnone assignments
              · refine .inr ⟨load, hmono, fun assignments => ?_⟩
                rw [Option.bind_some]
                exact hload assignments

theorem rotatedLe_total (cursor : Nat) (left right : BackendId) :
    rotatedLe cursor left right = true ∨ rotatedLe cursor right left = true := by
  unfold rotatedLe
  split
  · simpa using String.le_total left right
  · simpa using String.le_total right left

theorem rotatedLe_trans {cursor : Nat} {first second third : BackendId} (h : rotatedLe cursor first second = true)
    (h' : rotatedLe cursor second third = true) : rotatedLe cursor first third = true := by
  unfold rotatedLe at *
  split at h
  · rename_i hparity
    simp only [hparity, if_true, decide_eq_true_eq] at *
    exact String.le_trans h h'
  · rename_i hparity
    simp only [hparity, if_false, decide_eq_true_eq] at *
    exact String.le_trans h' h

theorem inflightLe_total (cursor : Nat) (left right : Candidate) :
    inflightLe cursor left right = true ∨ inflightLe cursor right left = true := by
  simp only [inflightLe, Bool.or_eq_true, Bool.and_eq_true, decide_eq_true_eq, beq_iff_eq]
  rcases lt_trichotomy left.localActive right.localActive with hlt | heq | hlt
  · exact .inl (.inl hlt)
  · exact (rotatedLe_total cursor left.id right.id).imp (fun h => .inr ⟨heq, h⟩) fun h => .inr ⟨heq.symm, h⟩
  · exact .inr (.inl hlt)

theorem inflightLe_trans {cursor : Nat} {first second third : Candidate} (h : inflightLe cursor first second = true)
    (h' : inflightLe cursor second third = true) : inflightLe cursor first third = true := by
  simp only [inflightLe, Bool.or_eq_true, Bool.and_eq_true, decide_eq_true_eq, beq_iff_eq] at *
  rcases h with hlt | ⟨heq, hrotated⟩
  · rcases h' with hlt' | ⟨heq', _⟩
    · exact .inl (hlt.trans hlt')
    · exact .inl (heq' ▸ hlt)
  · rcases h' with hlt' | ⟨heq', hrotated'⟩
    · exact .inl (heq ▸ hlt')
    · exact .inr ⟨heq.trans heq', rotatedLe_trans hrotated hrotated'⟩

theorem pressureLe_scored {cursor : Nat} {left right : Candidate} {leftScore rightScore : LeastPressureV1Score}
    (hleft : left.score = some leftScore) (hright : right.score = some rightScore) :
    pressureLe cursor left right = true ↔ leftScore.pressure < rightScore.pressure ∨
      leftScore.pressure = rightScore.pressure ∧ inflightLe cursor left right = true := by
  simp [pressureLe, hleft, hright]

/-- The order of the candidates that are left, head first: a least one by pressure, or by leases if none is
scored. -/
theorem orderCandidates_head {cursor : Nat} {candidates : List Candidate} {head : Candidate} {rest : List Candidate}
    (h : orderCandidates cursor candidates = head :: rest) :
    head ∈ candidates ∧
      ((∃ candidate ∈ candidates, candidate.score.isSome = true) → ∃ least, head.score = some least ∧
        ∀ candidate ∈ candidates, ∀ score, candidate.score = some score → least.pressure ≤ score.pressure) ∧
      ((∀ candidate ∈ candidates, candidate.score = none) → ∀ candidate ∈ candidates,
        inflightLe cursor head candidate = true) := by
  unfold orderCandidates at h
  split at h
  · rename_i hany
    have hscore : ∀ {candidate}, candidate ∈ candidates.filter (·.score.isSome) →
        ∃ score, candidate.score = some score := by
      intro candidate hmem
      exact Option.isSome_iff_exists.mp (List.mem_filter.mp hmem).2
    obtain ⟨hhead, hleast⟩ := Greedy.head_insertionSort
      (by
        intro first hfirst second hsecond
        obtain ⟨score, hfirst⟩ := hscore hfirst
        obtain ⟨score', hsecond⟩ := hscore hsecond
        rw [pressureLe_scored hfirst hsecond, pressureLe_scored hsecond hfirst]
        rcases lt_trichotomy score.pressure score'.pressure with hlt | heq | hlt
        · exact .inl (.inl hlt)
        · exact (inflightLe_total cursor first second).imp (fun h => .inr ⟨heq, h⟩) fun h => .inr ⟨heq.symm, h⟩
        · exact .inr (.inl hlt))
      (by
        intro first hfirst second hsecond third hthird
        obtain ⟨score, hfirst⟩ := hscore hfirst
        obtain ⟨score', hsecond⟩ := hscore hsecond
        obtain ⟨score'', hthird⟩ := hscore hthird
        rw [pressureLe_scored hfirst hsecond, pressureLe_scored hsecond hthird, pressureLe_scored hfirst hthird]
        rintro (hlt | ⟨heq, hle⟩) (hlt' | ⟨heq', hle'⟩)
        · exact .inl (hlt.trans hlt')
        · exact .inl (heq' ▸ hlt)
        · exact .inl (heq ▸ hlt')
        · exact .inr ⟨heq.trans heq', inflightLe_trans hle hle'⟩) h
    obtain ⟨least, hleastScore⟩ := hscore hhead
    refine ⟨(List.mem_filter.mp hhead).1, fun _ => ⟨least, hleastScore, ?_⟩, ?_⟩
    · intro candidate hmem score hcandidate
      have hle := hleast candidate (List.mem_filter.mpr ⟨hmem, by rw [hcandidate]; rfl⟩)
      rcases (pressureLe_scored hleastScore hcandidate).mp hle with hlt | ⟨heq, _⟩
      · exact hlt.le
      · exact heq.le
    · intro hnone
      rw [hnone head (List.mem_filter.mp hhead).1] at hleastScore
      cases hleastScore
  · rename_i hany
    obtain ⟨hhead, hleast⟩ := Greedy.head_insertionSort
      (fun first _ second _ => inflightLe_total cursor first second)
      (fun first _ second _ third _ => inflightLe_trans) h
    refine ⟨hhead, ?_, fun _ => hleast⟩
    rintro ⟨candidate, hmem, hscore⟩
    exact absurd (List.any_eq_true.mpr ⟨candidate, hmem, hscore⟩) hany

/-- A closed circuit issues a permit and is left as it is. -/
theorem tryCircuitPermit_closed {inner : RoutingInner} {live : LiveBackend} (hlive : inner.backends id = some live)
    (hclosed : live.circuit = .closed) (now : Nat) :
    inner.tryCircuitPermit id now = (inner, some ⟨id, live.circuitEpoch, false, false⟩) := by
  simp only [RoutingInner.tryCircuitPermit, RoutingInner.updateBreaker, hlive, Breaker.tryCircuitPermit, hclosed,
    Option.join_some]
  rw [← hlive, Function.update_eq_self]

/-- A selection among candidates with closed circuits goes to the first of them. -/
theorem select_closed (delay : BackendId → Nat)
    (hclosed : ∀ candidate ∈ state.candidates now, ∀ live, state.synchronised.backends candidate.id = some live →
      live.circuit = .closed) (hsome : ∃ candidate, candidate ∈ state.candidates now) :
    ∃ head rest slot after selection,
      orderCandidates state.synchronised.rotatingCursor (state.candidates now) = head :: rest ∧
      state.runtime.registry.find? head.id = some slot ∧
      slot.tryAcquire (now + delay head.id) = .ok (after, selection.lease) ∧
      selection.circuitPermit.trial = false ∧
      state.select now delay = (⟨{ state.runtime with registry := state.runtime.registry.put after },
        { state.synchronised with rotatingCursor := (state.synchronised.rotatingCursor + 1) % 2 ^ 64 }⟩,
        some selection) := by
  have hne : (state.candidates now).isEmpty = false := by
    obtain ⟨candidate, hmem⟩ := hsome
    cases hempty : (state.candidates now).isEmpty with
    | false => rfl
    | true =>
        rw [List.isEmpty_iff.mp hempty] at hmem
        cases hmem
  obtain ⟨head, rest, horder⟩ : ∃ head rest,
      orderCandidates state.synchronised.rotatingCursor (state.candidates now) = head :: rest := by
    cases horder : orderCandidates state.synchronised.rotatingCursor (state.candidates now) with
    | cons head rest => exact ⟨head, rest, rfl⟩
    | nil =>
        -- a scored candidate is left if there is one, and any of them otherwise
        exfalso
        have hnone : ∀ candidate,
            candidate ∉ orderCandidates state.synchronised.rotatingCursor (state.candidates now) := by
          simp [horder]
        obtain ⟨candidate, hmem⟩ := hsome
        by_cases hscored : ∃ other ∈ state.candidates now, other.score.isSome = true
        · obtain ⟨other, hother, hscore⟩ := hscored
          exact hnone other (mem_orderCandidates.mpr ⟨hother, fun _ => hscore⟩)
        · exact hnone candidate (mem_orderCandidates.mpr ⟨hmem, fun h => absurd h hscored⟩)
  have hhead := (orderCandidates_head horder).1
  obtain ⟨live, ⟨⟨slot, hslot, hregistered, hmode⟩, hlive, _⟩, _⟩ := candidate_ready hhead
  obtain ⟨after, hacquire⟩ := SlotState.tryAcquire_of_active hregistered hmode (now + delay head.id)
  have hpermit := @tryCircuitPermit_closed head.id
    { state.synchronised with rotatingCursor := (state.synchronised.rotatingCursor + 1) % 2 ^ 64 } live hlive
    (hclosed head hhead live hlive) (now + delay head.id)
  refine ⟨head, rest, slot, after, ⟨_, decisionOf (state.candidates now).length head,
    ⟨head.id, live.circuitEpoch, false, false⟩⟩, horder, hslot, hacquire, rfl, ?_⟩
  unfold select
  simp only [hne, Bool.false_eq_true, if_false, horder, tryCandidates, tryCandidate, hpermit,
    BackendRegistry.tryAcquire, BackendRegistry.getRetained, hslot, hacquire]

namespace Alike

theorem refl (state : RoutingState) : state.Alike state := ⟨rfl, fun _ => rfl, fun _ => rfl⟩

theorem trans (h : state.Alike current) (h' : current.Alike next) : state.Alike next :=
  ⟨h'.published.trans h.published, fun id => (h'.slots id).trans (h.slots id), fun id => (h'.live id).trans (h.live id)⟩

theorem symm (h : state.Alike current) : current.Alike state :=
  ⟨h.published.symm, fun id => (h.slots id).symm, fun id => (h.live id).symm⟩

theorem ready (h : state.Alike current) {live : LiveBackend} (hready : state.Ready id live) :
    ∃ after, current.Ready id after ∧ after.view = live.view := by
  obtain ⟨⟨slot, hslot, hregistered, hmode⟩, hlive, hready⟩ := hready
  have hslots := h.slots id
  rw [hslot, Option.map_some] at hslots
  obtain ⟨found, hfound, hgate⟩ := Option.map_eq_some_iff.mp hslots
  have hlives := h.live id
  rw [hlive, Option.map_some] at hlives
  obtain ⟨after, hafter, hview⟩ := Option.map_eq_some_iff.mp hlives
  simp only [SlotState.gate, Prod.mk.injEq] at hgate
  refine ⟨after, ⟨⟨found, hfound, hgate.2.1.trans hregistered, hgate.2.2.trans hmode⟩, hafter, ?_⟩, hview⟩
  simp only [LiveBackend.view, Prod.mk.injEq] at hview
  exact hview.2.1.trans hready

theorem metrics (h : state.Alike current) (id : BackendId) :
    (current.synchronised.backends id).bind (·.metrics) = (state.synchronised.backends id).bind (·.metrics) := by
  have hview := congrArg (fun view => view.bind fun (_, _, _, metrics) => metrics) (h.live id)
  simpa [Option.bind_map, Function.comp_def, LiveBackend.view] using hview

theorem pressureAt (h : state.Alike current) (start : Nat) (id : BackendId) (assignments : Nat) :
    current.pressureAt start id assignments = state.pressureAt start id assignments := by
  have hsplit : ∀ {α β : Type} (first : Option α) (second : Option β) (f : α → Option MetricsObservation)
      (g : MetricsObservation → β → Option ℚ),
      (first.bind fun a => second.bind fun b => (f a).bind fun observation => g observation b) =
        (first.bind f).bind fun observation => second.bind fun b => g observation b := by
    intro α β first second f g
    cases first with
    | none => rfl
    | some a =>
        simp only [Option.bind_some]
        cases second with
        | none => cases f a <;> rfl
        | some b => rfl
  simp only [RoutingState.pressureAt, h.published, hsplit, h.metrics]

theorem isCandidate (h : state.Alike current) {scored : Bool} (hcandidate : state.IsCandidate start scored id) :
    current.IsCandidate start scored id := by
  obtain ⟨⟨live, hready, hcircuit⟩, hscore⟩ := isCandidate_iff.mp hcandidate
  obtain ⟨after, hafter, hview⟩ := h.ready hready
  simp only [LiveBackend.view, Prod.mk.injEq] at hview
  refine isCandidate_iff.mpr ⟨⟨after, hafter, by rw [hview.2.2.1]; exact hcircuit⟩, ?_⟩
  rw [h.pressureAt, ← hscore]
  rcases pressureAt_cases start id state with hnone | ⟨load, _, hload⟩
  · rw [hnone, hnone]
  · rw [hload, hload]
    rfl

end Alike

theorem Steady.pressureAt (h : state.Steady start now) {live : LiveBackend} (hready : state.Ready id live)
    (assignments : Nat) : state.pressureAt now id assignments = state.pressureAt start id assignments := by
  obtain ⟨_, hfresh⟩ := h id live hready
  cases hbackend : state.runtime.published.backend id with
  | none =>
      rw [RoutingState.pressureAt, RoutingState.pressureAt, hready.2.1, hbackend, Option.bind_some, Option.bind_some,
        Option.bind_none, Option.bind_none]
  | some backend =>
      rw [pressureAt_eq hready.2.1 hbackend, pressureAt_eq hready.2.1 hbackend]
      cases hmetrics : live.metrics with
      | none => rw [Option.bind_none, Option.bind_none]
      | some observation =>
          rw [Option.bind_some, Option.bind_some]
          exact MetricsObservation.pressureAt_of_fresh_iff (hfresh observation hmetrics) _ _ _

theorem Steady.isCandidate_iff (h : state.Steady start now) {scored : Bool} :
    state.IsCandidate now scored id ↔ state.IsCandidate start scored id := by
  rw [RoutingState.isCandidate_iff, RoutingState.isCandidate_iff]
  have hcircuit : ∀ {live : LiveBackend}, state.Ready id live →
      (live.circuit.state now ≠ .opened ↔ live.circuit.state start ≠ .opened) := by
    intro live hready
    rcases (h id live hready).1 with hclosed | ⟨hstart, hnow⟩
    · simp [hclosed, Circuit.state]
    · simp [hstart, hnow]
  constructor
  · rintro ⟨⟨live, hready, hopen⟩, hscore⟩
    exact ⟨⟨live, hready, (hcircuit hready).mp hopen⟩, h.pressureAt hready _ ▸ hscore⟩
  · rintro ⟨⟨live, hready, hopen⟩, hscore⟩
    exact ⟨⟨live, hready, (hcircuit hready).mpr hopen⟩, (h.pressureAt hready _).symm ▸ hscore⟩

/-- The circuit of a candidate is closed. -/
theorem Steady.closed (h : state.Steady start now) {candidate : Candidate} (hmem : candidate ∈ state.candidates now)
    {live : LiveBackend} (hlive : state.synchronised.backends candidate.id = some live) : live.circuit = .closed := by
  obtain ⟨found, hready, hcircuit⟩ := candidate_ready hmem
  obtain rfl : found = live := Option.some.inj (hready.2.1.symm.trans hlive)
  rcases (h candidate.id found hready).1 with hclosed | ⟨_, hopened⟩
  · exact hclosed
  · exact absurd hopened hcircuit

/-- Synchronising twice is synchronising once. -/
theorem synchronised_backends (hpublished : next.runtime.published = state.runtime.published)
    (hinner : next.inner.backends = state.synchronised.backends) :
    next.synchronised.backends = state.synchronised.backends := by
  funext id
  cases hlive : state.synchronised.backends id with
  | none =>
      have hnone : state.runtime.published.backendGeneration id = none := by
        simpa [synchronised, RoutingInner.ensureBackends] using hlive
      simp [synchronised, RoutingInner.ensureBackends, hpublished, hnone]
  | some live =>
      have hgeneration := (RoutingInner.ensureBackends_some hlive).1
      exact RoutingInner.ensureBackends_of_current (hinner ▸ hlive) (hpublished ▸ hgeneration)

/-- What one selection of a burst does: it goes to a candidate, which is a least one, and leaves everything else
that selections read alone. -/
structure Selects (start : Nat) (current next : RoutingState) (least : BackendId) : Prop where
  alike : current.Alike next
  scored : (∃ id, current.IsCandidate start true id) → current.IsCandidate start true least ∧
    ∀ id, current.IsCandidate start true id → ∃ first second,
      current.pressureAt start least (current.assignments least + 1) = some first ∧
      current.pressureAt start id (current.assignments id + 1) = some second ∧ first ≤ second
  unscored : (¬∃ id, current.IsCandidate start true id) → current.IsCandidate start false least ∧
    ∀ id, current.IsCandidate start false id → current.localActive least ≤ current.localActive id
  counted : next.assignments least ≤ current.assignments least + 1
  leased : next.localActive least ≤ current.localActive least + 1
  grows : ∀ id, current.assignments id ≤ next.assignments id ∧ current.localActive id ≤ next.localActive id
  others : ∀ id, id ≠ least → next.assignments id = current.assignments id ∧
    next.localActive id = current.localActive id

theorem select_selects (delay : BackendId → Nat) (hsteady : state.Steady start now) {scored : Bool}
    (hsome : state.IsCandidate start scored id) :
    ∃ selection, (state.select now delay).2 = some selection ∧
      Selects start state (state.select now delay).1 selection.lease.spec.id := by
  have hcandidate : ∃ candidate, candidate ∈ state.candidates now := by
    obtain ⟨candidate, hmem, _⟩ := hsteady.isCandidate_iff.mpr hsome
    exact ⟨candidate, hmem⟩
  obtain ⟨head, rest, slot, after, selection, horder, hslot, hacquire, _, hselect⟩ :=
    select_closed delay (fun candidate hmem live hlive => hsteady.closed hmem hlive) hcandidate
  obtain ⟨hhead, hpressure, hinflight⟩ := orderCandidates_head horder
  obtain ⟨_, _, hlease, hafter⟩ := SlotState.tryAcquire_ok hacquire
  have hid : slot.spec.id = head.id := BackendRegistry.slot_id hslot
  have hleast : selection.lease.spec.id = head.id := by rw [hlease]; exact hid
  refine ⟨selection, by rw [hselect], ?_⟩
  rw [hselect, hleast]
  generalize hnext : (⟨{ state.runtime with registry := state.runtime.registry.put after },
    { state.synchronised with rotatingCursor := (state.synchronised.rotatingCursor + 1) % 2 ^ 64 }⟩ :
    RoutingState) = next
  have hfind : ∀ other, next.runtime.registry.find? other =
      if other = head.id then some after else state.runtime.registry.find? other := by
    rw [← hnext]
    exact BackendRegistry.find?_replace hslot (by rw [hafter]; exact hid)
  have hlive : next.synchronised.backends = state.synchronised.backends :=
    synchronised_backends (by rw [← hnext]) (by rw [← hnext])
  have hscore : ∀ {candidate : Candidate}, candidate ∈ state.candidates now → candidate.score.map (·.pressure) =
      state.pressureAt start candidate.id (state.assignments candidate.id + 1) := by
    intro candidate hmem
    obtain ⟨live, hready, _⟩ := candidate_ready hmem
    rw [(candidate_spec hmem).2, hsteady.pressureAt hready]
  have hacquired : after.totalAcquired = slot.totalAcquired + 1 := by rw [hafter]; rfl
  have hleases : after.leases = insert ⟨now + delay head.id, slot.nextLeaseSerial⟩ slot.leases := by rw [hafter]; rfl
  have hassigned : ∀ other, next.assignments other = if other = head.id then
      slot.totalAcquired + 1 -
        (((state.synchronised.backends head.id).bind (·.metrics)).map (·.dispatchesAtObservation)).getD 0
      else state.assignments other := by
    intro other
    by_cases hother : other = head.id
    · simp [assignments, hfind, hlive, hother, hacquired]
    · simp [assignments, hfind, hlive, hother]
  have hactive : ∀ other, next.localActive other =
      if other = head.id then after.leases.card else state.localActive other := by
    intro other
    by_cases hother : other = head.id
    · simp [localActive, hfind, hother]
    · simp [localActive, hfind, hother]
  have hassignedHead : state.assignments head.id = slot.totalAcquired -
      (((state.synchronised.backends head.id).bind (·.metrics)).map (·.dispatchesAtObservation)).getD 0 := by
    simp [assignments, hslot]
  have hactiveHead : state.localActive head.id = slot.leases.card := by simp [localActive, hslot]
  refine ⟨⟨by rw [← hnext], ?_, fun other => by rw [hlive]⟩, ?_, ?_, ?_, ?_, ?_, ?_⟩
  · intro other
    rw [hfind]
    by_cases hother : other = head.id
    · rw [if_pos hother, hother, hslot, hafter]
      rfl
    · rw [if_neg hother]
  · rintro ⟨other, hother⟩
    obtain ⟨candidate, hmem, _, hcandidate⟩ := hsteady.isCandidate_iff.mpr hother
    obtain ⟨least, hleastScore, hbelow⟩ := hpressure ⟨candidate, hmem, hcandidate⟩
    refine ⟨hsteady.isCandidate_iff.mp ⟨head, hhead, rfl, by rw [hleastScore]; rfl⟩, ?_⟩
    intro id hscored
    obtain ⟨found, hfound, rfl, hisSome⟩ := hsteady.isCandidate_iff.mpr hscored
    obtain ⟨score, hfoundScore⟩ := Option.isSome_iff_exists.mp hisSome
    refine ⟨least.pressure, score.pressure, ?_, ?_, hbelow found hfound score hfoundScore⟩
    · rw [← hscore hhead, hleastScore]
      rfl
    · rw [← hscore hfound, hfoundScore]
      rfl
  · intro hnone
    have hall : ∀ candidate ∈ state.candidates now, candidate.score = none := by
      intro candidate hmem
      by_contra hsomeScore
      exact hnone ⟨candidate.id, hsteady.isCandidate_iff.mp
        ⟨candidate, hmem, rfl, Option.isSome_iff_ne_none.mpr hsomeScore⟩⟩
    refine ⟨hsteady.isCandidate_iff.mp ⟨head, hhead, rfl, by rw [hall head hhead]; rfl⟩, ?_⟩
    intro id hunscored
    obtain ⟨found, hfound, rfl, _⟩ := hsteady.isCandidate_iff.mpr hunscored
    have hle := hinflight hall found hfound
    simp only [inflightLe, Bool.or_eq_true, Bool.and_eq_true, decide_eq_true_eq, beq_iff_eq] at hle
    rw [← (candidate_spec hhead).1, ← (candidate_spec hfound).1]
    rcases hle with hlt | ⟨heq, _⟩
    · exact hlt.le
    · exact heq.le
  · rw [hassigned, if_pos rfl, hassignedHead]
    omega
  · rw [hactive, if_pos rfl, hactiveHead, hleases]
    exact Finset.card_insert_le _ _
  · intro other
    rw [hassigned, hactive]
    by_cases hother : other = head.id
    · rw [if_pos hother, if_pos hother, hother, hassignedHead, hactiveHead, hleases]
      exact ⟨by omega, Finset.card_le_card (Finset.subset_insert _ _)⟩
    · rw [if_neg hother, if_neg hother]
      exact ⟨le_rfl, le_rfl⟩
  · intro other hother
    rw [hassigned, hactive, if_neg hother, if_neg hother]
    exact ⟨rfl, rfl⟩

/-- Without a candidate a selection only synchronises and moves the cursor. -/
theorem select_alike_of_none (delay : BackendId → Nat) (hnone : ∀ candidate, candidate ∉ state.candidates now) :
    (state.select now delay).2 = none ∧ state.Alike (state.select now delay).1 := by
  have hempty : state.candidates now = [] := List.eq_nil_iff_forall_not_mem.mpr hnone
  unfold select
  simp only [hempty, List.isEmpty_nil, if_true]
  refine ⟨trivial, rfl, fun _ => rfl, ?_⟩
  intro id
  rw [synchronised_backends]
  · rfl
  · rfl

theorem Undisturbed.assignments (h : state.Undisturbed current) (id : BackendId) :
    current.assignments id = state.assignments id := by
  simp only [RoutingState.assignments, h.acquired, h.toAlike.metrics]

theorem Held.localActive (h : state.Held current) (id : BackendId) : current.localActive id = state.localActive id := by
  have hcard := congrArg (Option.map Finset.card) (h.leases id)
  simp only [Option.map_map] at hcard
  exact congrArg (Option.getD · 0) hcard

end RoutingState

/-- The load of a scored backend, by its assignments. -/
def RoutingState.load (start : Nat) (state : RoutingState) (id : BackendId) (assignments : Nat) : ℚ :=
  (state.pressureAt start id assignments).getD 0

theorem RoutingState.load_monotone (start : Nat) (state : RoutingState) (id : BackendId) :
    Monotone (state.load start id) := by
  intro fewer more hle
  rcases state.pressureAt_cases start id with hnone | ⟨load, hload, hsome⟩
  · simp [RoutingState.load, hnone]
  · simp only [RoutingState.load, hsome, Option.getD_some]
    exact hload hle

namespace Burst

variable {start : Nat} {state final : RoutingState} {chosen : List (Option BackendId)}

theorem chosen_cons (selection : RouteSelection) (chosen : List (Option BackendId)) :
    {id | some id ∈ Option.map (fun selection : RouteSelection => selection.lease.spec.id) (some selection) :: chosen} =
      insert selection.lease.spec.id {id | some id ∈ chosen} := by
  ext id
  simp [List.mem_cons, Set.mem_insert_iff]

/-- A burst among scored backends. -/
theorem scored (hscored : ∃ id, state.IsCandidate start true id)
    (h : Burst RoutingState.Undisturbed start state chosen final) :
    state.Alike final ∧ (∀ outcome ∈ chosen, ∃ id, outcome = some id ∧ state.IsCandidate start true id) ∧
      Greedy.Balanced (state.load start) {id | state.IsCandidate start true id} (fun id => final.assignments id)
        {id | some id ∈ chosen} := by
  induction h with
  | start => exact ⟨.refl state, by simp, by simpa using Greedy.balanced_empty _ _ _⟩
  | quiet _ hquiet ih =>
      obtain ⟨halike, houtcomes, hbalanced⟩ := ih
      refine ⟨halike.trans hquiet.toAlike, houtcomes, ?_⟩
      simp only [hquiet.assignments]
      exact hbalanced
  | @select chosen current now delay _ hsteady ih =>
      obtain ⟨halike, houtcomes, hbalanced⟩ := ih
      obtain ⟨id, hid⟩ := hscored
      obtain ⟨selection, hselection, hselects⟩ := RoutingState.select_selects delay hsteady (halike.isCandidate hid)
      obtain ⟨hleast, hbelow⟩ := hselects.scored ⟨id, halike.isCandidate hid⟩
      rw [hselection]
      refine ⟨halike.trans hselects.alike, ?_, ?_⟩
      · intro outcome hmem
        rcases List.mem_cons.mp hmem with rfl | hmem
        · exact ⟨_, rfl, halike.symm.isCandidate hleast⟩
        · exact houtcomes outcome hmem
      · rw [chosen_cons]
        refine hbalanced.assign (state.load_monotone start) ?_ hselects.counted (fun id => (hselects.grows id).1)
          (fun id hother => (hselects.others id hother).1)
        intro id hid
        obtain ⟨first, second, hfirst, hsecond, hle⟩ := hbelow id (halike.isCandidate hid)
        simp only [RoutingState.load, ← halike.pressureAt, hfirst, hsecond, Option.getD_some]
        exact hle

/-- A burst among unscored backends, none of whose leases is dropped. -/
theorem unscored (hunscored : ¬∃ id, state.IsCandidate start true id)
    (h : Burst RoutingState.Held start state chosen final) :
    state.Alike final ∧
      Greedy.Balanced (fun _ count => count) {id | state.IsCandidate start false id} (fun id => final.localActive id)
        {id | some id ∈ chosen} := by
  induction h with
  | start => exact ⟨.refl state, by simpa using Greedy.balanced_empty _ _ _⟩
  | quiet _ hquiet ih =>
      obtain ⟨halike, hbalanced⟩ := ih
      refine ⟨halike.trans hquiet.toUndisturbed.toAlike, ?_⟩
      simp only [hquiet.localActive]
      exact hbalanced
  | @select chosen current now delay _ hsteady ih =>
      obtain ⟨halike, hbalanced⟩ := ih
      have hcurrent : ¬∃ id, current.IsCandidate start true id := by
        rintro ⟨id, hid⟩
        exact hunscored ⟨id, halike.symm.isCandidate hid⟩
      by_cases hpool : ∃ id, current.IsCandidate start false id
      · obtain ⟨id, hid⟩ := hpool
        obtain ⟨selection, hselection, hselects⟩ := RoutingState.select_selects delay hsteady hid
        obtain ⟨_, hbelow⟩ := hselects.unscored hcurrent
        rw [hselection]
        refine ⟨halike.trans hselects.alike, ?_⟩
        rw [chosen_cons]
        refine hbalanced.assign (fun _ => monotone_id) ?_ hselects.leased (fun id => (hselects.grows id).2)
          (fun id hother => (hselects.others id hother).2)
        intro id hid
        exact Nat.succ_le_succ (hbelow id (halike.isCandidate hid))
      · have hnone : ∀ candidate, candidate ∉ current.candidates now := by
          intro candidate hmem
          cases hscore : candidate.score.isSome with
          | true => exact hcurrent ⟨candidate.id, hsteady.isCandidate_iff.mp ⟨candidate, hmem, rfl, hscore⟩⟩
          | false => exact hpool ⟨candidate.id, hsteady.isCandidate_iff.mp ⟨candidate, hmem, rfl, hscore⟩⟩
        refine ⟨halike.trans (RoutingState.select_alike_of_none delay hnone).2, ?_⟩
        intro i _ j hj
        exact absurd ⟨j, halike.isCandidate hj⟩ hpool

end Burst

namespace RoutingState

/-- The pressure of a backend, counting its running and waiting sequences and all assignments since the scrape of
its sample began, and further ones. -/
def pressure (start further : Nat) (id : BackendId) (state : RoutingState) : Option ℚ :=
  state.pressureAt start id (state.assignments id + further)

end RoutingState

/-- Bursts are spread greedily. With a scored backend every selection goes to a scored one, and in the end no
backend that was selected has more pressure than any scored one would have with one assignment more. Without
one, and without a lease dropped, no backend that was selected has more than one lease more than another. -/
theorem bursts_are_spread (start : Nat) (state : RoutingState) :
    ((∃ id, state.IsCandidate start true id) →
      ∀ chosen final, Burst RoutingState.Undisturbed start state chosen final →
        (∀ outcome ∈ chosen, ∃ id, outcome = some id ∧ state.IsCandidate start true id) ∧
        ∀ i j, some i ∈ chosen → state.IsCandidate start true j → ∃ first second,
          final.pressure start 0 i = some first ∧ final.pressure start 1 j = some second ∧ first ≤ second) ∧
    ((¬∃ id, state.IsCandidate start true id) →
      ∀ chosen final, Burst RoutingState.Held start state chosen final →
        ∀ i j, some i ∈ chosen → state.IsCandidate start false j → final.localActive i ≤ final.localActive j + 1) := by
  refine ⟨?_, ?_⟩
  · intro hscored chosen final hburst
    obtain ⟨halike, houtcomes, hbalanced⟩ := hburst.scored hscored
    refine ⟨houtcomes, ?_⟩
    intro i j hi hj
    obtain ⟨id, heq, hcandidate⟩ := houtcomes _ hi
    obtain rfl := Option.some.inj heq
    have hsome : ∀ {id}, state.IsCandidate start true id → ∀ count,
        final.pressureAt start id count = some (state.load start id count) := by
      intro id hid count
      rw [halike.pressureAt]
      have hisSome := (RoutingState.isCandidate_iff.mp hid).2
      rcases state.pressureAt_cases start id with hnone | ⟨load, _, hload⟩
      · rw [hnone] at hisSome
        cases hisSome
      · simp [RoutingState.load, hload]
    exact ⟨_, _, hsome hcandidate _, hsome hj _, hbalanced i hi j hj⟩
  · intro hunscored chosen final hburst i j hi hj
    exact (hburst.unscored hunscored).2 i hi j hj

/-- With closed circuits a pool is steady at the instant itself. -/
theorem RoutingState.steady_self {state : RoutingState} {start : Nat}
    (h : (state.runtime.registry.entries.all fun slot =>
      (state.synchronised.backends slot.spec.id).all fun live => decide (live.circuit = .closed)) = true) :
    state.Steady start start := by
  intro id live hready
  obtain ⟨⟨slot, hslot, _⟩, hlive, _⟩ := hready
  obtain ⟨hmem, rfl⟩ := Table.find?_eq_some_iff.mp hslot
  have hlives := List.all_eq_true.mp h slot hmem
  refine ⟨.inl ?_, fun _ _ => Iff.rfl⟩
  rw [show state.synchronised.backends slot.spec.id = some live from hlive] at hlives
  exact of_decide_eq_true hlives

/-- Both backends of the mixed pool are ready and nothing was scraped. -/
def readyInner : RoutingInner :=
  [("a", 1), ("a", 1), ("b", 2), ("b", 2)].foldl (fun inner (probe : BackendId × Nat) =>
    (inner.recordReadinessSuccessFor mixedRuntime.published mixedConfig.readiness probe.1 probe.2 0).1)
    (RoutingInner.new mixedRuntime.published)

def unscoredPool : RoutingState := ⟨mixedRuntime, readyInner⟩

/-- Then both were scraped, and the first one runs a sequence that is not ours. -/
def scoredPool : RoutingState where
  runtime := mixedRuntime
  inner := [("a", 1, 1), ("b", 2, 0)].foldl (fun inner (scrape : BackendId × Nat × Nat) =>
    ((inner.beginMetricsScrape mixedRuntime.published mixedRuntime.registry scrape.1
      scrape.2.1 0).1).recordMetricsSuccessFor
      mixedRuntime.published scrape.1 scrape.2.1 ⟨scrape.2.2, 0, some 8, none, none, none, none⟩ ⟨1, 0, 0⟩ 0) readyInner

/-- Two selections at the instant zero. -/
theorem Burst.pair (quiet : RoutingState → RoutingState → Prop) {state : RoutingState} {first second : BackendId}
    (hfirst : state.Steady 0 0) (hsecond : (state.select 0 fun _ => 0).1.Steady 0 0)
    (houtcomes : [((state.select 0 fun _ => 0).1.select 0 fun _ => 0).2.map (fun selection => selection.lease.spec.id),
      (state.select 0 fun _ => 0).2.map (fun selection => selection.lease.spec.id)] = [some second, some first]) :
    Burst quiet 0 state [some second, some first] ((state.select 0 fun _ => 0).1.select 0 fun _ => 0).1 := by
  rw [← houtcomes]
  exact .select 0 _ (.select 0 _ .start hfirst) hsecond

theorem bursts_are_spread_pairs :
    (∃ final first second, Burst RoutingState.Undisturbed 0 scoredPool [some "a", some "b"] final ∧
      final.pressure 0 0 "a" = some first ∧ final.pressure 0 1 "b" = some second ∧ first ≤ second) ∧
    ∃ final, Burst RoutingState.Held 0 unscoredPool [some "b", some "a"] final ∧
      final.localActive "b" ≤ final.localActive "a" + 1 := by
  have hscored : ∃ id, scoredPool.IsCandidate 0 true id := by
    have hany : ((scoredPool.candidates 0).any fun candidate => candidate.score.isSome) = true := by decide +kernel
    obtain ⟨candidate, hmem, hscore⟩ := List.any_eq_true.mp hany
    exact ⟨candidate.id, candidate, hmem, rfl, hscore⟩
  have hunscored : ¬∃ id, unscoredPool.IsCandidate 0 true id := by
    have hall : ((unscoredPool.candidates 0).all fun candidate => candidate.score.isNone) = true := by decide +kernel
    rintro ⟨id, candidate, hmem, _, hscore⟩
    have hnone := List.all_eq_true.mp hall candidate hmem
    rw [Option.isNone_iff_eq_none.mp hnone] at hscore
    cases hscore
  have hscoredBurst := @Burst.pair RoutingState.Undisturbed scoredPool "b" "a"
    (RoutingState.steady_self (by decide +kernel)) (RoutingState.steady_self (by decide +kernel)) (by decide +kernel)
  have hunscoredBurst := @Burst.pair RoutingState.Held unscoredPool "a" "b"
    (RoutingState.steady_self (by decide +kernel)) (RoutingState.steady_self (by decide +kernel)) (by decide +kernel)
  refine ⟨?_, ?_⟩
  · obtain ⟨hchosen, hbound⟩ := (bursts_are_spread 0 scoredPool).1 hscored _ _ hscoredBurst
    obtain ⟨id, heq, hcandidate⟩ := hchosen (some "b") (by simp)
    obtain rfl := Option.some.inj heq
    obtain ⟨first, second, hfirst, hsecond, hle⟩ := hbound "a" "b" (by simp) hcandidate
    exact ⟨_, first, second, hscoredBurst, hfirst, hsecond, hle⟩
  · have hcandidate : unscoredPool.IsCandidate 0 false "a" := by
      have hany : ((unscoredPool.candidates 0).any fun candidate =>
          decide (candidate.id = "a") && !candidate.score.isSome) = true := by decide +kernel
      obtain ⟨candidate, hmem, hfacts⟩ := List.any_eq_true.mp hany
      simp only [Bool.and_eq_true, decide_eq_true_eq, Bool.not_eq_true'] at hfacts
      exact ⟨candidate, hmem, hfacts.1, hfacts.2⟩
    exact ⟨_, hunscoredBurst,
      (bursts_are_spread 0 unscoredPool).2 hunscored _ _ hunscoredBurst "b" "a" (by simp) hcandidate⟩

end MistralrsProxy
