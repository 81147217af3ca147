import MistralrsProxy.RoutingLive

/-! Readiness as a function of the whole history of probes. The live state keeps two saturating counters that reset
each other; they stand for the successes and the failures at the end of the history. -/

namespace MistralrsProxy

/-- The last `count` elements of the list all pass, and there are that many. -/
def EndsWith {α : Type} (count : Nat) (test : α → Bool) (items : List α) : Prop :=
  count ≤ items.length ∧ ∀ item ∈ items.drop (items.length - count), test item = true

instance {α : Type} (count : Nat) (test : α → Bool) (items : List α) : Decidable (EndsWith count test items) :=
  inferInstanceAs (Decidable (_ ∧ _))

/-- The number of elements at the end of the list that pass. -/
def trailing {α : Type} (test : α → Bool) (items : List α) : Nat := (items.reverse.takeWhile test).length

section Trailing

variable {α : Type} {test : α → Bool}

theorem trailing_append_singleton (items : List α) (item : α) :
    trailing test (items ++ [item]) = if test item = true then trailing test items + 1 else 0 := by
  rw [trailing, List.reverse_append, List.reverse_singleton, List.singleton_append, List.takeWhile_cons]
  split
  · rw [List.length_cons, trailing]
  · rfl

theorem endsWith_append_singleton {count : Nat} (items : List α) (item : α) :
    EndsWith (count + 1) test (items ++ [item]) ↔ test item = true ∧ EndsWith count test items := by
  unfold EndsWith
  have hlength : (items ++ [item]).length = items.length + 1 := by simp
  have hdrop : (items ++ [item]).drop ((items ++ [item]).length - (count + 1)) =
      items.drop (items.length - count) ++ [item] := by
    rw [hlength, Nat.add_sub_add_right, List.drop_append_of_le_length (Nat.sub_le _ _)]
  rw [hdrop, hlength]
  constructor
  · rintro ⟨hcount, hall⟩
    refine ⟨hall item (by simp), by omega, ?_⟩
    intro other hmem
    exact hall other (List.mem_append_left _ hmem)
  · rintro ⟨hitem, hcount, hall⟩
    refine ⟨by omega, ?_⟩
    intro other hmem
    rcases List.mem_append.mp hmem with hmem | hmem
    · exact hall other hmem
    · rw [List.mem_singleton.mp hmem]
      exact hitem

/-- A window passes if the passing end of the list is at least as long. -/
theorem endsWith_iff (count : Nat) (items : List α) : EndsWith count test items ↔ count ≤ trailing test items := by
  induction items using List.reverseRecOn generalizing count with
  | nil => simp [EndsWith, trailing]
  | append_singleton items item ih =>
      cases count with
      | zero => simp [EndsWith]
      | succ count =>
          rw [endsWith_append_singleton, ih, trailing_append_singleton]
          by_cases hitem : test item = true
          · simp [hitem]
          · simp [hitem]

end Trailing

/-- What a probe found. -/
inductive ProbeOutcome where
  | success
  | failure (kind : ReadinessFailureKind)
  deriving DecidableEq, Repr

def ProbeOutcome.isSuccess : ProbeOutcome → Bool
  | .success => true
  | .failure _ => false

def ProbeOutcome.isFailure (outcome : ProbeOutcome) : Bool := !outcome.isSuccess

def ReadinessFailureKind.state : ReadinessFailureKind → ReadinessState
  | .unready => .unready
  | .unreachable => .unreachable

/-- A probe result as it is delivered. -/
structure Probe where
  outcome : ProbeOutcome
  error : String
  now : Nat
  deriving DecidableEq, Repr

/-- The history ends with enough successes. -/
def SuccessPoint (config : ReadinessConfig) (history : List ProbeOutcome) : Prop :=
  EndsWith config.successThreshold ProbeOutcome.isSuccess history

instance (config : ReadinessConfig) (history : List ProbeOutcome) : Decidable (SuccessPoint config history) :=
  inferInstanceAs (Decidable (EndsWith _ _ _))

/-- The history ends with enough failures. -/
def FailurePoint (config : ReadinessConfig) (history : List ProbeOutcome) : Prop :=
  EndsWith config.failureThreshold ProbeOutcome.isFailure history

instance (config : ReadinessConfig) (history : List ProbeOutcome) : Decidable (FailurePoint config history) :=
  inferInstanceAs (Decidable (EndsWith _ _ _))

/-- The position of the last success or failure point. -/
def LastPoint (config : ReadinessConfig) (history : List ProbeOutcome) (position : Nat) : Prop :=
  position ≤ history.length ∧
    (SuccessPoint config (history.take position) ∨ FailurePoint config (history.take position)) ∧
    ∀ later, position < later → later ≤ history.length →
      ¬(SuccessPoint config (history.take later) ∨ FailurePoint config (history.take later))

namespace RoutingInner

/-- Deliver one probe result. -/
def deliver (published : PublishedRuntime) (config : ReadinessConfig) (id : BackendId) (generation : Nat)
    (inner : RoutingInner) (probe : Probe) : RoutingInner × Option (ReadinessState × ReadinessState) :=
  match probe.outcome with
  | .success => inner.recordReadinessSuccessFor published config id generation probe.now
  | .failure kind => inner.recordReadinessFailureFor published config id generation kind probe.error probe.now

/-- Deliver probe results one after the other. -/
def deliverAll (published : PublishedRuntime) (config : ReadinessConfig) (id : BackendId) (generation : Nat)
    (inner : RoutingInner) (probes : List Probe) : RoutingInner :=
  probes.foldl (fun inner probe => (inner.deliver published config id generation probe).1) inner

end RoutingInner

/-- One delivery, as the live state sees it. -/
def LiveBackend.probe (config : ReadinessConfig) (live : LiveBackend) (probe : Probe) : LiveBackend :=
  match probe.outcome with
  | .success => live.readinessSuccess config probe.now
  | .failure kind => live.readinessFailure config kind probe.error probe.now

/-- The readiness that the history means. -/
def Settled (config : ReadinessConfig) (history : List ProbeOutcome) (state : ReadinessState) : Prop :=
  (state = .checking ∧ ∀ position ≤ history.length,
      ¬(SuccessPoint config (history.take position) ∨ FailurePoint config (history.take position))) ∨
    (state = .ready ∧ ∃ position, LastPoint config history position ∧ SuccessPoint config (history.take position)) ∨
    ∃ kind : ReadinessFailureKind, state = kind.state ∧ ∃ position, LastPoint config history position ∧
      FailurePoint config (history.take position) ∧ (history.take position).getLast? = some (.failure kind)

section Settled

variable {config : ReadinessConfig} {history : List ProbeOutcome} {outcome : ProbeOutcome} {state : ReadinessState}

theorem take_snoc {position : Nat} (h : position ≤ history.length) :
    (history ++ [outcome]).take position = history.take position := List.take_append_of_le_length h

theorem take_snoc_length : (history ++ [outcome]).take (history.length + 1) = history ++ [outcome] :=
  List.take_of_length_le (by simp)

theorem lastPoint_snoc_of_not
    (hnot : ¬(SuccessPoint config (history ++ [outcome]) ∨ FailurePoint config (history ++ [outcome]))) {position : Nat}
    (h : LastPoint config history position) : LastPoint config (history ++ [outcome]) position := by
  obtain ⟨hposition, hpoint, hlast⟩ := h
  refine ⟨by simp only [List.length_append]; omega, by rwa [take_snoc hposition], ?_⟩
  intro later hlater hlength
  rw [List.length_append, List.length_singleton] at hlength
  by_cases hold : later ≤ history.length
  · rw [take_snoc hold]
    exact hlast later hlater hold
  · have hnew : later = history.length + 1 := by omega
    rw [hnew, take_snoc_length]
    exact hnot

/-- An outcome that completes no point leaves the readiness. -/
theorem Settled.snoc_of_not (h : Settled config history state)
    (hnot : ¬(SuccessPoint config (history ++ [outcome]) ∨ FailurePoint config (history ++ [outcome]))) :
    Settled config (history ++ [outcome]) state := by
  rcases h with ⟨rfl, hnone⟩ | ⟨rfl, position, hlast, hpoint⟩ | ⟨kind, rfl, position, hlast, hpoint, hkind⟩
  · refine .inl ⟨rfl, ?_⟩
    intro position hposition
    rw [List.length_append, List.length_singleton] at hposition
    by_cases hold : position ≤ history.length
    · rw [take_snoc hold]
      exact hnone position hold
    · have hnew : position = history.length + 1 := by omega
      rw [hnew, take_snoc_length]
      exact hnot
  · exact .inr (.inl ⟨rfl, position, lastPoint_snoc_of_not hnot hlast, by rwa [take_snoc hlast.1]⟩)
  · exact .inr (.inr ⟨kind, rfl, position, lastPoint_snoc_of_not hnot hlast, by rwa [take_snoc hlast.1],
      by rwa [take_snoc hlast.1]⟩)

theorem lastPoint_snoc (h : SuccessPoint config (history ++ [outcome]) ∨ FailurePoint config (history ++ [outcome])) :
    LastPoint config (history ++ [outcome]) (history.length + 1) := by
  refine ⟨by simp, by rwa [take_snoc_length], ?_⟩
  intro later hlater hlength
  rw [List.length_append, List.length_singleton] at hlength
  omega

theorem settled_success (h : SuccessPoint config (history ++ [outcome])) :
    Settled config (history ++ [outcome]) .ready :=
  .inr (.inl ⟨rfl, history.length + 1, lastPoint_snoc (.inl h), by rwa [take_snoc_length]⟩)

theorem settled_failure {kind : ReadinessFailureKind} (h : FailurePoint config (history ++ [.failure kind])) :
    Settled config (history ++ [.failure kind]) kind.state :=
  .inr (.inr ⟨kind, rfl, history.length + 1, lastPoint_snoc (.inr h), by rwa [take_snoc_length],
    by rw [take_snoc_length, List.getLast?_concat]⟩)

end Settled

/-- The thresholds are positive 32-bit numbers. -/
structure ReadinessConfig.Valid (config : ReadinessConfig) : Prop where
  successPositive : 1 ≤ config.successThreshold
  failurePositive : 1 ≤ config.failureThreshold
  successBound : config.successThreshold ≤ u32Max
  failureBound : config.failureThreshold ≤ u32Max

/-- What the live state holds after a history of probes. -/
structure LiveBackend.Reflects (config : ReadinessConfig) (history : List ProbeOutcome) (live : LiveBackend) :
    Prop where
  successes : live.readinessSuccesses = min (trailing ProbeOutcome.isSuccess history) u32Max
  failures : live.readinessFailures = min (trailing ProbeOutcome.isFailure history) u32Max
  settled : Settled config history live.readiness

namespace LiveBackend

variable {config : ReadinessConfig} {history : List ProbeOutcome} {live : LiveBackend}

theorem reflects_new (hconfig : config.Valid) (generation : Nat) : (LiveBackend.new generation).Reflects config [] := by
  refine ⟨rfl, rfl, .inl ⟨rfl, ?_⟩⟩
  intro position _
  have hsuccess := hconfig.successPositive
  have hfailure := hconfig.failurePositive
  rw [List.take_nil, SuccessPoint, FailurePoint, endsWith_iff, endsWith_iff]
  change ¬(config.successThreshold ≤ 0 ∨ config.failureThreshold ≤ 0)
  omega

/-- A success completes no failure point, and the counter tells whether it completes a success point. -/
theorem Reflects.success (h : live.Reflects config history) (hconfig : config.Valid) (now : Nat) :
    (live.readinessSuccess config now).Reflects config (history ++ [.success]) := by
  have hsuccesses : trailing ProbeOutcome.isSuccess (history ++ [.success]) =
      trailing ProbeOutcome.isSuccess history + 1 := trailing_append_singleton history .success
  have hfailures : trailing ProbeOutcome.isFailure (history ++ [.success]) = 0 :=
    trailing_append_singleton history .success
  have hcounter : (live.readinessSuccess config now).readinessSuccesses =
      min (trailing ProbeOutcome.isSuccess (history ++ [.success])) u32Max := by
    change min (live.readinessSuccesses + 1) u32Max = _
    rw [h.successes, hsuccesses]
    omega
  have hfailed : ¬FailurePoint config (history ++ [.success]) := by
    have := hconfig.failurePositive
    rw [FailurePoint, endsWith_iff, hfailures]
    omega
  have hpoint : SuccessPoint config (history ++ [.success]) ↔
      config.successThreshold ≤ min (live.readinessSuccesses + 1) u32Max := by
    have := hconfig.successBound
    rw [SuccessPoint, endsWith_iff, hsuccesses, h.successes]
    omega
  refine ⟨hcounter, ?_, ?_⟩
  · rw [hfailures]
    rfl
  · change Settled config _ (if config.successThreshold ≤ min (live.readinessSuccesses + 1) u32Max then _ else _)
    by_cases hready : config.successThreshold ≤ min (live.readinessSuccesses + 1) u32Max
    · rw [if_pos hready]
      exact settled_success (hpoint.mpr hready)
    · rw [if_neg hready]
      apply h.settled.snoc_of_not
      rintro (hsuccess | hfailure)
      · exact hready (hpoint.mp hsuccess)
      · exact hfailed hfailure

theorem Reflects.failure (h : live.Reflects config history) (hconfig : config.Valid) (kind : ReadinessFailureKind)
    (error : String) (now : Nat) :
    (live.readinessFailure config kind error now).Reflects config (history ++ [.failure kind]) := by
  have hfailures : trailing ProbeOutcome.isFailure (history ++ [.failure kind]) =
      trailing ProbeOutcome.isFailure history + 1 := trailing_append_singleton history (.failure kind)
  have hsuccesses : trailing ProbeOutcome.isSuccess (history ++ [.failure kind]) = 0 :=
    trailing_append_singleton history (.failure kind)
  have hcounter : (live.readinessFailure config kind error now).readinessFailures =
      min (trailing ProbeOutcome.isFailure (history ++ [.failure kind])) u32Max := by
    change min (live.readinessFailures + 1) u32Max = _
    rw [h.failures, hfailures]
    omega
  have hready : ¬SuccessPoint config (history ++ [.failure kind]) := by
    have := hconfig.successPositive
    rw [SuccessPoint, endsWith_iff, hsuccesses]
    omega
  have hpoint : FailurePoint config (history ++ [.failure kind]) ↔
      config.failureThreshold ≤ min (live.readinessFailures + 1) u32Max := by
    have := hconfig.failureBound
    rw [FailurePoint, endsWith_iff, hfailures, h.failures]
    omega
  refine ⟨?_, hcounter, ?_⟩
  · rw [hsuccesses]
    rfl
  · have hstate : (live.readinessFailure config kind error now).readiness =
        if config.failureThreshold ≤ min (live.readinessFailures + 1) u32Max then kind.state else live.readiness := by
      cases kind <;> rfl
    rw [hstate]
    by_cases hfailed : config.failureThreshold ≤ min (live.readinessFailures + 1) u32Max
    · rw [if_pos hfailed]
      exact settled_failure (hpoint.mpr hfailed)
    · rw [if_neg hfailed]
      apply h.settled.snoc_of_not
      rintro (hsuccess | hfailure)
      · exact hready hsuccess
      · exact hfailed (hpoint.mp hfailure)

theorem Reflects.probe (h : live.Reflects config history) (hconfig : config.Valid) (probe : Probe) :
    (live.probe config probe).Reflects config (history ++ [probe.outcome]) := by
  unfold LiveBackend.probe
  cases probe.outcome with
  | success => exact h.success hconfig probe.now
  | failure kind => exact h.failure hconfig kind probe.error probe.now

end LiveBackend

namespace RoutingInner

variable {published : PublishedRuntime} {config : ReadinessConfig} {id : BackendId} {generation : Nat}
  {inner : RoutingInner} {live : LiveBackend}

theorem updateLive_current {α : Type} {f : LiveBackend → LiveBackend × α}
    (hgeneration : published.backendGeneration id = some generation) (hlive : inner.backends id = some live)
    (hcurrent : live.topologyGeneration = generation) :
    (inner.updateLive published id generation f).1.backends id = some (f live).1 ∧
      (inner.updateLive published id generation f).2 = some (f live).2 := by
  have hensured : (inner.ensureBackends published).backends id = some live := by
    simp only [ensureBackends, hgeneration, hlive, Option.map_some, hcurrent, if_true]
  simp only [updateLive, hensured, hcurrent, ne_eq, not_true_eq_false, if_false, Function.update_self, and_self]

/-- A result of the current generation is delivered. -/
theorem deliver_current (hgeneration : published.backendGeneration id = some generation)
    (hlive : inner.backends id = some live) (hcurrent : live.topologyGeneration = generation) (probe : Probe) :
    (inner.deliver published config id generation probe).1.backends id = some (live.probe config probe) ∧
      (inner.deliver published config id generation probe).2 = live.readinessChange (live.probe config probe) := by
  unfold deliver LiveBackend.probe
  cases probe.outcome with
  | success =>
      obtain ⟨hstate, hresult⟩ := updateLive_current (f := fun live =>
        (live.readinessSuccess config probe.now, live.readinessChange (live.readinessSuccess config probe.now)))
        hgeneration hlive hcurrent
      refine ⟨hstate, ?_⟩
      simp only [recordReadinessSuccessFor, hresult, Option.join_some]
  | failure kind =>
      obtain ⟨hstate, hresult⟩ := updateLive_current (f := fun live =>
        (live.readinessFailure config kind probe.error probe.now,
          live.readinessChange (live.readinessFailure config kind probe.error probe.now)))
        hgeneration hlive hcurrent
      refine ⟨hstate, ?_⟩
      simp only [recordReadinessFailureFor, hresult, Option.join_some]

theorem probe_generation (live : LiveBackend) (probe : Probe) :
    (live.probe config probe).topologyGeneration = live.topologyGeneration := by
  unfold LiveBackend.probe
  cases probe.outcome <;> rfl

theorem deliverAll_reflects (hconfig : config.Valid) (hgeneration : published.backendGeneration id = some generation)
    (hfresh : inner.backends id = some (LiveBackend.new generation)) (probes : List Probe) :
    ∃ live, (inner.deliverAll published config id generation probes).backends id = some live ∧
      live.topologyGeneration = generation ∧ live.Reflects config (probes.map Probe.outcome) := by
  induction probes using List.reverseRecOn with
  | nil => exact ⟨_, hfresh, rfl, LiveBackend.reflects_new hconfig generation⟩
  | append_singleton probes probe ih =>
      obtain ⟨live, hlive, hcurrent, hreflects⟩ := ih
      refine ⟨live.probe config probe, ?_, (probe_generation live probe).trans hcurrent, ?_⟩
      · rw [deliverAll, List.foldl_append]
        exact (deliver_current hgeneration hlive hcurrent probe).1
      · rw [List.map_append]
        exact hreflects.probe hconfig probe

end RoutingInner

section Unique

variable {config : ReadinessConfig} {history : List ProbeOutcome} {state : ReadinessState}

theorem LastPoint.unique {first second : Nat} (hfirst : LastPoint config history first)
    (hsecond : LastPoint config history second) : first = second := by
  rcases Nat.lt_trichotomy first second with hlt | heq | hgt
  · exact absurd hsecond.2.1 (hfirst.2.2 second hlt hsecond.1)
  · exact heq
  · exact absurd hfirst.2.1 (hsecond.2.2 first hgt hfirst.1)

/-- No position is a success point and a failure point. -/
theorem SuccessPoint.not_failurePoint (hconfig : config.Valid) (h : SuccessPoint config history) :
    ¬FailurePoint config history := by
  have hsuccess := hconfig.successPositive
  have hfailure := hconfig.failurePositive
  rw [SuccessPoint, endsWith_iff] at h
  rw [FailurePoint, endsWith_iff]
  cases history using List.reverseRecOn with
  | nil =>
      change config.successThreshold ≤ 0 at h
      omega
  | append_singleton history outcome =>
      rw [trailing_append_singleton] at h ⊢
      cases outcome with
      | success =>
          change ¬config.failureThreshold ≤ 0
          omega
      | failure kind =>
          change config.successThreshold ≤ 0 at h
          omega

theorem ReadinessFailureKind.state_injective {kind other : ReadinessFailureKind} (h : kind.state = other.state) :
    kind = other := by
  cases kind <;> cases other <;> first | rfl | cases h

/-- The three meanings exclude each other. -/
theorem Settled.iff (hconfig : config.Valid) (h : Settled config history state) :
    (state = .checking ↔ ∀ position ≤ history.length,
        ¬(SuccessPoint config (history.take position) ∨ FailurePoint config (history.take position))) ∧
      (state = .ready ↔ ∃ position, LastPoint config history position ∧ SuccessPoint config (history.take position)) ∧
      ∀ kind : ReadinessFailureKind, state = kind.state ↔ ∃ position, LastPoint config history position ∧
        FailurePoint config (history.take position) ∧ (history.take position).getLast? = some (.failure kind) := by
  rcases h with ⟨rfl, hnone⟩ | ⟨rfl, position, hlast, hpoint⟩ | ⟨kind, rfl, position, hlast, hpoint, hkind⟩
  · refine ⟨⟨fun _ => hnone, fun _ => rfl⟩, ⟨fun h => ReadinessState.noConfusion h, ?_⟩, fun kind => ⟨?_, ?_⟩⟩
    · rintro ⟨position, hlast, _⟩
      exact absurd hlast.2.1 (hnone position hlast.1)
    · intro h
      cases kind <;> cases h
    · rintro ⟨position, hlast, _⟩
      exact absurd hlast.2.1 (hnone position hlast.1)
  · refine ⟨⟨fun h => ReadinessState.noConfusion h, ?_⟩, ⟨fun _ => ⟨position, hlast, hpoint⟩, fun _ => rfl⟩,
      fun kind => ⟨?_, ?_⟩⟩
    · intro hnone
      exact absurd hlast.2.1 (hnone position hlast.1)
    · intro h
      cases kind <;> cases h
    · rintro ⟨other, hother, hfailure, _⟩
      rw [hother.unique hlast] at hfailure
      exact absurd hfailure (hpoint.not_failurePoint hconfig)
  · refine ⟨⟨?_, ?_⟩, ⟨?_, ?_⟩, fun other => ⟨?_, ?_⟩⟩
    · intro h
      cases kind <;> cases h
    · intro hnone
      exact absurd hlast.2.1 (hnone position hlast.1)
    · intro h
      cases kind <;> cases h
    · rintro ⟨other, hother, hsuccess⟩
      rw [hother.unique hlast] at hsuccess
      exact absurd hpoint (hsuccess.not_failurePoint hconfig)
    · intro h
      rw [← ReadinessFailureKind.state_injective h]
      exact ⟨position, hlast, hpoint, hkind⟩
    · rintro ⟨second, hsecond, _, hother⟩
      rw [hsecond.unique hlast, hkind] at hother
      cases hother
      rfl

end Unique

/-- Whatever probe results a fresh backend has been delivered, its readiness is the one that the whole history means,
and the next call reports a change exactly if it makes one. -/
theorem readiness_means_its_history (published : PublishedRuntime) (config : ReadinessConfig) (hconfig : config.Valid)
    (id : BackendId) (generation : Nat) (hgeneration : published.backendGeneration id = some generation)
    (inner : RoutingInner) (hfresh : inner.backends id = some (LiveBackend.new generation)) (probes : List Probe) :
    ∃ live, (inner.deliverAll published config id generation probes).backends id = some live ∧
      (live.readiness = .checking ↔ ∀ position ≤ (probes.map Probe.outcome).length,
        ¬(SuccessPoint config ((probes.map Probe.outcome).take position) ∨
          FailurePoint config ((probes.map Probe.outcome).take position))) ∧
      (live.readiness = .ready ↔ ∃ position, LastPoint config (probes.map Probe.outcome) position ∧
        SuccessPoint config ((probes.map Probe.outcome).take position)) ∧
      (∀ kind : ReadinessFailureKind, live.readiness = kind.state ↔
        ∃ position, LastPoint config (probes.map Probe.outcome) position ∧
          FailurePoint config ((probes.map Probe.outcome).take position) ∧
          ((probes.map Probe.outcome).take position).getLast? = some (.failure kind)) ∧
      ∀ probe : Probe, ∃ after : LiveBackend,
        (inner.deliverAll published config id generation (probes ++ [probe])).backends id = some after ∧
        ∀ old new,
          ((inner.deliverAll published config id generation probes).deliver published config id generation probe).2 =
            some (old, new) ↔ old = live.readiness ∧ new = after.readiness ∧ old ≠ new := by
  obtain ⟨live, hlive, hcurrent, hreflects⟩ := RoutingInner.deliverAll_reflects hconfig hgeneration hfresh probes
  obtain ⟨hchecking, hready, hfailed⟩ := hreflects.settled.iff hconfig
  refine ⟨live, hlive, hchecking, hready, hfailed, ?_⟩
  intro probe
  obtain ⟨hstate, hresult⟩ :
      ((inner.deliverAll published config id generation probes).deliver published config id
          generation probe).1.backends id =
        some (live.probe config probe) ∧
      ((inner.deliverAll published config id generation probes).deliver published config id generation probe).2 =
        live.readinessChange (live.probe config probe) :=
    RoutingInner.deliver_current hgeneration hlive hcurrent probe
  refine ⟨live.probe config probe, ?_, ?_⟩
  · rw [RoutingInner.deliverAll, List.foldl_append]
    exact hstate
  · intro old new
    rw [hresult, LiveBackend.readinessChange]
    by_cases hchanged : live.readiness ≠ (live.probe config probe).readiness
    · rw [if_pos hchanged, Option.some.injEq, Prod.mk.injEq]
      constructor
      · rintro ⟨rfl, rfl⟩
        exact ⟨rfl, rfl, hchanged⟩
      · rintro ⟨rfl, rfl, _⟩
        exact ⟨rfl, rfl⟩
    · rw [if_neg hchanged]
      constructor
      · intro h
        cases h
      · rintro ⟨rfl, rfl, hne⟩
        exact absurd hne hchanged

/-- One backend, published for the first time. -/
def readinessRuntime : PublishedRuntime :=
  .fromConfig (.new [⟨"a", ⟨"a", "/"⟩, ⟨"a", "/metrics"⟩, ⟨"a", "/v1/models"⟩, none⟩]) (by decide)

/-- Two successes make the backend ready, and a single failure after them leaves it so. -/
theorem readiness_means_its_history_single_failure :
    ∃ live : LiveBackend, ((RoutingInner.new readinessRuntime).deliverAll readinessRuntime ⟨2000, 1000, 2, 3⟩ "a" 1
      [⟨.success, "", 0⟩, ⟨.success, "", 1⟩, ⟨.failure .unready, "503", 2⟩]).backends "a" = some live ∧
      live.readiness = .ready := by
  obtain ⟨live, hlive, _, hready, _⟩ := readiness_means_its_history readinessRuntime ⟨2000, 1000, 2, 3⟩
    ⟨by decide, by decide, by decide, by decide⟩ "a" 1 (by decide) (RoutingInner.new readinessRuntime) (by decide)
    [⟨.success, "", 0⟩, ⟨.success, "", 1⟩, ⟨.failure .unready, "503", 2⟩]
  refine ⟨live, hlive, hready.mpr ⟨2, ⟨by decide, by decide, ?_⟩, by decide⟩⟩
  intro later hlater hlength
  have hlast : later = 3 := Nat.le_antisymm hlength hlater
  rw [hlast]
  decide

end MistralrsProxy
