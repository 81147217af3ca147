import Mathlib.Order.Interval.Finset.Nat
import MistralrsProxy.RoutingReadiness
import MistralrsProxy.RuntimeReload

/-! Probe results that arrive late or out of order. Two filters keep them out of the live state: the topology generation
a result was started under, and the serial of its scrape. -/

open Transition

namespace MistralrsProxy

/-- What reaches the live state of one backend. -/
inductive ProbeEvent where
  | beginScrape (dispatches now : Nat)
  | success (metrics : MistralRsMetrics) (scrape : MetricsScrapeContext) (now : Nat)
  | failure (serial : Nat) (error : String) (now : Nat)
  | readiness (config : ReadinessConfig) (probe : Probe)

/-- The end of a scrape. -/
inductive ScrapeCompletion where
  | success (metrics : MistralRsMetrics) (scrape : MetricsScrapeContext)
  | failure (serial : Nat)
  deriving DecidableEq

def ScrapeCompletion.serial : ScrapeCompletion → Nat
  | .success _ scrape => scrape.serial
  | .failure serial => serial

/-- A success without a running or waiting sequence. -/
def ScrapeCompletion.isIdle : ScrapeCompletion → Bool
  | .success metrics _ => metrics.engineIdle
  | .failure _ => false

def ScrapeCompletion.observation : ScrapeCompletion → Option MetricsObservation
  | .success metrics scrape => some ⟨metrics, scrape.observedAt, scrape.dispatchesAtObservation, scrape.serial⟩
  | .failure _ => none

def ProbeEvent.completion : ProbeEvent → Option ScrapeCompletion
  | .success metrics scrape _ => some (.success metrics scrape)
  | .failure serial _ _ => some (.failure serial)
  | .beginScrape _ _ | .readiness _ _ => none

namespace LiveBackend

def receive (live : LiveBackend) : ProbeEvent → LiveBackend
  | .beginScrape dispatches now => (live.beginScrape dispatches now).1
  | .success metrics scrape now => live.metricsSuccess metrics scrape now
  | .failure serial error now => live.metricsFailure serial error now
  | .readiness config probe => live.probe config probe

/-- The live state of a generation after these events and no others. -/
def replay (generation : Nat) (events : List ProbeEvent) : LiveBackend :=
  events.foldl receive (LiveBackend.new generation)

/-- The completions among the events that change the live state, oldest first. -/
def effective (live : LiveBackend) : List ProbeEvent → List ScrapeCompletion
  | [] => []
  | event :: rest =>
      match event.completion with
      | none => (live.receive event).effective rest
      | some completion =>
          if live.receive event = live then live.effective rest
          else completion :: (live.receive event).effective rest

end LiveBackend

/-- A probe cycle reads the instances and tags what it starts with their generations. -/
structure ProbeWorld where
  runtime : RuntimeState
  inner : RoutingInner
  tags : List (BackendId × Nat)
  scrapes : List ((BackendId × Nat) × MetricsScrapeContext)

inductive ProbeAction where
  | runtime (action : ReloadAction)
  | synchronise
  | readInstances
  | beginScrape (id : BackendId) (generation now : Nat)
  | scrapeSuccess (id : BackendId) (generation : Nat) (scrape : MetricsScrapeContext) (metrics : MistralRsMetrics)
    (now : Nat)
  | scrapeFailure (id : BackendId) (generation : Nat) (scrape : MetricsScrapeContext) (error : String) (now : Nat)
  | readiness (id : BackendId) (generation : Nat) (probe : Probe)

namespace ProbeWorld

def published (world : ProbeWorld) : PublishedRuntime := world.runtime.published

/-- The live state as the next call sees it. -/
def synchronised (world : ProbeWorld) : RoutingInner := world.inner.ensureBackends world.published

/-- The assignments a scrape is started with. -/
def dispatches (id : BackendId) (world : ProbeWorld) : Nat :=
  ((BackendRegistry.get id world.runtime.registry).map SlotState.totalAcquired).getD 0

/-- The serials of the backend are not used up. -/
def serialsLeft (id : BackendId) (world : ProbeWorld) : Bool :=
  (world.synchronised.backends id).all fun live => decide (live.metricsScrapesStarted < u64Max)

/-- One step. A result is only delivered for an instance that some cycle has read, and a completion only for a scrape
that is in flight. A scrape beyond the last serial panics. -/
def step (world : ProbeWorld) : ProbeAction → Option ProbeWorld
  | .runtime action => (world.runtime.step action).map fun runtime => { world with runtime := runtime }
  | .synchronise => some { world with inner := world.synchronised }
  | .readInstances =>
      some { world with
        tags := world.published.backendInstances.map (fun entry => (entry.1.id, entry.2)) ++ world.tags }
  | .beginScrape id generation now =>
      if (id, generation) ∈ world.tags ∧ world.serialsLeft id = true then
        match world.inner.beginMetricsScrape world.published world.runtime.registry id generation now with
        | (inner, none) => some { world with inner := inner }
        | (inner, some scrape) =>
            some { world with inner := inner, scrapes := ((id, generation), scrape) :: world.scrapes }
      else none
  | .scrapeSuccess id generation scrape metrics now =>
      if ((id, generation), scrape) ∈ world.scrapes then
        some { world with
          inner := world.inner.recordMetricsSuccessFor world.published id generation metrics scrape now
          scrapes := world.scrapes.erase ((id, generation), scrape) }
      else none
  | .scrapeFailure id generation scrape error now =>
      if ((id, generation), scrape) ∈ world.scrapes then
        some { world with
          inner := world.inner.recordMetricsFailureFor world.published id generation scrape.serial error now
          scrapes := world.scrapes.erase ((id, generation), scrape) }
      else none
  | .readiness id generation probe =>
      if (id, generation) ∈ world.tags then
        some { world with
          inner := (world.inner.deliver world.published world.published.config.readiness id generation probe).1 }
      else none

end ProbeWorld

def probeSystem : System ProbeWorld ProbeAction where
  initial world := reloadSystem.initial world.runtime ∧ world.inner = RoutingInner.new world.published ∧
    world.tags = [] ∧ world.scrapes = []
  step := ProbeWorld.step

/-- The tag of an action and the event it delivers. -/
def ProbeAction.event (world : ProbeWorld) : ProbeAction → Option ((BackendId × Nat) × ProbeEvent)
  | .runtime _ | .synchronise | .readInstances => none
  | .beginScrape id generation now => some ((id, generation), .beginScrape (world.dispatches id) now)
  | .scrapeSuccess id generation scrape metrics now => some ((id, generation), .success metrics scrape now)
  | .scrapeFailure id generation scrape error now => some ((id, generation), .failure scrape.serial error now)
  | .readiness id generation probe => some ((id, generation), .readiness world.published.config.readiness probe)

/-- The events of the record that were started for a backend under a generation, oldest first. -/
def history (id : BackendId) (generation : Nat) (record : List (Step ProbeWorld ProbeAction)) : List ProbeEvent :=
  record.reverse.filterMap fun step => (step.action.event step.before).bind fun event =>
    if event.1 = (id, generation) then some event.2 else none

namespace LiveBackend

variable {live : LiveBackend} {events : List ProbeEvent} {event : ProbeEvent} {generation : Nat}

theorem receive_topologyGeneration (live : LiveBackend) (event : ProbeEvent) :
    (live.receive event).topologyGeneration = live.topologyGeneration := by
  cases event with
  | beginScrape dispatches now => rfl
  | success metrics scrape now =>
      simp only [receive, metricsSuccess]
      split <;> rfl
  | failure serial error now =>
      simp only [receive, metricsFailure]
      split <;> rfl
  | readiness config probe =>
      simp only [receive, LiveBackend.probe]
      split <;> rfl

theorem replay_append (generation : Nat) (events : List ProbeEvent) (event : ProbeEvent) :
    replay generation (events ++ [event]) = (replay generation events).receive event := List.foldl_append ..

theorem replay_topologyGeneration (generation : Nat) (events : List ProbeEvent) :
    (replay generation events).topologyGeneration = generation := by
  induction events using List.reverseRecOn with
  | nil => rfl
  | append_singleton events event ih => rw [replay_append, receive_topologyGeneration, ih]

/-- A completion changes the live state exactly if its scrape is newer than any completed one. -/
theorem receive_eq_self_iff {completion : ScrapeCompletion} (h : event.completion = some completion) :
    live.receive event = live ↔ completion.serial ≤ live.metricsLastCompletedScrape := by
  cases event with
  | beginScrape dispatches now => cases h
  | readiness config probe => cases h
  | success metrics scrape now =>
      cases h
      simp only [receive, metricsSuccess, ScrapeCompletion.serial]
      split
      · rename_i hle
        simp [hle]
      · rename_i hlt
        refine ⟨fun hsame => ?_, fun hle => absurd hle hlt⟩
        have hserial : scrape.serial = live.metricsLastCompletedScrape := congrArg metricsLastCompletedScrape hsame
        exact hserial.le
  | failure serial error now =>
      cases h
      simp only [receive, metricsFailure, ScrapeCompletion.serial]
      split
      · rename_i hle
        simp [hle]
      · rename_i hlt
        refine ⟨fun hsame => ?_, fun hle => absurd hle hlt⟩
        have hserial : serial = live.metricsLastCompletedScrape := congrArg metricsLastCompletedScrape hsame
        exact hserial.le

/-- Scrape starts and readiness results do not touch the metrics. -/
theorem receive_of_no_completion (live : LiveBackend) (h : event.completion = none) :
    (live.receive event).metricsLastCompletedScrape = live.metricsLastCompletedScrape ∧
      (live.receive event).metrics = live.metrics ∧ (live.receive event).engineIdleStreak = live.engineIdleStreak := by
  cases event with
  | beginScrape dispatches now => exact ⟨rfl, rfl, rfl⟩
  | success metrics scrape now => cases h
  | failure serial error now => cases h
  | readiness config probe =>
      simp only [receive, LiveBackend.probe]
      split
      · exact ⟨rfl, rfl, rfl⟩
      · exact ⟨rfl, rfl, rfl⟩

theorem receive_of_newer {completion : ScrapeCompletion} (h : event.completion = some completion)
    (hnewer : live.metricsLastCompletedScrape < completion.serial) :
    (live.receive event).metricsLastCompletedScrape = completion.serial ∧
      (live.receive event).metrics = (completion.observation.map some).getD live.metrics ∧
      (live.receive event).engineIdleStreak =
        if completion.isIdle then min (live.engineIdleStreak + 1) u64Max else 0 := by
  cases event with
  | beginScrape dispatches now => cases h
  | readiness config probe => cases h
  | success metrics scrape now =>
      cases h
      have hnot : ¬scrape.serial ≤ live.metricsLastCompletedScrape := Nat.not_le.mpr hnewer
      simp only [receive, metricsSuccess, if_neg hnot]
      exact ⟨rfl, rfl, rfl⟩
  | failure serial error now =>
      cases h
      have hnot : ¬serial ≤ live.metricsLastCompletedScrape := Nat.not_le.mpr hnewer
      simp only [receive, metricsFailure, if_neg hnot]
      exact ⟨rfl, rfl, rfl⟩

theorem effective_append (live : LiveBackend) (events : List ProbeEvent) (event : ProbeEvent) :
    live.effective (events ++ [event]) = live.effective events ++
      match event.completion with
      | none => []
      | some completion =>
          if (events.foldl receive live).receive event = events.foldl receive live then [] else [completion] := by
  induction events generalizing live with
  | nil =>
      cases hcompletion : event.completion with
      | none => simp only [List.nil_append, effective, hcompletion]
      | some completion =>
          simp only [List.nil_append, effective, hcompletion, List.foldl_nil]
          rfl
  | cons first events ih =>
      rw [List.cons_append, effective, effective, List.foldl_cons]
      cases first.completion with
      | none => exact ih _
      | some completion =>
          simp only
          split
          · rename_i hsame
            rw [ih, hsame]
          · rw [ih, List.cons_append]

theorem mem_effective {completion : ScrapeCompletion} (h : completion ∈ live.effective events) :
    ∃ event ∈ events, event.completion = some completion := by
  induction events generalizing live with
  | nil => cases h
  | cons first rest ih =>
      rw [effective] at h
      have hrest : ∀ {after : LiveBackend}, completion ∈ after.effective rest →
          ∃ event ∈ first :: rest, event.completion = some completion := by
        intro after hmem
        obtain ⟨event, hevent, hcompletion⟩ := ih hmem
        exact ⟨event, List.mem_cons_of_mem _ hevent, hcompletion⟩
      split at h
      · exact hrest h
      · rename_i found hfound
        split at h
        · exact hrest h
        · rcases List.mem_cons.mp h with rfl | h
          · exact ⟨first, List.mem_cons_self, hfound⟩
          · exact hrest h

/-- What a live state holds of the completions that had an effect on it. -/
structure Summarises (completions : List ScrapeCompletion) (live : LiveBackend) : Prop where
  increasing : (completions.map ScrapeCompletion.serial).Pairwise (· < ·)
  positive : ∀ completion ∈ completions, 1 ≤ completion.serial
  last : ∀ completion ∈ completions, completion.serial ≤ live.metricsLastCompletedScrape
  metrics : live.metrics = (completions.filterMap ScrapeCompletion.observation).getLast?
  idle : live.engineIdleStreak = min (trailing ScrapeCompletion.isIdle completions) u64Max

/-- A newer completion is the last one from now on. -/
theorem Summarises.append {completions : List ScrapeCompletion} {after : LiveBackend} (h : live.Summarises completions)
    (completion : ScrapeCompletion) (hserial : live.metricsLastCompletedScrape < completion.serial)
    (hlast : after.metricsLastCompletedScrape = completion.serial)
    (hmetrics : after.metrics = (completion.observation.map some).getD live.metrics)
    (hidle : after.engineIdleStreak = if completion.isIdle then min (live.engineIdleStreak + 1) u64Max else 0) :
    after.Summarises (completions ++ [completion]) where
  increasing := by
    rw [List.map_append, List.map_singleton, List.pairwise_append]
    refine ⟨h.increasing, List.pairwise_singleton _ _, ?_⟩
    intro serial hmem newest hnewest
    obtain ⟨older, holder, rfl⟩ := List.mem_map.mp hmem
    rw [List.mem_singleton.mp hnewest]
    exact (h.last older holder).trans_lt hserial
  positive := by
    intro other hmem
    rcases List.mem_append.mp hmem with hmem | hmem
    · exact h.positive other hmem
    · rw [List.mem_singleton.mp hmem]
      omega
  last := by
    intro other hmem
    rw [hlast]
    rcases List.mem_append.mp hmem with hmem | hmem
    · exact (h.last other hmem).trans hserial.le
    · rw [List.mem_singleton.mp hmem]
  metrics := by
    rw [hmetrics, List.filterMap_append, h.metrics]
    cases hobservation : completion.observation with
    | none => simp [hobservation]
    | some observation => simp [hobservation]
  idle := by
    rw [hidle, trailing_append_singleton, h.idle]
    split
    · omega
    · rfl

/-- The summary of a replay. -/
theorem replay_summarises (generation : Nat) (events : List ProbeEvent) :
    (replay generation events).Summarises ((LiveBackend.new generation).effective events) := by
  induction events using List.reverseRecOn with
  | nil =>
      refine ⟨List.Pairwise.nil, ?_, ?_, rfl, rfl⟩
      · exact fun _ hmem => absurd hmem List.not_mem_nil
      · exact fun _ hmem => absurd hmem List.not_mem_nil
  | append_singleton events event ih =>
      rw [replay_append, effective_append]
      change ((replay generation events).receive event).Summarises (_ ++ match event.completion with
        | none => []
        | some completion =>
            if (replay generation events).receive event = replay generation events then [] else [completion])
      cases hcompletion : event.completion with
      | none =>
          rw [List.append_nil]
          obtain ⟨hlast, hmetrics, hidle⟩ := receive_of_no_completion (replay generation events) hcompletion
          exact ⟨ih.increasing, ih.positive, fun completion hmem => hlast ▸ ih.last completion hmem,
            hmetrics.trans ih.metrics, hidle.trans ih.idle⟩
      | some completion =>
          simp only [receive_eq_self_iff hcompletion]
          split
          · rename_i hlate
            rw [(receive_eq_self_iff hcompletion).mpr hlate, List.append_nil]
            exact ih
          · rename_i hnewer
            obtain ⟨hlast, hmetrics, hidle⟩ := receive_of_newer hcompletion (Nat.not_le.mp hnewer)
            exact ih.append completion (Nat.not_le.mp hnewer) hlast hmetrics hidle

end LiveBackend

/-- Serials increase from one on, so there are at most as many as the last one says. -/
theorem LiveBackend.Summarises.length_le {live : LiveBackend} {completions : List ScrapeCompletion}
    (h : live.Summarises completions)
    {bound : Nat} (hbound : ∀ completion ∈ completions, completion.serial ≤ bound) : completions.length ≤ bound := by
  have hnodup : (completions.map ScrapeCompletion.serial).Nodup := h.increasing.imp ne_of_lt
  have hsubset : (completions.map ScrapeCompletion.serial).toFinset ⊆ Finset.Icc 1 bound := by
    intro serial hmem
    obtain ⟨completion, hcompletion, rfl⟩ := List.mem_map.mp (List.mem_toFinset.mp hmem)
    exact Finset.mem_Icc.mpr ⟨h.positive completion hcompletion, hbound completion hcompletion⟩
  have hcard := Finset.card_le_card hsubset
  rw [List.toFinset_card_of_nodup hnodup, List.length_map, Nat.card_Icc] at hcard
  omega

theorem trailing_le_length {α : Type} (test : α → Bool) (items : List α) : trailing test items ≤ items.length := by
  have hle := (List.takeWhile_prefix test (l := items.reverse)).length_le
  rw [List.length_reverse] at hle
  exact hle

/-- With increasing serials the last success is the one with the largest serial. -/
theorem getLast?_observation_iff {completions : List ScrapeCompletion}
    (h : (completions.map ScrapeCompletion.serial).Pairwise (· < ·)) (observation : MetricsObservation) :
    (completions.filterMap ScrapeCompletion.observation).getLast? = some observation ↔ ∃ completion ∈ completions,
      completion.observation = some observation ∧ ∀ other ∈ completions, ∀ seen, other.observation = some seen →
        other.serial ≤ completion.serial := by
  induction completions using List.reverseRecOn with
  | nil => simp
  | append_singleton older newest ih =>
      rw [List.map_append, List.map_singleton, List.pairwise_append] at h
      obtain ⟨hincreasing, _, hbelow⟩ := h
      have hnewest : ∀ other ∈ older, other.serial < newest.serial := fun other hmem =>
        hbelow _ (List.mem_map_of_mem hmem) _ (List.mem_singleton.mpr rfl)
      rw [List.filterMap_append]
      cases hobserved : newest.observation with
      | none =>
          rw [List.filterMap_cons_none hobserved, List.filterMap_nil, List.append_nil, ih hincreasing]
          constructor
          · rintro ⟨completion, hmem, hfound, hlargest⟩
            refine ⟨completion, List.mem_append_left _ hmem, hfound, ?_⟩
            intro other hother seen hseen
            rcases List.mem_append.mp hother with hother | hother
            · exact hlargest other hother seen hseen
            · rw [List.mem_singleton.mp hother, hobserved] at hseen
              cases hseen
          · rintro ⟨completion, hmem, hfound, hlargest⟩
            rcases List.mem_append.mp hmem with hmem | hmem
            · exact ⟨completion, hmem, hfound, fun other hother => hlargest other (List.mem_append_left _ hother)⟩
            · rw [List.mem_singleton.mp hmem, hobserved] at hfound
              cases hfound
      | some observed =>
          rw [List.filterMap_cons_some hobserved, List.filterMap_nil, List.getLast?_concat]
          constructor
          · intro hsame
            refine ⟨newest, by simp, hobserved.trans hsame, ?_⟩
            intro other hother _ _
            rcases List.mem_append.mp hother with hother | hother
            · exact (hnewest other hother).le
            · rw [List.mem_singleton.mp hother]
          · rintro ⟨completion, hmem, hfound, hlargest⟩
            have hle := hlargest newest (by simp) observed hobserved
            rcases List.mem_append.mp hmem with hmem | hmem
            · exact absurd (hnewest completion hmem) (Nat.not_lt.mpr hle)
            · rw [List.mem_singleton.mp hmem, hobserved] at hfound
              exact hfound

namespace RoutingInner

/-- An event for an instance, as it is delivered. -/
def receive (published : PublishedRuntime) (id : BackendId) (generation : Nat) (event : ProbeEvent)
    (inner : RoutingInner) :
    RoutingInner :=
  (inner.updateLive published id generation fun live => (live.receive event, ())).1

variable {published : PublishedRuntime} {id other : BackendId} {generation : Nat} {inner : RoutingInner}

theorem updateLive_fst {α : Type} (f : LiveBackend → LiveBackend × α) :
    (inner.updateLive published id generation f).1 =
      (inner.updateLive published id generation fun live => ((f live).1, ())).1 := by
  unfold updateLive
  dsimp only
  cases (inner.ensureBackends published).backends id with
  | none => rfl
  | some live =>
      by_cases hgeneration : live.topologyGeneration = generation
      · simp only [hgeneration, ne_eq, not_true_eq_false, if_false]
      · simp only [hgeneration, ne_eq, not_false_eq_true, if_true]

theorem deliver_eq_receive (config : ReadinessConfig) (probe : Probe) :
    (inner.deliver published config id generation probe).1 =
      inner.receive published id generation (.readiness config probe) := by
  obtain ⟨outcome, error, now⟩ := probe
  cases outcome with
  | success =>
      exact updateLive_fst fun live =>
        (live.readinessSuccess config now, live.readinessChange (live.readinessSuccess config now))
  | failure kind =>
      exact updateLive_fst fun live =>
        (live.readinessFailure config kind error now,
          live.readinessChange (live.readinessFailure config kind error now))

/-- After a delivery the live state is synchronised, and only that of the instance has changed. -/
theorem receive_synchronised (event : ProbeEvent) (inner : RoutingInner) :
    ((inner.receive published id generation event).ensureBackends published).backends other =
      ((inner.ensureBackends published).backends other).map fun live =>
        if other = id ∧ live.topologyGeneration = generation then live.receive event else live := by
  have hreceived : (inner.receive published id generation event).backends other =
      ((inner.ensureBackends published).backends other).map fun live =>
        if other = id ∧ live.topologyGeneration = generation then live.receive event else live := by
    rw [receive, updateLive_backends]
    by_cases hother : other = id
    · subst hother
      simp
    · simp [hother]
  cases hensured : (inner.ensureBackends published).backends other with
  | none =>
      have hnone : published.backendGeneration other = none := by
        simpa [ensureBackends] using hensured
      simp [ensureBackends, hnone]
  | some live =>
      rw [hensured, Option.map_some] at hreceived
      rw [Option.map_some]
      apply ensureBackends_of_current hreceived
      rw [(ensureBackends_some hensured).1]
      split
      · rw [LiveBackend.receive_topologyGeneration]
      · rfl

theorem receive_held (event : ProbeEvent) {live : LiveBackend}
    (h : (inner.receive published id generation event).backends other = some live) :
    published.backendGeneration other = some live.topologyGeneration := by
  rw [receive, updateLive_backends] at h
  have hmap : ∃ before, (inner.ensureBackends published).backends other = some before ∧
      live.topologyGeneration = before.topologyGeneration := by
    by_cases hother : other = id
    · subst hother
      rw [if_pos rfl] at h
      obtain ⟨before, hbefore, rfl⟩ := Option.map_eq_some_iff.mp h
      refine ⟨before, hbefore, ?_⟩
      split
      · exact LiveBackend.receive_topologyGeneration before event
      · rfl
    · rw [if_neg hother] at h
      exact ⟨live, h, rfl⟩
  obtain ⟨before, hbefore, hsame⟩ := hmap
  rw [hsame]
  exact (ensureBackends_some hbefore).1

end RoutingInner

theorem history_cons (id : BackendId) (generation : Nat) (step : Step ProbeWorld ProbeAction)
    (record : List (Step ProbeWorld ProbeAction)) :
    history id generation (step :: record) = history id generation record ++
      ((step.action.event step.before).bind fun event =>
        if event.1 = (id, generation) then some event.2 else none).toList := by
  unfold history
  rw [List.reverse_cons, List.filterMap_append, List.filterMap_cons]
  cases (step.action.event step.before).bind fun event => if event.1 = (id, generation) then some event.2 else none with
  | none => rfl
  | some event => rfl

namespace ProbeWorld

variable {world next : ProbeWorld} {action : ProbeAction} {tag : BackendId × Nat} {event : ProbeEvent}

/-- The tag of what a world may deliver, with a serial that was handed out. -/
def MayDeliver (world : ProbeWorld) (tag : BackendId × Nat) (event : ProbeEvent) : Prop :=
  (tag ∈ world.tags ∨ ∃ scrape, (tag, scrape) ∈ world.scrapes) ∧
    ∀ completion, event.completion = some completion → ∃ scrape, (tag, scrape) ∈ world.scrapes ∧
      completion.serial = scrape.serial

/-- A serial that is handed out is within range. -/
theorem begin_serial (world : ProbeWorld) {id : BackendId} {generation now : Nat} {scrape : MetricsScrapeContext}
    (hleft : world.serialsLeft id = true)
    (h : (world.inner.beginMetricsScrape world.published world.runtime.registry id generation now).2 = some scrape) :
    scrape.serial ≤ u64Max := by
  rw [RoutingInner.beginMetricsScrape, RoutingInner.updateLive_result, Option.bind_eq_some_iff] at h
  obtain ⟨live, hlive, hscrape⟩ := h
  split at hscrape
  · cases hscrape
    have hstarted := hleft
    rw [serialsLeft, show world.synchronised.backends id = some live from hlive] at hstarted
    have hstarted : live.metricsScrapesStarted < u64Max := of_decide_eq_true hstarted
    exact hstarted
  · cases hscrape

/-- A step that delivers an event does nothing else to the live state. -/
theorem step_event (h : world.step action = some next) (hevent : action.event world = some (tag, event)) :
    next.runtime = world.runtime ∧ next.tags = world.tags ∧
      next.inner = world.inner.receive world.published tag.1 tag.2 event ∧ world.MayDeliver tag event ∧
      ∀ flight ∈ next.scrapes, flight ∈ world.scrapes ∨ flight.1 = tag ∧ tag ∈ world.tags ∧
      flight.2.serial ≤ u64Max := by
  cases action with
  | runtime action => cases hevent
  | synchronise => cases hevent
  | readInstances => cases hevent
  | beginScrape id generation now =>
      cases hevent
      simp only [step] at h
      split at h
      · rename_i henabled
        have hinner : (world.inner.beginMetricsScrape world.published world.runtime.registry id generation now).1 =
            world.inner.receive world.published id generation (.beginScrape (world.dispatches id) now) :=
          RoutingInner.updateLive_fst (LiveBackend.beginScrape (world.dispatches id) now)
        have hnone : ∀ completion, (ProbeEvent.beginScrape (world.dispatches id) now).completion = some completion →
            ∃ scrape, ((id, generation), scrape) ∈ world.scrapes ∧ completion.serial = scrape.serial :=
          fun _ hcompletion => nomatch hcompletion
        split at h
        · rename_i inner hresult
          cases h
          rw [hresult] at hinner
          exact ⟨rfl, rfl, hinner, ⟨.inl henabled.1, hnone⟩, fun flight hmem => .inl hmem⟩
        · rename_i inner scrape hresult
          cases h
          have hserial := world.begin_serial henabled.2 (congrArg Prod.snd hresult)
          rw [hresult] at hinner
          refine ⟨rfl, rfl, hinner, ⟨.inl henabled.1, hnone⟩, ?_⟩
          intro flight hmem
          rcases List.mem_cons.mp hmem with rfl | hmem
          · exact .inr ⟨rfl, henabled.1, hserial⟩
          · exact .inl hmem
      · cases h
  | scrapeSuccess id generation scrape metrics now =>
      cases hevent
      simp only [step] at h
      split at h
      · rename_i hflying
        cases h
        refine ⟨rfl, rfl, rfl, ⟨.inr ⟨scrape, hflying⟩, ?_⟩, ?_⟩
        · intro completion hcompletion
          cases hcompletion
          exact ⟨scrape, hflying, rfl⟩
        · exact fun flight hmem => .inl (List.mem_of_mem_erase hmem)
      · cases h
  | scrapeFailure id generation scrape error now =>
      cases hevent
      simp only [step] at h
      split at h
      · rename_i hflying
        cases h
        refine ⟨rfl, rfl, rfl, ⟨.inr ⟨scrape, hflying⟩, ?_⟩, ?_⟩
        · intro completion hcompletion
          cases hcompletion
          exact ⟨scrape, hflying, rfl⟩
        · exact fun flight hmem => .inl (List.mem_of_mem_erase hmem)
      · cases h
  | readiness id generation probe =>
      cases hevent
      simp only [step] at h
      split at h
      · rename_i htag
        cases h
        refine ⟨rfl, rfl, RoutingInner.deliver_eq_receive _ probe, ⟨.inl htag, ?_⟩, ?_⟩
        · intro completion hcompletion
          cases hcompletion
        · exact fun flight hmem => .inl hmem
      · cases h

/-- The other steps change the configuration, synchronise, or read the instances. -/
theorem step_quiet (h : world.step action = some next) (hevent : action.event world = none) :
    next.scrapes = world.scrapes ∧
      ((∃ reload, world.runtime.step reload = some next.runtime ∧ next.inner = world.inner ∧ next.tags = world.tags) ∨
        next.runtime = world.runtime ∧ next.inner = world.synchronised ∧ next.tags = world.tags ∨
        next.runtime = world.runtime ∧ next.inner = world.inner ∧
          next.tags = world.published.backendInstances.map (fun entry => (entry.1.id, entry.2)) ++ world.tags) := by
  cases action with
  | runtime action =>
      simp only [step, Option.map_eq_some_iff] at h
      obtain ⟨runtime, hstep, rfl⟩ := h
      exact ⟨rfl, .inl ⟨action, hstep, rfl, rfl⟩⟩
  | synchronise =>
      cases h
      exact ⟨rfl, .inr (.inl ⟨rfl, rfl, rfl⟩)⟩
  | readInstances =>
      cases h
      exact ⟨rfl, .inr (.inr ⟨rfl, rfl, rfl⟩)⟩
  | beginScrape id generation now => cases hevent
  | scrapeSuccess id generation scrape metrics now => cases hevent
  | scrapeFailure id generation scrape error now => cases hevent
  | readiness id generation probe => cases hevent

end ProbeWorld

/-- The invariant of a run: the live state of the current generation is the replay of its own events, and nothing that
was started or kept belongs to a generation still to come. -/
structure ProbesKept (record : List (Step ProbeWorld ProbeAction)) (world : ProbeWorld) : Prop where
  current : ∀ id generation, world.published.backendGeneration id = some generation →
    world.synchronised.backends id = some (LiveBackend.replay generation (history id generation record))
  tagged : ∀ tag ∈ world.tags, tag.2 < world.published.nextBackendGeneration
  flying : ∀ flight ∈ world.scrapes, flight.1.2 < world.published.nextBackendGeneration ∧ flight.2.serial ≤ u64Max
  held : ∀ id live, world.inner.backends id = some live →
    live.topologyGeneration < world.published.nextBackendGeneration
  future : ∀ id generation, world.published.nextBackendGeneration ≤ generation → history id generation record = []
  serials : ∀ id generation, ∀ event ∈ history id generation record, ∀ completion,
    event.completion = some completion → completion.serial ≤ u64Max

namespace ProbesKept

variable {record : List (Step ProbeWorld ProbeAction)} {world next : ProbeWorld} {action : ProbeAction}

theorem start (h : probeSystem.initial world) : ProbesKept [] world := by
  obtain ⟨_, hinner, htags, hscrapes⟩ := h
  refine ⟨?_, ?_, ?_, ?_, fun _ _ _ => rfl, fun _ _ _ hmem => absurd hmem List.not_mem_nil⟩
  · intro id generation hgeneration
    have hlive : world.inner.backends id = some (LiveBackend.new generation) := by
      simp only [hinner, RoutingInner.new, hgeneration, Option.map_some]
    exact RoutingInner.ensureBackends_of_current hlive hgeneration
  · rw [htags]
    exact fun _ hmem => absurd hmem List.not_mem_nil
  · rw [hscrapes]
    exact fun _ hmem => absurd hmem List.not_mem_nil
  · intro id live hlive
    rw [hinner, RoutingInner.new] at hlive
    obtain ⟨generation, hgeneration, rfl⟩ := Option.map_eq_some_iff.mp hlive
    exact world.published.below id generation hgeneration

/-- An event that is delivered reaches the live state of its own generation and no other. -/
theorem event (h : ProbesKept record world) (hstep : world.step action = some next) {tag : BackendId × Nat}
    {event : ProbeEvent} (hevent : action.event world = some (tag, event)) :
    ProbesKept (⟨world, action, next⟩ :: record) next := by
  obtain ⟨hruntime, htags, hinner, ⟨hmay, hcompletes⟩, hflights⟩ := ProbeWorld.step_event hstep hevent
  have hpublished : next.published = world.published := congrArg RuntimeState.published hruntime
  have hhistory : ∀ id generation, history id generation (⟨world, action, next⟩ :: record) =
      history id generation record ++ (if tag = (id, generation) then [event] else []) := by
    intro id generation
    rw [history_cons, hevent, Option.bind_some]
    split <;> rfl
  have htag : tag.2 < world.published.nextBackendGeneration := by
    rcases hmay with hmem | ⟨scrape, hmem⟩
    · exact h.tagged tag hmem
    · exact (h.flying _ hmem).1
  refine ⟨?_, ?_, ?_, ?_, ?_, ?_⟩
  · intro id generation hgeneration
    rw [hpublished] at hgeneration
    have hbefore : (world.inner.ensureBackends world.published).backends id = _ := h.current id generation hgeneration
    rw [ProbeWorld.synchronised, hinner, hpublished, RoutingInner.receive_synchronised, hbefore, Option.map_some,
      LiveBackend.replay_topologyGeneration, hhistory]
    by_cases hsame : tag = (id, generation)
    · rw [if_pos hsame, if_pos ⟨by rw [hsame], by rw [hsame]⟩, LiveBackend.replay_append]
    · rw [if_neg hsame, List.append_nil, if_neg]
      rintro ⟨rfl, rfl⟩
      exact hsame rfl
  · rw [htags, hpublished]
    exact h.tagged
  · intro flight hmem
    rw [hpublished]
    rcases hflights flight hmem with hold | ⟨hnew, hmem, hserial⟩
    · exact h.flying flight hold
    · exact ⟨hnew ▸ h.tagged tag hmem, hserial⟩
  · intro id live hlive
    rw [hinner] at hlive
    rw [hpublished]
    exact world.published.below id _ (RoutingInner.receive_held event hlive)
  · intro id generation hfuture
    rw [hpublished] at hfuture
    have hother : tag ≠ (id, generation) := by
      rintro rfl
      exact absurd htag (Nat.not_lt.mpr hfuture)
    rw [hhistory, if_neg hother, List.append_nil]
    exact h.future id generation hfuture
  · intro id generation other hmem completion hcompletion
    rw [hhistory] at hmem
    rcases List.mem_append.mp hmem with hmem | hmem
    · exact h.serials id generation other hmem completion hcompletion
    · split at hmem
      · rw [List.mem_singleton.mp hmem] at hcompletion
        obtain ⟨scrape, hflying, hserial⟩ := hcompletes completion hcompletion
        rw [hserial]
        exact (h.flying _ hflying).2
      · cases hmem

/-- A step that delivers nothing keeps the histories. -/
theorem quiet (h : ProbesKept record world) (hstep : world.step action = some next)
    (hevent : action.event world = none) :
    ProbesKept (⟨world, action, next⟩ :: record) next := by
  obtain ⟨hscrapes, hcases⟩ := ProbeWorld.step_quiet hstep hevent
  have hhistory : ∀ id generation, history id generation (⟨world, action, next⟩ :: record) =
      history id generation record := by
    intro id generation
    rw [history_cons, hevent]
    exact List.append_nil _
  simp only [ProbeWorld.synchronised] at hcases
  rcases hcases with ⟨reload, hreload, hinner, htags⟩ | ⟨hruntime, hinner, htags⟩ | ⟨hruntime, hinner, htags⟩
  · obtain ⟨hgrows, hassigns⟩ := RuntimeState.step_generations hreload
    change world.published.nextBackendGeneration ≤ next.published.nextBackendGeneration at hgrows
    refine ⟨?_, ?_, ?_, ?_, ?_, ?_⟩
    · intro id generation hgeneration
      rw [hhistory, ProbeWorld.synchronised, hinner]
      rcases hassigns id generation hgeneration with hkept | hnew
      · -- the entry of a backend depends on its own generation only
        have hbefore := h.current id generation hkept
        have hkept : world.published.backendGeneration id = some generation := hkept
        have hgeneration : next.published.backendGeneration id = some generation := hgeneration
        simp only [ProbeWorld.synchronised, RoutingInner.ensureBackends, hkept, hgeneration] at hbefore ⊢
        exact hbefore
      · rw [h.future id generation hnew]
        have hgeneration : next.published.backendGeneration id = some generation := hgeneration
        simp only [RoutingInner.ensureBackends, hgeneration, Option.map_some]
        cases hlive : world.inner.backends id with
        | none => rfl
        | some live =>
            have hold : live.topologyGeneration ≠ generation :=
              ne_of_lt ((h.held id live hlive).trans_le hnew)
            simp only [hold, if_false]
            rfl
    · rw [htags]
      exact fun tag hmem => (h.tagged tag hmem).trans_le hgrows
    · rw [hscrapes]
      exact fun flight hmem => ⟨(h.flying flight hmem).1.trans_le hgrows, (h.flying flight hmem).2⟩
    · rw [hinner]
      exact fun id live hlive => (h.held id live hlive).trans_le hgrows
    · intro id generation hfuture
      rw [hhistory]
      exact h.future id generation (hgrows.trans hfuture)
    · intro id generation
      rw [hhistory]
      exact h.serials id generation
  · have hpublished : next.published = world.published := congrArg RuntimeState.published hruntime
    refine ⟨?_, htags ▸ hpublished ▸ h.tagged, hscrapes ▸ hpublished ▸ h.flying, ?_, ?_, ?_⟩
    · intro id generation hgeneration
      rw [hpublished] at hgeneration
      have hbefore : (world.inner.ensureBackends world.published).backends id = _ := h.current id generation hgeneration
      rw [hhistory, ProbeWorld.synchronised, hinner, hpublished]
      apply RoutingInner.ensureBackends_of_current hbefore
      rw [LiveBackend.replay_topologyGeneration]
      exact hgeneration
    · intro id live hlive
      rw [hinner] at hlive
      rw [hpublished]
      exact world.published.below id _ (RoutingInner.ensureBackends_some hlive).1
    · simpa only [hhistory, hpublished] using h.future
    · simpa only [hhistory] using h.serials
  · have hpublished : next.published = world.published := congrArg RuntimeState.published hruntime
    refine ⟨?_, ?_, hscrapes ▸ hpublished ▸ h.flying, hinner ▸ hpublished ▸ h.held, ?_, ?_⟩
    · simpa only [ProbeWorld.synchronised, hhistory, hpublished, hinner] using h.current
    · intro tag hmem
      rw [hpublished]
      rw [htags] at hmem
      rcases List.mem_append.mp hmem with hmem | hmem
      · obtain ⟨⟨backend, generation⟩, hinstance, rfl⟩ := List.mem_map.mp hmem
        exact world.published.below backend.id generation (PublishedRuntime.mem_backendInstances.mp hinstance).2
      · exact h.tagged tag hmem
    · simpa only [hhistory, hpublished] using h.future
    · simpa only [hhistory] using h.serials

theorem of_run (h : Run probeSystem Free record world) : ProbesKept record world := by
  induction h with
  | start hinitial => exact start hinitial
  | step action _ _ hstep ih =>
      cases hevent : action.event _ with
      | none => exact ih.quiet hstep hevent
      | some event => exact ih.event hstep hevent

end ProbesKept

/-- Late and overtaken results do not leak. In every run, the live state of a backend under its current generation is
what the results started under that generation make of it. The completions with an effect have increasing serials, the
observation held is that of the newest success among them, and the idle streak counts the idle ones at their end. -/
theorem probe_results_stay_with_their_generation (record : List (Step ProbeWorld ProbeAction)) (world : ProbeWorld)
    (hrun : Run probeSystem Free record world) (id : BackendId) (generation : Nat)
    (hcurrent : world.published.backendGeneration id = some generation) :
    ∃ live completions, world.synchronised.backends id = some live ∧
      live = LiveBackend.replay generation (history id generation record) ∧
      completions = (LiveBackend.new generation).effective (history id generation record) ∧
      (completions.map ScrapeCompletion.serial).Pairwise (· < ·) ∧
      (∀ observation, live.metrics = some observation ↔ ∃ completion ∈ completions,
        completion.observation = some observation ∧ ∀ other ∈ completions, ∀ seen, other.observation = some seen →
          other.serial ≤ completion.serial) ∧
      live.engineIdleStreak = trailing ScrapeCompletion.isIdle completions := by
  have hkept := ProbesKept.of_run hrun
  have hsummary := LiveBackend.replay_summarises generation (history id generation record)
  refine ⟨_, _, hkept.current id generation hcurrent, rfl, rfl, hsummary.increasing, ?_, ?_⟩
  · intro observation
    rw [hsummary.metrics]
    exact getLast?_observation_iff hsummary.increasing observation
  · have hbound : ∀ completion ∈ (LiveBackend.new generation).effective (history id generation record),
        completion.serial ≤ u64Max := by
      intro completion hmem
      obtain ⟨event, hevent, hcompletion⟩ := LiveBackend.mem_effective hmem
      exact hkept.serials id generation event hevent completion hcompletion
    rw [hsummary.idle]
    exact Nat.min_eq_left ((trailing_le_length _ _).trans (hsummary.length_le hbound))

/-- The first backend behind another address. -/
def movedPairConfig : RuntimeConfig :=
  .new [⟨"a", ⟨"c", "/"⟩, ⟨"c", "/metrics"⟩, ⟨"c", "/v1/models"⟩, none⟩,
    ⟨"b", ⟨"b", "/"⟩, ⟨"b", "/metrics"⟩, ⟨"b", "/v1/models"⟩, none⟩]

def pairProbes : ProbeWorld := ⟨pairRuntime, RoutingInner.new pairRuntime.published, [], []⟩

/-- A scrape of the first backend is in flight while the backend is moved, and succeeds afterwards. -/
def lateScrape : List ProbeAction :=
  [.readInstances, .beginScrape "a" 1 5, .runtime (.setMode "a" .disabled),
    .runtime (.apply movedPairConfig fun _ => none),
    .scrapeSuccess "a" 1 ⟨1, 0, 5⟩ ⟨1, 0, none, none, none, none, none⟩ 9]

theorem probe_results_stay_with_their_generation_late :
    ∃ world, probeSystem.follow pairProbes lateScrape = some world ∧ world.published.backendGeneration "a" = some 3 ∧
      world.synchronised.backends "a" = some (LiveBackend.new 3) := by
  have hsome : (probeSystem.follow pairProbes lateScrape).isSome = true := by decide +kernel
  obtain ⟨world, hworld⟩ := Option.isSome_iff_exists.mp hsome
  have hstart : Run probeSystem Free [] pairProbes := .start ⟨pairRuntime_initial, rfl, rfl, rfl⟩
  have hrun := hstart.follow_unguarded _ hworld (fun _ _ _ => trivial)
  have hfinal : (probeSystem.follow pairProbes lateScrape).map (fun world => world.published.backendGeneration "a") =
      some (some 3) := by decide +kernel
  rw [hworld, Option.map_some, Option.some.injEq] at hfinal
  obtain ⟨live, _, hlive, hreplay, _⟩ := probe_results_stay_with_their_generation _ world hrun "a" 3 hfinal
  have hnone : history "a" 3 (probeSystem.recordOf pairProbes lateScrape []) = [] :=
    List.eq_nil_of_length_eq_zero (by decide +kernel)
  rw [hnone] at hreplay
  exact ⟨world, hworld, hfinal, hlive.trans (congrArg some hreplay)⟩

end MistralrsProxy
