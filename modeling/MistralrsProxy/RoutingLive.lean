import MistralrsProxy.Machine
import MistralrsProxy.RoutingCircuit
import MistralrsProxy.Runtime
import MistralrsProxy.Telemetry

/-! The live state of the backends: readiness, telemetry and circuit, tagged with the topology generation
it belongs to. Each function is the body of one critical section of the routing mutex; the published
configuration it synchronises with is the one read inside that section. -/

namespace MistralrsProxy

export Machine (u64Max)

inductive ReadinessState where
  | checking
  | ready
  | unready
  | unreachable
  deriving DecidableEq, Repr

inductive TelemetryState where
  | fresh
  | stale
  | unavailable
  deriving DecidableEq, Repr

inductive ReadinessFailureKind where
  | unready
  | unreachable
  deriving DecidableEq, Repr

structure MetricsObservation where
  metrics : MistralRsMetrics
  observedAt : Nat
  dispatchesAtObservation : Nat
  scrapeSerial : Nat
  deriving DecidableEq

structure MetricsScrapeContext where
  serial : Nat
  dispatchesAtObservation : Nat
  observedAt : Nat
  deriving DecidableEq, Repr

/-- Exponential moving average of a cumulative counter, in units per second. A backwards jump means the
backend restarted. -/
def counterRate (current : ℚ) (previous : Option (ℚ × Nat)) (now : Nat) (oldRate : Option ℚ) : Option ℚ :=
  match previous with
  | none => none
  | some (previousValue, at_) =>
      if now ≤ at_ then oldRate
      else
        let elapsed : ℚ := ((now - at_ : Nat) : ℚ) / 1000000000
        let delta := if previousValue ≤ current then current - previousValue else current
        let instantRate := delta / elapsed
        match oldRate with
        | some old => some (old * (4 / 5) + instantRate * (1 / 5))
        | none => some instantRate

/-- A rate with the counter value it was last updated from. -/
structure TokenRate where
  rate : Option ℚ
  previous : Option (ℚ × Nat)
  deriving DecidableEq

def TokenRate.observe (tokens : Option ℚ) (now : Nat) (meter : TokenRate) : TokenRate :=
  match tokens with
  | none => meter
  | some tokens => ⟨counterRate tokens meter.previous now meter.rate, some (tokens, now)⟩

structure LiveBackend extends Breaker where
  topologyGeneration : Nat
  readiness : ReadinessState
  readinessSuccesses : Nat
  readinessFailures : Nat
  readinessError : Option String
  readinessCheckedAt : Option Nat
  metrics : Option MetricsObservation
  metricsError : Option String
  metricsAttemptedAt : Option Nat
  metricsGeneration : Nat
  metricsScrapesStarted : Nat
  metricsLastCompletedScrape : Nat
  engineIdleStreak : Nat
  tokenRate : TokenRate
  prefillTokenRate : TokenRate
  decodeTokenRate : TokenRate
  deriving DecidableEq

namespace LiveBackend

def new (topologyGeneration : Nat) : LiveBackend where
  toBreaker := Breaker.new
  topologyGeneration := topologyGeneration
  readiness := .checking
  readinessSuccesses := 0
  readinessFailures := 0
  readinessError := none
  readinessCheckedAt := none
  metrics := none
  metricsError := none
  metricsAttemptedAt := none
  metricsGeneration := 0
  metricsScrapesStarted := 0
  metricsLastCompletedScrape := 0
  engineIdleStreak := 0
  tokenRate := ⟨none, none⟩
  prefillTokenRate := ⟨none, none⟩
  decodeTokenRate := ⟨none, none⟩

def readinessSuccess (config : ReadinessConfig) (now : Nat) (live : LiveBackend) : LiveBackend :=
  let successes := min (live.readinessSuccesses + 1) u32Max
  { live with
    readinessCheckedAt := some now
    readinessError := none
    readinessFailures := 0
    readinessSuccesses := successes
    readiness := if config.successThreshold ≤ successes then .ready else live.readiness }

def readinessFailure (config : ReadinessConfig) (kind : ReadinessFailureKind) (error : String) (now : Nat)
    (live : LiveBackend) : LiveBackend :=
  let failures := min (live.readinessFailures + 1) u32Max
  { live with
    readinessCheckedAt := some now
    readinessError := some error
    readinessSuccesses := 0
    readinessFailures := failures
    readiness :=
      if config.failureThreshold ≤ failures then
        match kind with
        | .unready => .unready
        | .unreachable => .unreachable
      else live.readiness }

/-- The readiness before and after, when it changed. -/
def readinessChange (before after : LiveBackend) : Option (ReadinessState × ReadinessState) :=
  if before.readiness ≠ after.readiness then some (before.readiness, after.readiness) else none

def beginScrape (dispatchesAtObservation observedAt : Nat) (live : LiveBackend) :
    LiveBackend × MetricsScrapeContext :=
  ({ live with metricsScrapesStarted := live.metricsScrapesStarted + 1 },
    ⟨live.metricsScrapesStarted + 1, dispatchesAtObservation, observedAt⟩)

/-- A late completion, overtaken by one of a newer scrape, is ignored. -/
def metricsSuccess (metrics : MistralRsMetrics) (scrape : MetricsScrapeContext) (now : Nat)
    (live : LiveBackend) : LiveBackend :=
  if scrape.serial ≤ live.metricsLastCompletedScrape then live
  else
    { live with
      tokenRate := live.tokenRate.observe metrics.tokensProcessedTotal now
      prefillTokenRate := live.prefillTokenRate.observe metrics.prefillTokensProcessedTotal now
      decodeTokenRate := live.decodeTokenRate.observe metrics.decodeTokensProcessedTotal now
      metrics := some ⟨metrics, scrape.observedAt, scrape.dispatchesAtObservation, scrape.serial⟩
      metricsAttemptedAt := some now
      metricsGeneration := (live.metricsGeneration + 1) % 2 ^ 64
      metricsLastCompletedScrape := scrape.serial
      engineIdleStreak := if metrics.engineIdle then min (live.engineIdleStreak + 1) u64Max else 0
      metricsError := none }

def metricsFailure (scrapeSerial : Nat) (error : String) (now : Nat) (live : LiveBackend) : LiveBackend :=
  if scrapeSerial ≤ live.metricsLastCompletedScrape then live
  else
    { live with
      metricsLastCompletedScrape := scrapeSerial
      engineIdleStreak := 0
      metricsAttemptedAt := some now
      metricsError := some error }

end LiveBackend

structure RoutingInner where
  backends : BackendId → Option LiveBackend
  rotatingCursor : Nat

namespace RoutingInner

/-- `RoutingState::new`: every configured backend starts in `Checking`. -/
def new (published : PublishedRuntime) : RoutingInner where
  backends := fun id => (published.backendGeneration id).map LiveBackend.new
  rotatingCursor := 0

/-- Forget backends that are no longer configured; one without live state, or with that of another
topology generation, starts afresh. -/
def ensureBackends (published : PublishedRuntime) (inner : RoutingInner) : RoutingInner where
  backends := fun id =>
    (published.backendGeneration id).map fun generation =>
      match inner.backends id with
      | some live => if live.topologyGeneration = generation then live else LiveBackend.new generation
      | none => LiveBackend.new generation
  rotatingCursor := inner.rotatingCursor

/-- The pattern the probe results share: synchronise, then update the backend if the result belongs to its
current generation. -/
def updateLive {α : Type} (published : PublishedRuntime) (id : BackendId) (generation : Nat)
    (f : LiveBackend → LiveBackend × α) (inner : RoutingInner) : RoutingInner × Option α :=
  let inner := inner.ensureBackends published
  match inner.backends id with
  | none => (inner, none)
  | some live =>
      if live.topologyGeneration ≠ generation then (inner, none)
      else ({ inner with backends := Function.update inner.backends id (some (f live).1) }, some (f live).2)

def recordReadinessSuccessFor (published : PublishedRuntime) (config : ReadinessConfig) (id : BackendId)
    (generation now : Nat) (inner : RoutingInner) :
    RoutingInner × Option (ReadinessState × ReadinessState) :=
  let result := inner.updateLive published id generation fun live =>
    let after := live.readinessSuccess config now
    (after, live.readinessChange after)
  (result.1, result.2.join)

def recordReadinessFailureFor (published : PublishedRuntime) (config : ReadinessConfig) (id : BackendId)
    (generation : Nat) (kind : ReadinessFailureKind) (error : String) (now : Nat) (inner : RoutingInner) :
    RoutingInner × Option (ReadinessState × ReadinessState) :=
  let result := inner.updateLive published id generation fun live =>
    let after := live.readinessFailure config kind error now
    (after, live.readinessChange after)
  (result.1, result.2.join)

def beginMetricsScrape (published : PublishedRuntime) (registry : BackendRegistry) (id : BackendId)
    (generation now : Nat) (inner : RoutingInner) : RoutingInner × Option MetricsScrapeContext :=
  -- assignments are counted before the scrape starts, so later ones are not taken as reflected by it
  let dispatches := ((BackendRegistry.get id registry).map SlotState.totalAcquired).getD 0
  inner.updateLive published id generation (LiveBackend.beginScrape dispatches now)

def recordMetricsSuccessFor (published : PublishedRuntime) (id : BackendId) (generation : Nat)
    (metrics : MistralRsMetrics) (scrape : MetricsScrapeContext) (now : Nat) (inner : RoutingInner) :
    RoutingInner :=
  (inner.updateLive published id generation fun live => (live.metricsSuccess metrics scrape now, ())).1

def recordMetricsFailureFor (published : PublishedRuntime) (id : BackendId) (generation scrapeSerial : Nat)
    (error : String) (now : Nat) (inner : RoutingInner) : RoutingInner :=
  (inner.updateLive published id generation fun live => (live.metricsFailure scrapeSerial error now, ())).1

/-- The circuit functions look the live state up as it is, without synchronising. -/
def updateBreaker {α : Type} (id : BackendId) (f : Breaker → Breaker × α) (inner : RoutingInner) :
    RoutingInner × Option α :=
  match inner.backends id with
  | none => (inner, none)
  | some live =>
      let (breaker, result) := f live.toBreaker
      ({ inner with backends := Function.update inner.backends id (some { live with toBreaker := breaker }) },
        some result)

def tryCircuitPermit (id : BackendId) (now : Nat) (inner : RoutingInner) : RoutingInner × Option CircuitPermit :=
  let result := inner.updateBreaker id fun breaker =>
    match breaker.tryCircuitPermit id now with
    | none => (breaker, none)
    | some (breaker, permit) => (breaker, some permit)
  (result.1, result.2.join)

/-- A permit dropped without an outcome. -/
def dropPermit (permit : CircuitPermit) (now : Nat) (inner : RoutingInner) : RoutingInner :=
  (inner.updateBreaker permit.backendId fun breaker => (permit.drop now breaker, ())).1

variable {α : Type} {published : PublishedRuntime} {inner : RoutingInner} {id : BackendId}

theorem updateLive_backends (published : PublishedRuntime) (id : BackendId) (generation : Nat)
    (f : LiveBackend → LiveBackend × α) (inner : RoutingInner) (other : BackendId) :
    (inner.updateLive published id generation f).1.backends other =
      if other = id then
        ((inner.ensureBackends published).backends id).map fun live =>
          if live.topologyGeneration = generation then (f live).1 else live
      else (inner.ensureBackends published).backends other := by
  unfold updateLive
  cases hlive : (inner.ensureBackends published).backends id with
  | none =>
      by_cases hother : other = id
      · simp [hother, hlive]
      · simp [hother, hlive]
  | some live =>
      by_cases hgeneration : live.topologyGeneration = generation
      · by_cases hother : other = id
        · simp [hother, hlive, hgeneration]
        · simp [hother, hlive, hgeneration]
      · by_cases hother : other = id
        · simp [hother, hlive, hgeneration]
        · simp [hother, hlive, hgeneration]

theorem updateLive_result (published : PublishedRuntime) (id : BackendId) (generation : Nat)
    (f : LiveBackend → LiveBackend × α) (inner : RoutingInner) :
    (inner.updateLive published id generation f).2 =
      ((inner.ensureBackends published).backends id).bind fun live =>
        if live.topologyGeneration = generation then some (f live).2 else none := by
  unfold updateLive
  cases hlive : (inner.ensureBackends published).backends id with
  | none => simp [hlive]
  | some live =>
      by_cases hgeneration : live.topologyGeneration = generation
      · simp [hlive, hgeneration]
      · simp [hlive, hgeneration]

theorem updateBreaker_backends (id : BackendId) (f : Breaker → Breaker × α) (inner : RoutingInner)
    (other : BackendId) :
    (inner.updateBreaker id f).1.backends other =
      if other = id then (inner.backends id).map fun live => { live with toBreaker := (f live.toBreaker).1 }
      else inner.backends other := by
  unfold updateBreaker
  cases hlive : inner.backends id with
  | none =>
      by_cases hother : other = id
      · simp [hother, hlive]
      · simp [hother]
  | some live =>
      by_cases hother : other = id
      · simp [hother]
      · simp [hother]

theorem updateBreaker_result (id : BackendId) (f : Breaker → Breaker × α) (inner : RoutingInner) :
    (inner.updateBreaker id f).2 = (inner.backends id).map fun live => (f live.toBreaker).2 := by
  unfold updateBreaker
  cases inner.backends id with
  | none => rfl
  | some live => rfl

/-- The synchronised live state is the old one where that has the published generation. -/
theorem ensureBackends_some {live : LiveBackend} (h : (inner.ensureBackends published).backends id = some live) :
    published.backendGeneration id = some live.topologyGeneration ∧
      (inner.backends id = some live ∨ live = LiveBackend.new live.topologyGeneration ∧
        ∀ old, inner.backends id = some old → old.topologyGeneration ≠ live.topologyGeneration) := by
  simp only [ensureBackends, Option.map_eq_some_iff] at h
  obtain ⟨generation, hgeneration, rfl⟩ := h
  rw [hgeneration]
  cases hold : inner.backends id with
  | none => exact ⟨rfl, .inr ⟨rfl, fun _ h => by cases h⟩⟩
  | some old =>
      simp only
      split
      · rename_i hsame
        exact ⟨by rw [hsame], .inl rfl⟩
      · rename_i hnot
        refine ⟨rfl, .inr ⟨rfl, ?_⟩⟩
        intro other hother
        rw [← Option.some.inj hother]
        exact hnot

theorem ensureBackends_of_current {live : LiveBackend} (h : inner.backends id = some live)
    (hgeneration : published.backendGeneration id = some live.topologyGeneration) :
    (inner.ensureBackends published).backends id = some live := by
  simp [ensureBackends, hgeneration, h]

/-- A result reaches a live state of the published generation only if it belongs to it. -/
theorem updateLive_of_current {live : LiveBackend} (h : inner.backends id = some live)
    (hgeneration : published.backendGeneration id = some live.topologyGeneration) (target : BackendId)
    (generation : Nat) (f : LiveBackend → LiveBackend × α) :
    (inner.updateLive published target generation f).1.backends id =
      some (if id = target ∧ live.topologyGeneration = generation then (f live).1 else live) := by
  have hlive := ensureBackends_of_current h hgeneration
  rw [updateLive_backends]
  by_cases htarget : id = target
  · subst htarget
    rw [if_pos rfl, hlive]
    by_cases hmatch : live.topologyGeneration = generation
    · simp [hmatch]
    · simp [hmatch]
  · rw [if_neg htarget, hlive, if_neg (fun h => htarget h.1)]

end RoutingInner

end MistralrsProxy
