import MistralrsProxy.RoutingSelect
import MistralrsProxy.RuntimeParse
import MistralrsProxy.TelemetryContract
import Mathlib.Algebra.Order.Field.Basic
import Mathlib.Tactic.Linarith

/-! The score over everything that the two parsers let through. The divisions of the score are guarded in three places:
the configuration has no zero capacity and a soft limit below one, the gauges have no zero capacity and no zero cache,
and the ratio is clamped. -/

namespace MistralrsProxy

/-- The metrics of some scrape that the parser accepts. -/
def AcceptedMetrics (ops : FloatOps) (metrics : MistralRsMetrics) : Prop :=
  ∃ input parsed, parseMistralrsMetrics ops input = some (.ok parsed) ∧ parsed.metrics = metrics

/-- The cache ratio of one set of inputs is at most that of another, and both have one or neither has. -/
def LeastPressureV1Inputs.KvLe (inputs grown : LeastPressureV1Inputs) : Prop :=
  inputs.kvRatio = grown.kvRatio ∨
    ∃ ratio ratio', inputs.kvRatio = some (some ratio) ∧ grown.kvRatio = some (some ratio') ∧ ratio ≤ ratio'

section Admitted

variable {ops : FloatOps} {metrics : MistralRsMetrics}

/-- A positive gauge is positive wherever it is accepted. -/
theorem AcceptedMetrics.positive (h : AcceptedMetrics ops metrics) {gauge : Gauge} {value : Nat}
    (hpositive : gauge.positive = true) (hvalue : metrics.gauge gauge = some value) : 1 ≤ value := by
  obtain ⟨input, parsed, hparse, rfl⟩ := h
  obtain ⟨result, hresult, _, hreads⟩ := parse_sound ops input
  rw [hparse, Option.some.injEq] at hresult
  obtain ⟨line, _, sample, _, _, _, hlow, _⟩ := ((hreads parsed hresult.symm).gauges gauge value).mp hvalue
  rw [if_pos hpositive] at hlow
  exact hlow

theorem AcceptedMetrics.capacity_pos (h : AcceptedMetrics ops metrics) {capacity : Nat}
    (hcapacity : metrics.sequencesCapacity = some capacity) : 1 ≤ capacity := by
  have hgauge : metrics.gauge .capacity = some capacity := hcapacity
  exact h.positive rfl hgauge

theorem AcceptedMetrics.kvTotal_pos (h : AcceptedMetrics ops metrics) {kv : KvCacheMetrics}
    (hkv : metrics.kvCache = some kv) : 1 ≤ kv.total := by
  have hgauge : metrics.gauge .kvTotal = some kv.total := by
    rw [MistralRsMetrics.gauge, hkv, Option.map_some]
  exact h.positive rfl hgauge

/-- No capacity that results from an accepted scrape and an accepted backend is zero. -/
theorem AcceptedMetrics.effectiveCapacity_pos (h : AcceptedMetrics ops metrics) {configured : Option Nat}
    {capacity : Nat}
    (hconfigured : configured ≠ some 0)
    (hcapacity : effectiveCapacity metrics.sequencesCapacity configured = some capacity) : 1 ≤ capacity := by
  cases hreported : metrics.sequencesCapacity with
  | none =>
      rw [hreported] at hcapacity
      have hsame : configured = some capacity := hcapacity
      rw [hsame, ne_eq, Option.some.injEq] at hconfigured
      omega
  | some reported =>
      have hpositive := h.capacity_pos hreported
      rw [hreported] at hcapacity
      cases configured with
      | none =>
          cases hcapacity
          exact hpositive
      | some configured =>
          cases hcapacity
          rw [ne_eq, Option.some.injEq] at hconfigured
          exact Nat.le_min.mpr ⟨hpositive, by omega⟩

end Admitted

section Penalty

variable {softLimit ratio : ℚ}

/-- The penalty of a ratio. -/
def penaltyOf (softLimit ratio : ℚ) : ℚ := max ((ratio - softLimit) / (1 - softLimit)) 0

theorem penaltyOf_nonneg : 0 ≤ penaltyOf softLimit ratio := le_max_right _ _

theorem penaltyOf_le_one (hsoft : softLimit < 1) (hratio : ratio ≤ 1) : penaltyOf softLimit ratio ≤ 1 := by
  have hrange : 0 < 1 - softLimit := sub_pos.mpr hsoft
  refine max_le ?_ zero_le_one
  rw [div_le_one hrange]
  linarith

theorem penaltyOf_eq_zero (hsoft : softLimit < 1) (hratio : ratio ≤ softLimit) : penaltyOf softLimit ratio = 0 := by
  have hrange : 0 < 1 - softLimit := sub_pos.mpr hsoft
  apply max_eq_right
  exact div_nonpos_of_nonpos_of_nonneg (by linarith) hrange.le

theorem penaltyOf_one (hsoft : softLimit < 1) : penaltyOf softLimit 1 = 1 := by
  have hrange : 1 - softLimit ≠ 0 := (sub_pos.mpr hsoft).ne'
  rw [penaltyOf, div_self hrange]
  exact max_eq_left zero_le_one

theorem penaltyOf_mono (hsoft : softLimit < 1) {grown : ℚ} (h : ratio ≤ grown) :
    penaltyOf softLimit ratio ≤ penaltyOf softLimit grown := by
  have hrange : 0 < 1 - softLimit := sub_pos.mpr hsoft
  apply max_le_max_right 0
  exact div_le_div_of_nonneg_right (by linarith) hrange.le

end Penalty

/-- A cache of positive size has a ratio in the unit interval; it is one for a full or overcommitted cache. -/
theorem KvCacheMetrics.ratio_of_pos {kv : KvCacheMetrics} (h : 1 ≤ kv.total) :
    ∃ ratio, kv.ratio = some ratio ∧ 0 ≤ ratio ∧ ratio ≤ 1 ∧ (kv.total ≤ kv.used → ratio = 1) := by
  have htotal : kv.total ≠ 0 := by omega
  refine ⟨max 0 (min 1 (kv.used / kv.total)), ?_, le_max_left _ _, max_le zero_le_one (min_le_left _ _), ?_⟩
  · rw [ratio, if_neg htotal]
  · intro hfull
    have hpositive : (0 : ℚ) < kv.total := by exact_mod_cast h
    have hquotient : (1 : ℚ) ≤ kv.used / kv.total := by
      rw [le_div_iff₀ hpositive, one_mul]
      exact_mod_cast hfull
    rw [min_eq_left hquotient]
    exact max_eq_right zero_le_one

section Score

variable {softLimit : ℚ} {inputs : LeastPressureV1Inputs}

/-- The load that the inputs describe. -/
def LeastPressureV1Inputs.load (inputs : LeastPressureV1Inputs) : Nat :=
  inputs.running + inputs.waiting + inputs.newSequences

/-- What a score is made of. -/
theorem leastPressure_ok {score : LeastPressureV1Score}
    (h : leastPressureV1WithSoftLimit softLimit inputs = .ok score) :
    inputs.capacity ≠ 0 ∧ score.pressure = (inputs.load : ℚ) / inputs.capacity + score.kvPenalty ∧
      (inputs.kvRatio = none ∧ score.kvPenalty = 0 ∨
        ∃ ratio, inputs.kvRatio = some (some ratio) ∧ score.kvPenalty = penaltyOf softLimit ratio) := by
  unfold leastPressureV1WithSoftLimit at h
  split at h
  · cases h
  · rename_i hcapacity
    refine ⟨hcapacity, ?_⟩
    split at h
    · cases h
    · rename_i penalty hpenalty
      cases h
      refine ⟨?_, ?_⟩
      · simp only [LeastPressureV1Inputs.load]
        push_cast
        rfl
      · unfold kvPenalty at hpenalty
        split at hpenalty
        · rename_i hratio
          cases hpenalty
          exact .inl ⟨hratio, rfl⟩
        · cases hpenalty
        · rename_i ratio hratio
          split at hpenalty
          · cases hpenalty
            exact .inr ⟨ratio, hratio, rfl⟩
          · cases hpenalty

/-- The score exists for every positive capacity and every ratio in the unit interval. -/
theorem leastPressure_exists (hcapacity : 1 ≤ inputs.capacity)
    (hratio : inputs.kvRatio = none ∨ ∃ ratio, inputs.kvRatio = some (some ratio) ∧ 0 ≤ ratio ∧ ratio ≤ 1) :
    ∃ score, leastPressureV1WithSoftLimit softLimit inputs = .ok score := by
  have hne : inputs.capacity ≠ 0 := by omega
  rcases hratio with hnone | ⟨ratio, hsome, hlow, hhigh⟩
  · simp [leastPressureV1WithSoftLimit, hne, hnone, kvPenalty]
  · simp [leastPressureV1WithSoftLimit, hne, hsome, kvPenalty, hlow, hhigh]

/-- More load, less capacity or a fuller cache never lower the pressure, and more load raises it. -/
theorem pressure_mono (hsoft : softLimit < 1) {grown : LeastPressureV1Inputs} {score score' : LeastPressureV1Score}
    (hscore : leastPressureV1WithSoftLimit softLimit inputs = .ok score)
    (hscore' : leastPressureV1WithSoftLimit softLimit grown = .ok score') (hload : inputs.load ≤ grown.load)
    (hcapacity : grown.capacity ≤ inputs.capacity) (hkv : inputs.KvLe grown) :
    score.pressure ≤ score'.pressure ∧ (inputs.load < grown.load → score.pressure < score'.pressure) := by
  obtain ⟨hne, hpressure, hpenalty⟩ := leastPressure_ok hscore
  obtain ⟨hne', hpressure', hpenalty'⟩ := leastPressure_ok hscore'
  have hpositive : (0 : ℚ) < inputs.capacity := by exact_mod_cast Nat.pos_of_ne_zero hne
  have hpositive' : (0 : ℚ) < grown.capacity := by exact_mod_cast Nat.pos_of_ne_zero hne'
  have hshrinks : (grown.capacity : ℚ) ≤ inputs.capacity := by exact_mod_cast hcapacity
  have hgrows : score.kvPenalty ≤ score'.kvPenalty := by
    rcases hkv with hsame | ⟨ratio, ratio', hratio, hratio', hle⟩
    · rcases hpenalty with ⟨hnone, hzero⟩ | ⟨ratio, hratio, hpenalty⟩
      · rcases hpenalty' with ⟨_, hzero'⟩ | ⟨ratio', hratio', _⟩
        · rw [hzero, hzero']
        · rw [← hsame, hnone] at hratio'
          cases hratio'
      · rcases hpenalty' with ⟨hnone', _⟩ | ⟨ratio', hratio', hpenalty'⟩
        · rw [← hsame, hratio] at hnone'
          cases hnone'
        · rw [← hsame, hratio] at hratio'
          cases hratio'
          rw [hpenalty, hpenalty']
    · rcases hpenalty with ⟨hnone, _⟩ | ⟨found, hfound, hpenalty⟩
      · rw [hratio] at hnone
        cases hnone
      · rcases hpenalty' with ⟨hnone', _⟩ | ⟨found', hfound', hpenalty'⟩
        · rw [hratio'] at hnone'
          cases hnone'
        · rw [hratio] at hfound
          rw [hratio'] at hfound'
          cases hfound
          cases hfound'
          rw [hpenalty, hpenalty']
          exact penaltyOf_mono hsoft hle
  have hcrowded : (grown.load : ℚ) / inputs.capacity ≤ (grown.load : ℚ) / grown.capacity :=
    div_le_div_of_nonneg_left (Nat.cast_nonneg _) hpositive' hshrinks
  rw [hpressure, hpressure']
  constructor
  · have hfuller : (inputs.load : ℚ) / inputs.capacity ≤ (grown.load : ℚ) / inputs.capacity :=
      div_le_div_of_nonneg_right (by exact_mod_cast hload) hpositive.le
    exact add_le_add (hfuller.trans hcrowded) hgrows
  · intro hlt
    have hfuller : (inputs.load : ℚ) / inputs.capacity < (grown.load : ℚ) / inputs.capacity :=
      div_lt_div_of_pos_right (by exact_mod_cast hlt) hpositive
    exact add_lt_add_of_lt_of_le (hfuller.trans_le hcrowded) hgrows

end Score

/-- What is promised of the score of an admitted backend and its metrics. -/
structure ScoresWell (softLimit : ℚ) (metrics : MistralRsMetrics) (capacity newSequences : Nat)
    (score : LeastPressureV1Score) : Prop where
  ok : leastPressureV1WithSoftLimit softLimit (metrics.pressureInputs newSequences capacity) = .ok score
  penalty_nonneg : 0 ≤ score.kvPenalty
  penalty_le_one : score.kvPenalty ≤ 1
  penalty_below : ∀ ratio, metrics.kvCacheRatio = some (some ratio) → ratio ≤ softLimit → score.kvPenalty = 0
  penalty_full : ∀ kv, metrics.kvCache = some kv → kv.total ≤ kv.used → score.kvPenalty = 1
  penalty_absent : metrics.kvCache = none → score.kvPenalty = 0

theorem AcceptedMetrics.scoresWell {ops : FloatOps} {metrics : MistralRsMetrics} (h : AcceptedMetrics ops metrics)
    {softLimit : ℚ} (hsoft : softLimit < 1) {capacity : Nat} (hcapacity : 1 ≤ capacity) (newSequences : Nat) :
    ∃ score, ScoresWell softLimit metrics capacity newSequences score := by
  have hratio : metrics.kvCacheRatio = none ∨
      ∃ ratio, metrics.kvCacheRatio = some (some ratio) ∧ 0 ≤ ratio ∧ ratio ≤ 1 := by
    cases hkv : metrics.kvCache with
    | none => exact .inl (by rw [MistralRsMetrics.kvCacheRatio, hkv]; rfl)
    | some kv =>
        obtain ⟨ratio, hratio, hlow, hhigh, _⟩ := KvCacheMetrics.ratio_of_pos (h.kvTotal_pos hkv)
        exact .inr ⟨ratio, by rw [MistralRsMetrics.kvCacheRatio, hkv, Option.map_some, hratio], hlow, hhigh⟩
  obtain ⟨score, hscore⟩ : ∃ score, leastPressureV1WithSoftLimit softLimit
      (metrics.pressureInputs newSequences capacity) = .ok score := leastPressure_exists hcapacity hratio
  obtain ⟨_, _, hpenalty⟩ := leastPressure_ok hscore
  have hinputs : (metrics.pressureInputs newSequences capacity).kvRatio = metrics.kvCacheRatio := rfl
  rw [hinputs] at hpenalty
  refine ⟨score, hscore, ?_, ?_, ?_, ?_, ?_⟩
  · rcases hpenalty with ⟨_, hzero⟩ | ⟨ratio, _, hpenalty⟩
    · rw [hzero]
    · rw [hpenalty]
      exact penaltyOf_nonneg
  · rcases hpenalty with ⟨_, hzero⟩ | ⟨ratio, hfound, hpenalty⟩
    · rw [hzero]
      exact zero_le_one
    · rcases hratio with hnone | ⟨_, hsome, _, hhigh⟩
      · rw [hnone] at hfound
        cases hfound
      · rw [hsome, Option.some.injEq, Option.some.injEq] at hfound
        rw [hpenalty]
        exact penaltyOf_le_one hsoft (hfound ▸ hhigh)
  · intro ratio hfound hbelow
    rcases hpenalty with ⟨_, hzero⟩ | ⟨_, hsome, hpenalty⟩
    · exact hzero
    · rw [hfound, Option.some.injEq, Option.some.injEq] at hsome
      rw [hpenalty]
      exact penaltyOf_eq_zero hsoft (hsome ▸ hbelow)
  · intro kv hkv hfull
    obtain ⟨ratio, hfound, _, _, hone⟩ := KvCacheMetrics.ratio_of_pos (h.kvTotal_pos hkv)
    rw [MistralRsMetrics.kvCacheRatio, hkv, Option.map_some, hfound] at hpenalty
    rcases hpenalty with ⟨hnone, _⟩ | ⟨_, hsome, hpenalty⟩
    · cases hnone
    · rw [Option.some.injEq, Option.some.injEq] at hsome
      rw [hpenalty, ← hsome, hone hfull]
      exact penaltyOf_one hsoft
  · intro hkv
    rw [MistralRsMetrics.kvCacheRatio, hkv] at hpenalty
    rcases hpenalty with ⟨_, hzero⟩ | ⟨_, hsome, _⟩
    · exact hzero
    · cases hsome

/-- A backend has a score unless it has no fresh sample or no capacity at all. -/
theorem scoreCandidate_none_iff {ops : FloatOps} {snapshot : BackendSnapshot} {live : LiveBackend} {backend : Backend}
    {softLimit : ℚ} (hsoft : softLimit < 1) (hbackend : backend.capacity ≠ some 0)
    (hlive : ∀ observation, live.metrics = some observation → AcceptedMetrics ops observation.metrics)
    (now staleAfter : Nat) :
    (scoreCandidate snapshot live backend now staleAfter softLimit).1 = none ↔
      ∀ observation, live.metrics = some observation →
        staleAfter < now - observation.observedAt ∨
          observation.metrics.sequencesCapacity = none ∧ backend.capacity = none := by
  unfold scoreCandidate
  cases hmetrics : live.metrics with
  | none => simp
  | some observation =>
      have haccepted := hlive observation hmetrics
      simp only [Option.some.injEq, forall_eq']
      split
      · rename_i hstale
        exact ⟨fun _ => .inl hstale, fun _ => rfl⟩
      · rename_i hfresh
        cases heffective : effectiveCapacity observation.metrics.sequencesCapacity backend.capacity with
        | none =>
            refine ⟨fun _ => .inr ?_, fun _ => rfl⟩
            cases hreported : observation.metrics.sequencesCapacity with
            | none =>
                rw [hreported] at heffective
                exact ⟨rfl, heffective⟩
            | some reported =>
                rw [hreported] at heffective
                cases hconfigured : backend.capacity with
                | none => rw [hconfigured] at heffective; cases heffective
                | some configured => rw [hconfigured] at heffective; cases heffective
        | some capacity =>
            have hpositive := haccepted.effectiveCapacity_pos hbackend heffective
            obtain ⟨score, hscore⟩ := haccepted.scoresWell hsoft hpositive
              (min (snapshot.totalAcquired - observation.dispatchesAtObservation + 1) u64Max)
            rw [Option.bind_some, hscore.ok]
            constructor
            · intro h
              cases h
            · rintro (hstale | ⟨hreported, hconfigured⟩)
              · exact absurd hstale hfresh
              · rw [hreported, hconfigured] at heffective
                cases heffective

/-- Over every accepted configuration and every accepted scrape the score is total, its penalty is a fraction that is
nothing up to the soft limit and one for a full cache, and the pressure follows the load, the cache and the capacity. A
backend is unscored only without a fresh sample or without any capacity. -/
theorem scoring_is_total (configOps : ConfigOps) (floatOps : FloatOps) (contents : String) (config : RuntimeConfig)
    (hconfig : RuntimeConfig.parse configOps contents = .ok config) :
    (∀ metrics, AcceptedMetrics floatOps metrics → ∀ backend ∈ config.backends, ∀ capacity,
      effectiveCapacity metrics.sequencesCapacity backend.capacity = some capacity → ∀ newSequences,
        ∃ score, ScoresWell config.routing.kvSoftLimit metrics capacity newSequences score) ∧
    (∀ inputs grown : LeastPressureV1Inputs, ∀ score score',
      leastPressureV1WithSoftLimit config.routing.kvSoftLimit inputs = .ok score →
      leastPressureV1WithSoftLimit config.routing.kvSoftLimit grown = .ok score' →
      inputs.running ≤ grown.running → inputs.waiting ≤ grown.waiting → inputs.newSequences ≤ grown.newSequences →
      grown.capacity ≤ inputs.capacity → inputs.KvLe grown →
      score.pressure ≤ score'.pressure ∧
        (inputs.running < grown.running ∨ inputs.waiting < grown.waiting ∨ inputs.newSequences < grown.newSequences →
          score.pressure < score'.pressure)) ∧
    ∀ backend ∈ config.backends, ∀ snapshot live now,
      (∀ observation, live.metrics = some observation → AcceptedMetrics floatOps observation.metrics) →
      ((scoreCandidate snapshot live backend now config.telemetry.staleAfter config.routing.kvSoftLimit).1 = none ↔
        ∀ observation, live.metrics = some observation →
          config.telemetry.staleAfter < now - observation.observedAt ∨
            observation.metrics.sequencesCapacity = none ∧ backend.capacity = none) := by
  obtain ⟨_, ⟨_, hsoft⟩, hcapacities⟩ := RuntimeConfig.parse_ok hconfig
  refine ⟨?_, ?_, ?_⟩
  · intro metrics haccepted backend hbackend capacity hcapacity newSequences
    have hpositive := haccepted.effectiveCapacity_pos (hcapacities backend hbackend) hcapacity
    exact haccepted.scoresWell hsoft hpositive newSequences
  · intro inputs grown score score' hscore hscore' hrunning hwaiting hnew hcapacity hkv
    have hload : inputs.load ≤ grown.load := by
      unfold LeastPressureV1Inputs.load
      omega
    obtain ⟨hle, hlt⟩ := pressure_mono hsoft hscore hscore' hload hcapacity hkv
    refine ⟨hle, fun hmore => hlt ?_⟩
    unfold LeastPressureV1Inputs.load
    omega
  · intro backend hbackend snapshot live now hlive
    exact scoreCandidate_none_iff hsoft (hcapacities backend hbackend) hlive now config.telemetry.staleAfter

/-- A file with one backend, and what it decodes to. -/
def singleBackendText : String :=
  "[[backends]]\nid = \"a\"\nurl = \"http://a/\"\ncapacity = 8\n[routing]\nkv_soft_limit = 0.5\n"

def singleBackendFile : RuntimeFile where
  schemaVersion := 1
  backends := [⟨"a", "http://a/", none, none, some 8⟩]
  kvSoftLimit := .finite (1 / 2)
  telemetry := ⟨1000, 750, 5000⟩
  readiness := ⟨2000, 1000, 2, 3⟩

def singleBackendOps : ConfigOps where
  fromToml text := if text = singleBackendText then .ok singleBackendFile else .error "invalid TOML"
  parseUri text := if text = "http://a/" then .ok ⟨some "http", some "a", "/", none⟩ else .error "invalid uri character"
  buildUri authority path := .ok ⟨authority, path⟩

def singleBackendConfig : RuntimeConfig where
  backends := [⟨"a", ⟨"a", "/"⟩, ⟨"a", "/metrics"⟩, ⟨"a", "/v1/models"⟩, some 8⟩]
  routing := ⟨1 / 2⟩
  telemetry := ⟨1000, 750, 5000⟩
  readiness := ⟨2000, 1000, 2, 3⟩

/-- Whole numbers, read and added without rounding. -/
def wholeFloats : FloatOps where
  parse text := (parseI64 text).map fun value => .finite value
  add left right := .finite (left + right)

def busyScrape : List Char :=
  ("mistralrs_sequences_running 2\nmistralrs_sequences_waiting 1\n" ++
    "mistralrs_kv_cache_blocks_used 9\nmistralrs_kv_cache_blocks_total 8\n").toList

def busyMetrics : MistralRsMetrics := ⟨2, 1, none, some ⟨9, 8⟩, none, none, none⟩

theorem singleBackend_parses : RuntimeConfig.parse singleBackendOps singleBackendText = .ok singleBackendConfig := by
  decide +kernel

theorem busyMetrics_accepted : AcceptedMetrics wholeFloats busyMetrics := by
  have hparse : parseMistralrsMetrics wholeFloats busyScrape = some (.ok ⟨busyMetrics, none⟩) := by decide +kernel
  exact ⟨busyScrape, _, hparse, rfl⟩

theorem scoring_is_total_overcommitted :
    ∃ score, ScoresWell (1 / 2) busyMetrics 8 1 score ∧ score.kvPenalty = 1 := by
  obtain ⟨hscores, _, _⟩ :=
    scoring_is_total singleBackendOps wholeFloats singleBackendText singleBackendConfig singleBackend_parses
  obtain ⟨score, hscore⟩ := hscores busyMetrics busyMetrics_accepted _ (List.mem_singleton.mpr rfl) 8 rfl 1
  exact ⟨score, hscore, hscore.penalty_full ⟨9, 8⟩ rfl (by decide)⟩

end MistralrsProxy
