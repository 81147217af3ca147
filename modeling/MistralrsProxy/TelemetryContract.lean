import MistralrsProxy.TelemetryGrammar
import Mathlib.Data.List.Perm.Basic
import Mathlib.Tactic.NormNum

/-! What the metrics parser accepts. A line belongs to the metric whose name it starts with and reaches no other
accumulator, so the fold over all lines is one fold for each metric over the lines of its own. -/

namespace MistralrsProxy

/-- The trimmed lines that are neither empty nor comments. -/
def sampleLines (input : List Char) : List (List Char) :=
  ((lines input).map trimText).filter fun line => !(line.isEmpty || line.head? == some '#')

/-- The lines that carry the name of a metric. -/
def linesOf (metric : Metric) (input : List Char) : List (List Char) :=
  (sampleLines input).filter fun line => decide (String.ofList (metricNamePrefix line) = metric.name)

/-- The lines that carry the name of some recognised metric. -/
def recognisedLines (input : List Char) : List (List Char) :=
  (sampleLines input).filter fun line => isRecognizedMetric (String.ofList (metricNamePrefix line))

/-- A sample without labels whose value is an integer in range. -/
def GaugeLine (ops : FloatOps) (positive : Bool) (line : List Char) (value : Nat) : Prop :=
  ∃ name text, UnlabelledSample line name text ∧ ops.parse text = some (.finite value) ∧
    (if positive then 1 else 0) ≤ value ∧ value ≤ 2 ^ 53 - 1

/-- A sample without labels whose value is finite and not negative. -/
def CounterLine (ops : FloatOps) (line : List Char) (value : ℚ) : Prop :=
  ∃ name text, UnlabelledSample line name text ∧ ops.parse text = some (.finite value) ∧ 0 ≤ value

/-- What a scrape has to look like. -/
structure MetricsContract (ops : FloatOps) (input : List Char) : Prop where
  running : (linesOf (.gauge .running) input).length = 1
  waiting : (linesOf (.gauge .waiting) input).length = 1
  atMostOne : ∀ gauge, (linesOf (.gauge gauge) input).length ≤ 1
  paired : linesOf (.gauge .kvUsed) input = [] ↔ linesOf (.gauge .kvTotal) input = []
  samples : ∀ gauge, ∀ line ∈ linesOf (.gauge gauge) input, ∃ value, GaugeLine ops gauge.positive line value

/-- The gauges of a result. -/
def MistralRsMetrics.gauge (metrics : MistralRsMetrics) : Gauge → Option Nat
  | .running => some metrics.sequencesRunning
  | .waiting => some metrics.sequencesWaiting
  | .capacity => metrics.sequencesCapacity
  | .kvUsed => metrics.kvCache.map KvCacheMetrics.used
  | .kvTotal => metrics.kvCache.map KvCacheMetrics.total

/-- The single counters of a result. -/
def MistralRsMetrics.counter (metrics : MistralRsMetrics) : Counter → Option ℚ
  | .tokens => metrics.tokensProcessedTotal
  | .prefillTokens => metrics.prefillTokensProcessedTotal
  | .decodeTokens => metrics.decodeTokensProcessedTotal

theorem Metric.ofName_name (metric : Metric) : Metric.ofName metric.name = some metric := by
  cases metric with
  | gauge gauge => cases gauge <;> decide +kernel
  | counter counter => cases counter <;> decide +kernel
  | completions => decide +kernel

theorem Metric.ofName_eq_some {name : String} {metric : Metric} :
    Metric.ofName name = some metric ↔ name = metric.name := by
  constructor
  · intro h
    have hfound : decide (metric.name = name) = true := by
      exact List.find?_some (p := fun metric : Metric => decide (metric.name = name)) h
    exact (of_decide_eq_true hfound).symm
  · rintro rfl
    exact Metric.ofName_name metric

/-- The metric that a trimmed line belongs to. -/
def metricOf (line : List Char) : Option Metric :=
  if line = [] ∨ line.head? = some '#' then none else Metric.ofName (String.ofList (metricNamePrefix line))

section Lines

variable {line : List Char} {metric : Metric}

theorem metricOf_eq_some : metricOf line = some metric ↔
    (line.isEmpty || line.head? == some '#') = false ∧ String.ofList (metricNamePrefix line) = metric.name := by
  unfold metricOf
  split
  · rename_i hskipped
    have hblank : (line.isEmpty || line.head? == some '#') = true := by
      simpa using hskipped
    simp [hblank]
  · rename_i hcarries
    have hblank : (line.isEmpty || line.head? == some '#') = false := by
      simpa using hcarries
    rw [Metric.ofName_eq_some]
    simp [hblank]

theorem linesOf_eq (metric : Metric) (input : List Char) :
    linesOf metric input = ((lines input).map trimText).filter fun line => decide (metricOf line = some metric) := by
  rw [linesOf, sampleLines, List.filter_filter]
  apply List.filter_congr
  intro line _
  rw [Bool.eq_iff_iff]
  simp only [Bool.and_eq_true, decide_eq_true_eq, metricOf_eq_some, Bool.not_eq_true']
  exact and_comm

/-- The two name scanners agree. -/
theorem parseSampleLine_name {sample : ParsedSample} (h : parseSampleLine line = .ok sample) :
    sample.name = metricNamePrefix line := by
  obtain ⟨hstart, hname, _⟩ := parseSampleLine_eq_ok.mp h
  rw [hname]
  cases line with
  | nil => rfl
  | cons first rest =>
      have hfirst : isMetricNameStart first = true := hstart
      rw [metricNamePrefix, if_pos hfirst]

end Lines

/-- What a line of its own does to a gauge. -/
def gaugeFeed (ops : FloatOps) (metric : String) (number : Nat) (line : List Char) (gauge : RequiredGauge) :
    Except MetricsParseError RequiredGauge :=
  match parseSampleLine line with
  | .error reason => .error (.malformedRequiredMetric metric number reason)
  | .ok sample => gauge.observe ops sample number

/-- What a line of its own does to a counter. -/
def counterFeed (ops : FloatOps) (line : List Char) (counter : OptionalSingleCounter) : OptionalSingleCounter :=
  match parseSampleLine line with
  | .error _ => counter.invalidate
  | .ok sample => counter.observe ops sample

namespace MetricsParser

variable {ops : FloatOps} {line : List Char} {number : Nat} {parser : MetricsParser}

theorem feed_of_none (h : metricOf line = none) : parser.feed ops number line = some (.ok parser) := by
  unfold metricOf at h
  unfold feed
  split at h
  · rename_i hskipped
    rw [if_pos hskipped]
  · rename_i hcarries
    rw [if_neg hcarries]
    simp [isRecognizedMetric, h]

/-- A line of a metric, in the two ways it can be read. -/
theorem feed_of_some {metric : Metric} (h : metricOf line = some metric) :
    parser.feed ops number line =
      match parseSampleLine line with
      | .error reason => parser.reject metric.name number reason
      | .ok sample => parser.accept ops sample number := by
  obtain ⟨hblank, hname⟩ := metricOf_eq_some.mp h
  have hcarries : ¬(line = [] ∨ line.head? = some '#') := by simpa using hblank
  have hrecognised : isRecognizedMetric metric.name = true := by rw [isRecognizedMetric, Metric.ofName_name]; rfl
  simp only [feed, if_neg hcarries, hname, hrecognised]
  rfl

theorem feed_gauge {gauge : Gauge} (h : metricOf line = some (.gauge gauge)) :
    parser.feed ops number line =
      match gaugeFeed ops (Metric.gauge gauge).name number line (parser.gauges gauge) with
      | .error error => some (.error error)
      | .ok observed => some (.ok { parser with gauges := Function.update parser.gauges gauge observed }) := by
  rw [feed_of_some h, gaugeFeed]
  cases hsample : parseSampleLine line with
  | error reason => simp only [reject, staticMetricName, Metric.ofName_name, Option.map_some]
  | ok sample =>
      have hname := (metricOf_eq_some.mp h).2
      cases hobserve : RequiredGauge.observe ops sample number (parser.gauges gauge) with
      | error error => simp only [accept, parseSampleLine_name hsample, hname, Metric.ofName_name, hobserve]
      | ok observed => simp only [accept, parseSampleLine_name hsample, hname, Metric.ofName_name, hobserve]

theorem feed_counter {counter : Counter} (h : metricOf line = some (.counter counter)) :
    parser.feed ops number line =
      some (.ok (parser.setCounter counter (counterFeed ops line (parser.counters counter)))) := by
  rw [feed_of_some h, counterFeed]
  cases hsample : parseSampleLine line with
  | error reason => simp only [reject, Metric.ofName_name]
  | ok sample =>
      simp only [accept, parseSampleLine_name hsample, (metricOf_eq_some.mp h).2, Metric.ofName_name]

theorem feed_completions (ops : FloatOps) (number : Nat) (parser : MetricsParser)
    (h : metricOf line = some .completions) :
    ∃ completions, parser.feed ops number line = some (.ok { parser with completions := completions }) := by
  rw [feed_of_some h]
  cases hsample : parseSampleLine line with
  | error reason =>
      simp only [reject, Metric.ofName_name]
      exact ⟨_, rfl⟩
  | ok sample =>
      simp only [accept, parseSampleLine_name hsample, (metricOf_eq_some.mp h).2, Metric.ofName_name]
      exact ⟨_, rfl⟩

/-- A gauge over the lines of its own. -/
def gaugeFeedAll (ops : FloatOps) (metric : String) : List (List Char × Nat) → RequiredGauge →
    Except MetricsParseError RequiredGauge
  | [], gauge => .ok gauge
  | (line, number) :: rest, gauge =>
      match gaugeFeed ops metric number line gauge with
      | .error error => .error error
      | .ok next => gaugeFeedAll ops metric rest next

/-- The lines of one metric. -/
def ownLines (metric : Metric) (items : List (List Char × Nat)) : List (List Char × Nat) :=
  items.filter fun item => decide (metricOf item.1 = some metric)

/-- What the loop leaves behind is what every accumulator makes of the lines of its own. -/
structure Fed (ops : FloatOps) (items : List (List Char × Nat)) (parser final : MetricsParser) : Prop where
  gauges : ∀ gauge, gaugeFeedAll ops (Metric.gauge gauge).name (ownLines (.gauge gauge) items) (parser.gauges gauge) =
    .ok (final.gauges gauge)
  counters : ∀ counter, final.counters counter =
    (ownLines (.counter counter) items).foldl (fun counter item => counterFeed ops item.1 counter)
      (parser.counters counter)

theorem ownLines_cons_of_ne {metric : Metric} {items : List (List Char × Nat)} (h : metricOf line ≠ some metric) :
    ownLines metric ((line, number) :: items) = ownLines metric items := by
  simp [ownLines, h]

theorem ownLines_cons_of_eq {metric : Metric} {items : List (List Char × Nat)} (h : metricOf line = some metric) :
    ownLines metric ((line, number) :: items) = (line, number) :: ownLines metric items := by
  simp [ownLines, h]

/-- The accumulators are fed the same lines from the parser on as from the next one without the first line. -/
structure Advances (ops : FloatOps) (item : List Char × Nat) (parser next : MetricsParser) : Prop where
  gauges : ∀ gauge items,
    gaugeFeedAll ops (Metric.gauge gauge).name (ownLines (.gauge gauge) (item :: items)) (parser.gauges gauge) =
      gaugeFeedAll ops (Metric.gauge gauge).name (ownLines (.gauge gauge) items) (next.gauges gauge)
  counters : ∀ counter items,
    (ownLines (.counter counter) (item :: items)).foldl (fun counter item => counterFeed ops item.1 counter)
        (parser.counters counter) =
      (ownLines (.counter counter) items).foldl (fun counter item => counterFeed ops item.1 counter)
        (next.counters counter)

/-- One line advances every accumulator, or fails the gauge it belongs to. -/
theorem feed_cases (ops : FloatOps) (line : List Char) (number : Nat) (parser : MetricsParser) :
    (∃ next, parser.feed ops number line = some (.ok next) ∧ Advances ops (line, number) parser next) ∨
      ∃ error gauge, parser.feed ops number line = some (.error error) ∧ ∀ items,
        gaugeFeedAll ops (Metric.gauge gauge).name (ownLines (.gauge gauge) ((line, number) :: items))
          (parser.gauges gauge) = .error error := by
  have hskip : ∀ {metric}, metricOf line ≠ some metric → ∀ items,
      ownLines metric ((line, number) :: items) = ownLines metric items := fun h _ => ownLines_cons_of_ne h
  cases hmetric : metricOf line with
  | none =>
      rw [hmetric] at hskip
      refine .inl ⟨parser, feed_of_none hmetric, ?_, ?_⟩
      · intro gauge items
        rw [hskip (by simp)]
      · intro counter items
        rw [hskip (by simp)]
  | some metric =>
      rw [hmetric] at hskip
      cases metric with
      | gauge gauge =>
          rw [feed_gauge hmetric]
          cases hfeed : gaugeFeed ops (Metric.gauge gauge).name number line (parser.gauges gauge) with
          | error error =>
              refine .inr ⟨error, gauge, rfl, ?_⟩
              intro items
              simp only [ownLines_cons_of_eq hmetric, gaugeFeedAll, hfeed]
          | ok observed =>
              refine .inl ⟨_, rfl, ?_, ?_⟩
              · intro other items
                by_cases hother : other = gauge
                · subst hother
                  simp only [ownLines_cons_of_eq hmetric, gaugeFeedAll, hfeed, Function.update_self]
                · have hne : some (Metric.gauge gauge) ≠ some (Metric.gauge other) := by
                    simpa using Ne.symm hother
                  simp only [hskip hne, Function.update_of_ne hother]
              · intro counter items
                rw [hskip (by simp)]
      | counter counter =>
          refine .inl ⟨_, feed_counter hmetric, ?_, ?_⟩
          · intro gauge items
            rw [hskip (by simp)]
            rfl
          · intro other items
            by_cases hother : other = counter
            · subst hother
              simp only [ownLines_cons_of_eq hmetric, List.foldl_cons, setCounter, Function.update_self]
            · have hne : some (Metric.counter counter) ≠ some (Metric.counter other) := by
                simpa using Ne.symm hother
              simp only [hskip hne, setCounter, Function.update_of_ne hother]
      | completions =>
          obtain ⟨completions, hfeed⟩ := feed_completions ops number parser hmetric
          refine .inl ⟨_, hfeed, ?_, ?_⟩
          · intro gauge items
            rw [hskip (by simp)]
          · intro counter items
            rw [hskip (by simp)]

/-- The loop never reaches an `unreachable!` arm; it fails on a gauge, or feeds every accumulator. -/
theorem feedAll_cases (ops : FloatOps) (items : List (List Char × Nat)) (parser : MetricsParser) :
    (∃ final, parser.feedAll ops items = some (.ok final) ∧ Fed ops items parser final) ∨
      ∃ error gauge error', parser.feedAll ops items = some (.error error) ∧
        gaugeFeedAll ops (Metric.gauge gauge).name (ownLines (.gauge gauge) items) (parser.gauges gauge) =
          .error error' := by
  induction items generalizing parser with
  | nil => exact .inl ⟨parser, rfl, fun _ => rfl, fun _ => rfl⟩
  | cons item items ih =>
      obtain ⟨line, number⟩ := item
      rcases feed_cases ops line number parser with ⟨next, hfeed, hadvances⟩ | ⟨error, gauge, hfeed, hfails⟩
      · simp only [feedAll, hfeed]
        rcases ih next with ⟨final, hfinal, hfed⟩ | ⟨error, gauge, error', hfinal, hfails⟩
        · refine .inl ⟨final, hfinal, ?_, ?_⟩
          · intro gauge
            rw [hadvances.gauges]
            exact hfed.gauges gauge
          · intro counter
            rw [hadvances.counters]
            exact hfed.counters counter
        · refine .inr ⟨error, gauge, error', hfinal, ?_⟩
          rw [hadvances.gauges]
          exact hfails
      · refine .inr ⟨error, gauge, error, ?_, hfails items⟩
        simp only [feedAll, hfeed]

end MetricsParser

section Gauges

variable {ops : FloatOps} {positive : Bool} {metric : String} {number : Nat} {line : List Char}

/-- An integer is the number it is read as. -/
theorem rat_eq_toNat {value : ℚ} (hsign : 0 ≤ value) (hinteger : value.den = 1) : value = (value.num.toNat : ℚ) := by
  have hnum : 0 ≤ value.num := Rat.num_nonneg.mpr hsign
  have hcast : (value.num : ℚ) = value := Rat.coe_int_num_of_den_eq_one hinteger
  calc value = (value.num : ℚ) := hcast.symm
    _ = ((value.num.toNat : Int) : ℚ) := by rw [Int.toNat_of_nonneg hnum]
    _ = (value.num.toNat : ℚ) := by norm_cast

theorem parseGaugeCount_eq_ok {text : List Char} {count : Nat} :
    parseGaugeCount ops positive text = .ok count ↔
      ops.parse text = some (.finite count) ∧ (if positive then 1 else 0) ≤ count ∧ count ≤ 2 ^ 53 - 1 := by
  have hmax : maxExactF64Integer = ((2 ^ 53 - 1 : Nat) : ℚ) := by norm_num [maxExactF64Integer]
  unfold parseGaugeCount
  cases ops.parse text with
  | none => simp
  | some number =>
      cases number with
      | infinite negative => simp
      | nan => simp
      | finite value =>
          constructor
          · intro h
            dsimp only at h
            split at h
            · cases h
            · rename_i hsign
              split at h
              · cases h
              · rename_i hzero
                split at h
                · cases h
                · rename_i hinteger
                  split at h
                  · cases h
                  · rename_i hlarge
                    cases h
                    have hvalue := rat_eq_toNat (not_lt.mp hsign) (not_not.mp hinteger)
                    rw [hmax] at hlarge
                    refine ⟨congrArg (some ∘ Float64.finite) hvalue, ?_, ?_⟩
                    · split
                      · rename_i hpositive
                        rw [Nat.one_le_iff_ne_zero]
                        intro hcount
                        rw [hcount] at hvalue
                        exact hzero ⟨hpositive, hvalue.trans Nat.cast_zero⟩
                      · exact Nat.zero_le _
                    · rw [hvalue, Nat.cast_lt] at hlarge
                      exact Nat.le_of_not_lt hlarge
          · rintro ⟨hvalue, hlow, hhigh⟩
            simp only [Option.some.injEq, Float64.finite.injEq] at hvalue
            subst hvalue
            have hsign : ¬((count : ℚ) < 0) := not_lt.mpr (Nat.cast_nonneg count)
            have hzero : ¬(positive = true ∧ (count : ℚ) = 0) := by
              rintro ⟨hpositive, hcount⟩
              rw [if_pos hpositive] at hlow
              rw [Nat.cast_eq_zero] at hcount
              omega
            have hlarge : ¬(maxExactF64Integer < (count : ℚ)) := by
              rw [hmax, Nat.cast_lt]
              omega
            dsimp only
            rw [if_neg hsign, if_neg hzero, if_neg (by simp), if_neg hlarge, Rat.num_natCast, Int.toNat_natCast]

/-- A gauge that has seen no line reads the value of its line. -/
theorem gaugeFeed_eq_ok {gauge observed : RequiredGauge} (hunseen : gauge.line = none) :
    gaugeFeed ops metric number line gauge = .ok observed ↔
      ∃ value, GaugeLine ops gauge.positive line value ∧
        observed = { gauge with value := some value, line := some number } := by
  simp only [gaugeFeed, GaugeLine, exists_unlabelled_iff]
  cases parseSampleLine line with
  | error reason => simp
  | ok sample =>
      simp only [RequiredGauge.observe, hunseen, Except.ok.injEq, exists_eq_left']
      cases hlabels : sample.labels with
      | some labels => simp
      | none =>
          simp only [Option.isSome_none, Bool.false_eq_true, if_false, true_and]
          cases hcount : parseGaugeCount ops gauge.positive sample.value with
          | error reason =>
              simp only [reduceCtorEq, false_iff, not_exists, not_and]
              intro value hvalue
              rw [parseGaugeCount_eq_ok.mpr hvalue] at hcount
              cases hcount
          | ok count =>
              simp only [Except.ok.injEq]
              constructor
              · rintro rfl
                exact ⟨count, parseGaugeCount_eq_ok.mp hcount, rfl⟩
              · rintro ⟨value, hvalue, rfl⟩
                rw [parseGaugeCount_eq_ok.mpr hvalue, Except.ok.injEq] at hcount
                rw [hcount]

/-- A second line fails the gauge whatever it says. -/
theorem gaugeFeed_seen {gauge observed : RequiredGauge} {first : Nat} (hseen : gauge.line = some first) :
    gaugeFeed ops metric number line gauge ≠ .ok observed := by
  unfold gaugeFeed
  cases parseSampleLine line with
  | error reason => simp
  | ok sample => simp [RequiredGauge.observe, hseen]

/-- A gauge accepts no line, or one that it can read. -/
theorem gaugeFeedAll_eq_ok {items : List (List Char × Nat)} {observed : RequiredGauge} :
    MetricsParser.gaugeFeedAll ops metric items (.new metric positive) = .ok observed ↔
      items = [] ∧ observed = .new metric positive ∨
        ∃ line number value, items = [(line, number)] ∧ GaugeLine ops positive line value ∧
          observed = ⟨metric, some value, some number, positive⟩ := by
  rcases items with _ | ⟨⟨line, number⟩, _ | ⟨⟨second, secondNumber⟩, rest⟩⟩
  · simp [MetricsParser.gaugeFeedAll, eq_comm]
  · simp only [MetricsParser.gaugeFeedAll, List.cons_ne_nil, false_and, false_or, List.cons.injEq, and_true,
      Prod.mk.injEq]
    cases hfeed : gaugeFeed ops metric number line (.new metric positive) with
    | error error =>
        simp only [reduceCtorEq, false_iff, not_exists, not_and]
        rintro _ _ value ⟨rfl, rfl⟩ hline _
        rw [(gaugeFeed_eq_ok rfl).mpr ⟨value, hline, rfl⟩] at hfeed
        cases hfeed
    | ok next =>
        obtain ⟨value, hline, rfl⟩ := (gaugeFeed_eq_ok rfl).mp hfeed
        simp only [Except.ok.injEq]
        constructor
        · rintro rfl
          exact ⟨line, number, value, ⟨rfl, rfl⟩, hline, rfl⟩
        · rintro ⟨_, _, other, ⟨rfl, rfl⟩, hother, rfl⟩
          rw [(gaugeFeed_eq_ok rfl).mpr ⟨other, hother, rfl⟩, Except.ok.injEq] at hfeed
          exact hfeed.symm
  · have hnever : MetricsParser.gaugeFeedAll ops metric ((line, number) :: (second, secondNumber) :: rest)
        (.new metric positive) ≠ .ok observed := by
      simp only [MetricsParser.gaugeFeedAll]
      cases hfeed : gaugeFeed ops metric number line (.new metric positive) with
      | error error => simp
      | ok next =>
          obtain ⟨value, _, rfl⟩ := (gaugeFeed_eq_ok rfl).mp hfeed
          dsimp only
          cases hsecond : gaugeFeed ops metric secondNumber second
              { RequiredGauge.new metric positive with value := some value, line := some number } with
          | error error => simp
          | ok third => exact absurd hsecond (gaugeFeed_seen rfl)
    simp [hnever]

end Gauges

section Counters

variable {ops : FloatOps}

theorem parseCounter_eq_some {text : List Char} {value : ℚ} :
    parseCounter ops text = some value ↔ ops.parse text = some (.finite value) ∧ 0 ≤ value := by
  unfold parseCounter
  split
  · rename_i read hread
    rw [hread]
    split
    · rename_i hsign
      simp only [Option.some.injEq, Float64.finite.injEq]
      constructor
      · rintro rfl
        exact ⟨rfl, hsign⟩
      · exact fun h => h.1
    · rename_i hsign
      simp only [reduceCtorEq, Option.some.injEq, Float64.finite.injEq, false_iff, not_and]
      rintro rfl
      exact hsign
  · rename_i hother
    simp only [reduceCtorEq, false_iff, not_and]
    intro hread
    exact absurd hread (hother value)

/-- A fresh counter reads the value of its line, or is invalid. -/
theorem counterFeed_fresh (ops : FloatOps) (line : List Char) :
    (∃ value, CounterLine ops line value ∧ counterFeed ops line .empty = ⟨some value, false⟩) ∨
      (∀ value, ¬CounterLine ops line value) ∧ counterFeed ops line .empty = ⟨none, true⟩ := by
  simp only [counterFeed, CounterLine, exists_unlabelled_iff]
  cases parseSampleLine line with
  | error reason => exact .inr ⟨by simp, rfl⟩
  | ok sample =>
      simp only [Except.ok.injEq, exists_eq_left']
      cases hlabels : sample.labels with
      | some labels =>
        exact .inr ⟨by simp, by simp [OptionalSingleCounter.observe, hlabels, OptionalSingleCounter.invalidate]⟩
      | none =>
          cases hcounter : parseCounter ops sample.value with
          | some value =>
              refine .inl ⟨value, ⟨rfl, parseCounter_eq_some.mp hcounter⟩, ?_⟩
              simp [OptionalSingleCounter.observe, hlabels, hcounter, OptionalSingleCounter.empty]
          | none =>
              refine .inr ⟨?_, ?_⟩
              · rintro value ⟨_, hvalue⟩
                rw [parseCounter_eq_some.mpr hvalue] at hcounter
                cases hcounter
              · simp [OptionalSingleCounter.observe, hlabels, hcounter, OptionalSingleCounter.empty]

/-- A counter that holds a value or is invalid becomes or stays invalid with the next line. -/
theorem counterFeed_used (ops : FloatOps) (line : List Char) {counter : OptionalSingleCounter}
    (h : counter.value.isSome = true ∨ counter.invalid = true) :
    (counterFeed ops line counter).invalid = true := by
  unfold counterFeed
  cases parseSampleLine line with
  | error reason => rfl
  | ok sample =>
      simp only [OptionalSingleCounter.observe]
      split
      · rfl
      · rename_i hunused
        simp only [Bool.or_eq_true, not_or, Bool.not_eq_true] at hunused
        have hinvalid : counter.invalid = true := h.resolve_left (by simp [hunused.1])
        split
        · exact hinvalid
        · rfl

theorem foldl_counterFeed_invalid (ops : FloatOps) (items : List (List Char × Nat)) {counter : OptionalSingleCounter}
    (h : counter.invalid = true) :
    (items.foldl (fun counter item => counterFeed ops item.1 counter) counter).invalid = true := by
  induction items generalizing counter with
  | nil => exact h
  | cons item items ih => exact ih (counterFeed_used ops item.1 (.inr h))

/-- A counter has a value if it has one line and can read it. -/
theorem counter_finish_eq_some {items : List (List Char × Nat)} {value : ℚ} :
    (items.foldl (fun counter item => counterFeed ops item.1 counter) OptionalSingleCounter.empty).finish = some value ↔
      ∃ line, items.map Prod.fst = [line] ∧ CounterLine ops line value := by
  rcases items with _ | ⟨⟨line, number⟩, _ | ⟨⟨second, secondNumber⟩, rest⟩⟩
  · simp [OptionalSingleCounter.finish, OptionalSingleCounter.empty]
  · simp only [List.foldl_cons, List.foldl_nil, List.map_cons, List.map_nil, List.cons.injEq, and_true, exists_eq_left']
    rcases counterFeed_fresh ops line with ⟨read, hline, hfeed⟩ | ⟨hnever, hfeed⟩
    · rw [hfeed]
      simp only [OptionalSingleCounter.finish, Bool.false_eq_true, if_false, Option.some.injEq]
      constructor
      · rintro rfl
        exact hline
      · intro hother
        obtain ⟨_, text, hsample, hread, _⟩ := hline
        obtain ⟨_, text', hsample', hread', _⟩ := hother
        rw [← hsample.value_unique hsample', hread, Option.some.injEq, Float64.finite.injEq] at hread'
        exact hread'
    · rw [hfeed]
      simp [OptionalSingleCounter.finish, hnever]
  · have hused : (counterFeed ops line OptionalSingleCounter.empty).value.isSome = true ∨
        (counterFeed ops line OptionalSingleCounter.empty).invalid = true := by
      rcases counterFeed_fresh ops line with ⟨read, _, hfeed⟩ | ⟨_, hfeed⟩
      · exact .inl (by rw [hfeed]; rfl)
      · exact .inr (by rw [hfeed])
    simp only [List.foldl_cons]
    have hinvalid := foldl_counterFeed_invalid ops rest (counterFeed_used ops second hused)
    simp [OptionalSingleCounter.finish, hinvalid]

end Counters

namespace MetricsParser

variable {ops : FloatOps} {parser : MetricsParser}

/-- The lines an accumulator is fed are the lines of its metric. -/
theorem map_fst_ownLines (metric : Metric) (input : List Char) :
    (ownLines metric (((lines input).map trimText).zipIdx 1)).map Prod.fst = linesOf metric input := by
  rw [linesOf_eq, ownLines]
  generalize (lines input).map trimText = texts
  have hmap : (texts.zipIdx 1).map Prod.fst = texts := List.zipIdx_map_fst 1 texts
  conv_rhs => rw [← hmap]
  rw [List.filter_map]
  rfl

/-- What a gauge holds at the end. -/
theorem gauge_of_fed {input : List Char} {final : MetricsParser}
    (h : Fed ops (((lines input).map trimText).zipIdx 1) new final) (gauge : Gauge) :
    linesOf (.gauge gauge) input = [] ∧ (final.gauges gauge).value = none ∨
      ∃ line value, linesOf (.gauge gauge) input = [line] ∧ GaugeLine ops gauge.positive line value ∧
        (final.gauges gauge).value = some value := by
  rw [← map_fst_ownLines]
  rcases gaugeFeedAll_eq_ok.mp (h.gauges gauge) with ⟨hnone, hgauge⟩ | ⟨line, number, value, hone, hline, hgauge⟩
  · refine .inl ⟨by rw [hnone]; rfl, by rw [hgauge]; rfl⟩
  · exact .inr ⟨line, value, by rw [hone]; rfl, hline, by rw [hgauge]⟩

theorem counter_of_fed {input : List Char} {final : MetricsParser}
    (h : Fed ops (((lines input).map trimText).zipIdx 1) new final) (counter : Counter) (value : ℚ) :
    (final.counters counter).finish = some value ↔
      ∃ line, linesOf (.counter counter) input = [line] ∧ CounterLine ops line value := by
  rw [← map_fst_ownLines, h.counters counter]
  exact counter_finish_eq_some

theorem finish_eq_ok {parsed : ParsedMetrics} (h : parser.finish = .ok parsed) :
    (∀ gauge, parsed.metrics.gauge gauge = (parser.gauges gauge).value) ∧
      ∀ counter, parsed.metrics.counter counter = (parser.counters counter).finish := by
  unfold finish RequiredGauge.required at h
  cases hrunning : (parser.gauges .running).value with
  | none => simp [hrunning] at h
  | some running =>
      cases hwaiting : (parser.gauges .waiting).value with
      | none => simp [hrunning, hwaiting] at h
      | some waiting =>
          simp only [hrunning, hwaiting] at h
          split at h
          · rename_i hused htotal
            cases h
            refine ⟨?_, fun counter => by cases counter <;> rfl⟩
            intro gauge
            cases gauge with
            | running => exact hrunning.symm
            | waiting => exact hwaiting.symm
            | capacity => rfl
            | kvUsed => exact hused.symm
            | kvTotal => exact htotal.symm
          · rename_i used total hused htotal
            cases h
            refine ⟨?_, fun counter => by cases counter <;> rfl⟩
            intro gauge
            cases gauge with
            | running => exact hrunning.symm
            | waiting => exact hwaiting.symm
            | capacity => rfl
            | kvUsed => exact hused.symm
            | kvTotal => exact htotal.symm
          · cases h
          · cases h

theorem finish_isOk : (∃ parsed, parser.finish = .ok parsed) ↔
    (parser.gauges .running).value.isSome = true ∧ (parser.gauges .waiting).value.isSome = true ∧
      ((parser.gauges .kvUsed).value.isSome = true ↔ (parser.gauges .kvTotal).value.isSome = true) := by
  unfold finish RequiredGauge.required
  cases (parser.gauges .running).value with
  | none => simp
  | some running =>
      cases (parser.gauges .waiting).value with
      | none => simp
      | some waiting =>
          cases (parser.gauges .kvUsed).value with
          | none => cases (parser.gauges .kvTotal).value <;> simp
          | some used => cases (parser.gauges .kvTotal).value <;> simp

end MetricsParser

section Contract

variable {ops : FloatOps} {input : List Char}

theorem parse_cases (ops : FloatOps) (input : List Char) :
    (∃ final, parseMistralrsMetrics ops input = some final.finish ∧
      MetricsParser.Fed ops (((lines input).map trimText).zipIdx 1) .new final) ∨
      ∃ error gauge error', parseMistralrsMetrics ops input = some (.error error) ∧
        MetricsParser.gaugeFeedAll ops (Metric.gauge gauge).name
          (MetricsParser.ownLines (.gauge gauge) (((lines input).map trimText).zipIdx 1))
          (.new (Metric.gauge gauge).name gauge.positive) = .error error' := by
  unfold parseMistralrsMetrics
  rcases MetricsParser.feedAll_cases ops (((lines input).map trimText).zipIdx 1) .new with
    ⟨final, hfeed, hfed⟩ | ⟨error, gauge, error', hfeed, hfails⟩
  · rw [hfeed]
    exact .inl ⟨final, rfl, hfed⟩
  · rw [hfeed]
    exact .inr ⟨error, gauge, error', rfl, hfails⟩

/-- A contracted gauge accepts its lines. -/
theorem MetricsContract.gaugeFeedAll (h : MetricsContract ops input) (gauge : Gauge) :
    ∃ observed, MetricsParser.gaugeFeedAll ops (Metric.gauge gauge).name
      (MetricsParser.ownLines (.gauge gauge) (((lines input).map trimText).zipIdx 1))
      (.new (Metric.gauge gauge).name gauge.positive) = .ok observed := by
  have hlength := h.atMostOne gauge
  have hsamples := h.samples gauge
  rw [← MetricsParser.map_fst_ownLines] at hlength hsamples
  generalize MetricsParser.ownLines (.gauge gauge) (((lines input).map trimText).zipIdx 1) = items at hlength hsamples
  rcases items with _ | ⟨⟨line, number⟩, _ | ⟨second, rest⟩⟩
  · exact ⟨_, gaugeFeedAll_eq_ok.mpr (.inl ⟨rfl, rfl⟩)⟩
  · obtain ⟨value, hvalue⟩ := hsamples line (by simp)
    exact ⟨_, gaugeFeedAll_eq_ok.mpr (.inr ⟨line, number, value, rfl, hvalue, rfl⟩)⟩
  · simp at hlength

/-- The gauge is fed as the contract says, and has its value. -/
theorem MetricsParser.Fed.isSome_iff {final : MetricsParser}
    (h : MetricsParser.Fed ops (((lines input).map trimText).zipIdx 1) .new final) (gauge : Gauge) :
    (final.gauges gauge).value.isSome = true ↔ linesOf (.gauge gauge) input ≠ [] := by
  rcases MetricsParser.gauge_of_fed h gauge with ⟨hlines, hvalue⟩ | ⟨line, value, hlines, _, hvalue⟩
  · simp [hlines, hvalue]
  · simp [hlines, hvalue]

theorem MetricsParser.Fed.contract_iff {final : MetricsParser}
    (h : MetricsParser.Fed ops (((lines input).map trimText).zipIdx 1) .new final) :
    (∃ parsed, final.finish = .ok parsed) ↔ MetricsContract ops input := by
  have hshape : ∀ gauge, (linesOf (.gauge gauge) input).length ≤ 1 ∧
      ∀ line ∈ linesOf (.gauge gauge) input, ∃ value, GaugeLine ops gauge.positive line value := by
    intro gauge
    rcases MetricsParser.gauge_of_fed h gauge with ⟨hlines, _⟩ | ⟨line, value, hlines, hline, _⟩
    · simp [hlines]
    · rw [hlines]
      refine ⟨le_rfl, ?_⟩
      intro other hother
      rw [List.mem_singleton.mp hother]
      exact ⟨value, hline⟩
  rw [MetricsParser.finish_isOk, h.isSome_iff, h.isSome_iff, h.isSome_iff, h.isSome_iff]
  constructor
  · rintro ⟨hrunning, hwaiting, hpaired⟩
    refine ⟨?_, ?_, fun gauge => (hshape gauge).1, not_iff_not.mp hpaired, fun gauge => (hshape gauge).2⟩
    · have hpositive := List.length_pos_iff.mpr hrunning
      have hle := (hshape .running).1
      omega
    · have hpositive := List.length_pos_iff.mpr hwaiting
      have hle := (hshape .waiting).1
      omega
  · intro hcontract
    refine ⟨?_, ?_, not_iff_not.mpr hcontract.paired⟩
    · exact List.length_pos_iff.mp (by rw [hcontract.running]; decide)
    · exact List.length_pos_iff.mp (by rw [hcontract.waiting]; decide)

/-- The values of an accepted scrape are those on its lines. -/
structure ReadsLines (ops : FloatOps) (input : List Char) (metrics : MistralRsMetrics) : Prop where
  gauges : ∀ gauge value, metrics.gauge gauge = some value ↔
    ∃ line ∈ linesOf (.gauge gauge) input, GaugeLine ops gauge.positive line value
  counters : ∀ counter value, metrics.counter counter = some value ↔
    ∃ line, linesOf (.counter counter) input = [line] ∧ CounterLine ops line value

theorem GaugeLine.unique {positive : Bool} {line : List Char} {first second : Nat}
    (hfirst : GaugeLine ops positive line first)
    (hsecond : GaugeLine ops positive line second) : first = second := by
  obtain ⟨_, text, hsample, hread, _⟩ := hfirst
  obtain ⟨_, text', hsample', hread', _⟩ := hsecond
  rw [← hsample.value_unique hsample', hread, Option.some.injEq, Float64.finite.injEq, Nat.cast_inj] at hread'
  exact hread'

theorem MetricsParser.Fed.readsLines {final : MetricsParser} {parsed : ParsedMetrics}
    (h : MetricsParser.Fed ops (((lines input).map trimText).zipIdx 1) .new final)
    (hfinish : final.finish = .ok parsed) :
    ReadsLines ops input parsed.metrics := by
  obtain ⟨hgauges, hcounters⟩ := MetricsParser.finish_eq_ok hfinish
  refine ⟨?_, ?_⟩
  · intro gauge value
    rw [hgauges gauge]
    rcases MetricsParser.gauge_of_fed h gauge with ⟨hlines, hvalue⟩ | ⟨line, read, hlines, hline, hvalue⟩
    · simp [hlines, hvalue]
    · rw [hlines, hvalue, Option.some.injEq]
      constructor
      · rintro rfl
        exact ⟨line, List.mem_singleton_self _, hline⟩
      · rintro ⟨other, hother, hread⟩
        rw [List.mem_singleton.mp hother] at hread
        exact hline.unique hread
  · intro counter value
    rw [hcounters counter]
    exact MetricsParser.counter_of_fed h counter value

/-- The parser accepts what the contract describes and reads the values on the lines. -/
theorem parse_sound (ops : FloatOps) (input : List Char) :
    ∃ result, parseMistralrsMetrics ops input = some result ∧
      ((∃ parsed, result = .ok parsed) ↔ MetricsContract ops input) ∧
      ∀ parsed, result = .ok parsed → ReadsLines ops input parsed.metrics := by
  rcases parse_cases ops input with ⟨final, hparse, hfed⟩ | ⟨error, gauge, error', hparse, hfails⟩
  · exact ⟨_, hparse, hfed.contract_iff, fun parsed hparsed => hfed.readsLines hparsed⟩
  · refine ⟨_, hparse, ⟨?_, ?_⟩, ?_⟩
    · rintro ⟨parsed, hparsed⟩
      cases hparsed
    · intro hcontract
      obtain ⟨observed, hobserved⟩ := hcontract.gaugeFeedAll gauge
      rw [hfails] at hobserved
      cases hobserved
    · rintro parsed ⟨⟩

end Contract

section Order

variable {ops : FloatOps} {input other : List Char}

theorem linesOf_eq_filter_recognised (metric : Metric) (input : List Char) :
    linesOf metric input =
      (recognisedLines input).filter fun line => decide (String.ofList (metricNamePrefix line) = metric.name) := by
  rw [linesOf, recognisedLines, List.filter_filter]
  apply List.filter_congr
  intro line _
  rw [Bool.eq_iff_iff]
  simp only [Bool.and_eq_true, decide_eq_true_eq]
  constructor
  · intro hname
    refine ⟨hname, ?_⟩
    rw [hname, isRecognizedMetric, Metric.ofName_name]
    rfl
  · exact fun h => h.1

theorem linesOf_perm (h : (recognisedLines input).Perm (recognisedLines other)) (metric : Metric) :
    (linesOf metric input).Perm (linesOf metric other) := by
  rw [linesOf_eq_filter_recognised, linesOf_eq_filter_recognised]
  exact h.filter _

theorem MetricsContract.perm (hcontract : MetricsContract ops input)
    (h : (recognisedLines input).Perm (recognisedLines other)) : MetricsContract ops other := by
  have hperm := linesOf_perm h
  have hnil : ∀ metric, linesOf metric other = [] ↔ linesOf metric input = [] := by
    intro metric
    constructor
    · intro hempty
      exact List.perm_nil.mp (hempty ▸ hperm metric)
    · intro hempty
      exact List.perm_nil.mp (hempty ▸ (hperm metric).symm)
  refine ⟨?_, ?_, ?_, ?_, ?_⟩
  · rw [← (hperm _).length_eq]
    exact hcontract.running
  · rw [← (hperm _).length_eq]
    exact hcontract.waiting
  · intro gauge
    rw [← (hperm _).length_eq]
    exact hcontract.atMostOne gauge
  · rw [hnil, hnil]
    exact hcontract.paired
  · intro gauge line hmem
    exact hcontract.samples gauge line ((hperm _).mem_iff.mpr hmem)

theorem MistralRsMetrics.ext_of_fields {first second : MistralRsMetrics}
    (hgauges : ∀ gauge, first.gauge gauge = second.gauge gauge)
    (hcounters : ∀ counter, first.counter counter = second.counter counter) : first = second := by
  obtain ⟨running, waiting, capacity, kv, tokens, prefill, decode⟩ := first
  obtain ⟨running', waiting', capacity', kv', tokens', prefill', decode'⟩ := second
  have hrunning : running = running' := Option.some.inj (hgauges .running)
  have hwaiting : waiting = waiting' := Option.some.inj (hgauges .waiting)
  have hcapacity : capacity = capacity' := hgauges .capacity
  have hused : kv.map KvCacheMetrics.used = kv'.map KvCacheMetrics.used := hgauges .kvUsed
  have htotal : kv.map KvCacheMetrics.total = kv'.map KvCacheMetrics.total := hgauges .kvTotal
  have hkv : kv = kv' := by
    rcases kv with _ | ⟨used, total⟩ <;> rcases kv' with _ | ⟨used', total'⟩
    · rfl
    · cases hused
    · cases hused
    · cases hused
      cases htotal
      rfl
  have htokens : tokens = tokens' := hcounters .tokens
  have hprefill : prefill = prefill' := hcounters .prefillTokens
  have hdecode : decode = decode' := hcounters .decodeTokens
  rw [hrunning, hwaiting, hcapacity, hkv, htokens, hprefill, hdecode]

/-- The lines of the recognised metrics determine what is read, in whatever order they are. -/
theorem ReadsLines.perm {first second : MistralRsMetrics} (hfirst : ReadsLines ops input first)
    (hsecond : ReadsLines ops other second) (h : (recognisedLines input).Perm (recognisedLines other)) :
    first = second := by
  have hperm := linesOf_perm h
  refine MistralRsMetrics.ext_of_fields ?_ ?_
  · intro gauge
    refine Option.ext fun value => ?_
    rw [hfirst.gauges, hsecond.gauges]
    simp only [(hperm _).mem_iff]
  · intro counter
    refine Option.ext fun value => ?_
    rw [hfirst.counters, hsecond.counters]
    have hsingle : ∀ line, linesOf (.counter counter) input = [line] ↔ linesOf (.counter counter) other = [line] := by
      intro line
      rw [← List.perm_singleton, ← List.perm_singleton]
      exact ⟨(hperm _).symm.trans, (hperm _).trans⟩
    simp only [hsingle]

end Order

/-- The parser reaches no `unreachable!` arm, accepts exactly the scrapes of its contract with the values on their
lines, and depends neither on the order of the lines nor on lines of other metrics. -/
theorem metrics_contract_exact (ops : FloatOps) (input : List Char) :
    ∃ result, parseMistralrsMetrics ops input = some result ∧
      ((∃ parsed, result = .ok parsed) ↔ MetricsContract ops input) ∧
      (∀ parsed, result = .ok parsed → ReadsLines ops input parsed.metrics) ∧
      ∀ other, (recognisedLines input).Perm (recognisedLines other) →
        ∃ result', parseMistralrsMetrics ops other = some result' ∧
          ((∃ parsed, result = .ok parsed) ↔ ∃ parsed, result' = .ok parsed) ∧
          ∀ parsed parsed', result = .ok parsed → result' = .ok parsed' → parsed.metrics = parsed'.metrics := by
  obtain ⟨result, hresult, hiff, hreads⟩ := parse_sound ops input
  refine ⟨result, hresult, hiff, hreads, ?_⟩
  intro other hperm
  obtain ⟨result', hresult', hiff', hreads'⟩ := parse_sound ops other
  refine ⟨result', hresult', ?_, ?_⟩
  · rw [hiff, hiff']
    exact ⟨fun hcontract => hcontract.perm hperm, fun hcontract => hcontract.perm hperm.symm⟩
  · intro parsed parsed' hparsed hparsed'
    exact (hreads parsed hparsed).perm (hreads' parsed' hparsed') hperm

end MistralrsProxy
