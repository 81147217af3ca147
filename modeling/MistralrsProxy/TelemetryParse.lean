import MistralrsProxy.Text
import MistralrsProxy.Telemetry

/-! The parser of the metrics text. Nine accumulators are fed from the lines of one scrape: five gauges that reject the
scrape when a line of theirs is wrong, and counters that only lose their own value. Reading a number is a parameter. -/

namespace MistralrsProxy

/-- A floating point number; finite ones are taken as the rational they stand for. -/
inductive Float64 where
  | finite (value : ℚ)
  | infinite (negative : Bool)
  | nan
  deriving DecidableEq

/-- What is taken from the standard library about floating point: reading a number, and adding two finite ones. -/
structure FloatOps where
  parse : List Char → Option Float64
  add : ℚ → ℚ → Float64

inductive Gauge where
  | running
  | waiting
  | capacity
  | kvUsed
  | kvTotal
  deriving DecidableEq, Repr

inductive Counter where
  | tokens
  | prefillTokens
  | decodeTokens
  deriving DecidableEq, Repr

/-- The recognised metrics. -/
inductive Metric where
  | gauge (gauge : Gauge)
  | counter (counter : Counter)
  | completions
  deriving DecidableEq, Repr

def Metric.name : Metric → String
  | .gauge .running => "mistralrs_sequences_running"
  | .gauge .waiting => "mistralrs_sequences_waiting"
  | .gauge .capacity => "mistralrs_sequences_capacity"
  | .gauge .kvUsed => "mistralrs_kv_cache_blocks_used"
  | .gauge .kvTotal => "mistralrs_kv_cache_blocks_total"
  | .counter .tokens => "mistralrs_tokens_processed_total"
  | .counter .prefillTokens => "mistralrs_prefill_tokens_processed_total"
  | .counter .decodeTokens => "mistralrs_decode_tokens_processed_total"
  | .completions => "mistralrs_sequences_completed_total"

def Metric.all : List Metric :=
  [.gauge .running, .gauge .waiting, .gauge .capacity, .gauge .kvUsed, .gauge .kvTotal, .counter .tokens,
    .counter .prefillTokens, .counter .decodeTokens, .completions]

/-- The metric a name is matched with. -/
def Metric.ofName (name : String) : Option Metric := Metric.all.find? fun metric => decide (metric.name = name)

def isRecognizedMetric (name : String) : Bool := (Metric.ofName name).isSome

/-- `static_metric_name`; no result stands for its `unreachable!` arm. -/
def staticMetricName (name : String) : Option String := (Metric.ofName name).map Metric.name

inductive MetricsParseError where
  | missingRequiredMetric (metric : String)
  | duplicateRequiredMetric (metric : String) (firstLine duplicateLine : Nat)
  | malformedRequiredMetric (metric : String) (line : Nat) (reason : String)
  | incompleteKvCacheMetrics (missing : String)
  deriving DecidableEq, Repr

structure ParsedSample where
  name : List Char
  labels : Option (List Char)
  value : List Char
  deriving DecidableEq, Repr

def isMetricNameStart (char : Char) : Bool := char.isAlpha || char == '_' || char == ':'

def isMetricNameContinue (char : Char) : Bool := isMetricNameStart char || char.isDigit

def metricNamePrefix (line : List Char) : List Char :=
  match line with
  | [] => []
  | first :: _ => if isMetricNameStart first then line.takeWhile isMetricNameContinue else []

/-- `find_label_set_end`: what is in front of the closing brace, and what follows it. -/
def findLabelSetEnd : Bool → Bool → List Char → Option (List Char × List Char)
  | _, _, [] => none
  | true, true, char :: rest => (findLabelSetEnd true false rest).map fun found => (char :: found.1, found.2)
  | true, false, char :: rest =>
      (findLabelSetEnd (char != '"') (char == '\\') rest).map fun found => (char :: found.1, found.2)
  | false, escaped, char :: rest =>
      if char = '"' then (findLabelSetEnd true escaped rest).map fun found => (char :: found.1, found.2)
      else if char = '\x7d' then some ([], rest)
      else (findLabelSetEnd false escaped rest).map fun found => (char :: found.1, found.2)

/-- The check on what follows the value: a timestamp, a comment, or nothing. -/
def checkRemainder (remainder : List Char) : Except String Unit :=
  if remainder = [] ∨ remainder.head? = some '#' then .ok ()
  else
    let timestamp := remainder.takeWhile fun char => !isWhitespace char
    if parseI64 timestamp = none then .error "unexpected content after sample value"
    else
      let afterTimestamp := trimStart (remainder.dropWhile fun char => !isWhitespace char)
      if afterTimestamp = [] ∨ afterTimestamp.head? = some '#' then .ok ()
      else .error "unexpected content after sample timestamp"

/-- The labels of a sample, braces included, and the text behind them. -/
def parseLabels : List Char → Except String (Option (List Char) × List Char)
  | '\x7b' :: rest =>
      match findLabelSetEnd false false rest with
      | none => .error "unterminated label set"
      | some (labels, rest) => .ok (some ('\x7b' :: labels ++ ['\x7d']), rest)
  | rest => .ok (none, rest)

def parseSampleLine (line : List Char) : Except String ParsedSample :=
  let name := line.takeWhile isMetricNameContinue
  if name = [] ∨ !(line.head?.any isMetricNameStart) then .error "invalid metric name"
  else
    match parseLabels (line.dropWhile isMetricNameContinue) with
    | .error reason => .error reason
    | .ok (labels, rest) =>
        if !(rest.head?.any isAsciiWhitespace) then .error "expected whitespace before sample value"
        else
          let rest := rest.dropWhile isAsciiWhitespace
          if rest = [] then .error "sample value is missing"
          else
            let value := rest.takeWhile fun char => !isAsciiWhitespace char
            match checkRemainder (trimStart (rest.dropWhile fun char => !isAsciiWhitespace char)) with
            | .error reason => .error reason
            | .ok () => .ok ⟨name, labels, value⟩

/-- `2 ^ 53 - 1`, the last integer up to which all are exact. -/
def maxExactF64Integer : ℚ := 9007199254740991

def parseGaugeCount (ops : FloatOps) (positive : Bool) (value : List Char) : Except String Nat :=
  match ops.parse value with
  | none => .error "value is not a number"
  | some (.infinite _) | some .nan => .error "value must be finite"
  | some (.finite value) =>
      if value < 0 then .error "value must be non-negative"
      else if positive ∧ value = 0 then .error "value must be positive"
      else if value.den ≠ 1 then .error "value must be an integer"
      else if maxExactF64Integer < value then .error "value is too large to represent exactly"
      else .ok value.num.toNat

def parseCounter (ops : FloatOps) (value : List Char) : Option ℚ :=
  match ops.parse value with
  | some (.finite value) => if 0 ≤ value then some value else none
  | _ => none

structure RequiredGauge where
  metric : String
  value : Option Nat
  line : Option Nat
  positive : Bool
  deriving DecidableEq, Repr

namespace RequiredGauge

def new (metric : String) (positive : Bool) : RequiredGauge := ⟨metric, none, none, positive⟩

def malformed (line : Nat) (reason : String) (gauge : RequiredGauge) : MetricsParseError :=
  .malformedRequiredMetric gauge.metric line reason

def observe (ops : FloatOps) (sample : ParsedSample) (line : Nat) (gauge : RequiredGauge) :
    Except MetricsParseError RequiredGauge :=
  match gauge.line with
  | some firstLine => .error (.duplicateRequiredMetric gauge.metric firstLine line)
  | none =>
      if sample.labels.isSome then .error (gauge.malformed line "labels are not allowed")
      else
        match parseGaugeCount ops gauge.positive sample.value with
        | .error reason => .error (gauge.malformed line reason)
        | .ok value => .ok { gauge with value := some value, line := some line }

def required (gauge : RequiredGauge) : Except MetricsParseError Nat :=
  match gauge.value with
  | some value => .ok value
  | none => .error (.missingRequiredMetric gauge.metric)

end RequiredGauge

structure OptionalSingleCounter where
  value : Option ℚ
  invalid : Bool
  deriving DecidableEq

namespace OptionalSingleCounter

def empty : OptionalSingleCounter := ⟨none, false⟩

def invalidate (_ : OptionalSingleCounter) : OptionalSingleCounter := ⟨none, true⟩

def observe (ops : FloatOps) (sample : ParsedSample) (counter : OptionalSingleCounter) : OptionalSingleCounter :=
  if counter.value.isSome || sample.labels.isSome then counter.invalidate
  else
    match parseCounter ops sample.value with
    | some value => { counter with value := some value }
    | none => { counter with invalid := true }

def finish (counter : OptionalSingleCounter) : Option ℚ := if counter.invalid then none else counter.value

end OptionalSingleCounter

/-- The labelled counter of completed sequences. -/
structure OptionalCounterFamily where
  total : Float64
  seen : Bool
  invalid : Bool
  series : List (List Char)
  deriving DecidableEq

namespace OptionalCounterFamily

def empty : OptionalCounterFamily := ⟨.finite 0, false, false, []⟩

def invalidate (family : OptionalCounterFamily) : OptionalCounterFamily := { family with invalid := true }

/-- The sum with a counter value; it stays infinite or not a number once it is. -/
def addTo (ops : FloatOps) (value : ℚ) : Float64 → Float64
  | .finite total => ops.add total value
  | total => total

def isFinite : Float64 → Bool
  | .finite _ => true
  | _ => false

def observe (ops : FloatOps) (sample : ParsedSample) (family : OptionalCounterFamily) : OptionalCounterFamily :=
  let series := sample.labels.getD []
  match parseCounter ops sample.value with
  | none => family.invalidate
  | some value =>
      if series ∈ family.series then family.invalidate
      else
        let total := addTo ops value family.total
        { total := total, seen := true, invalid := family.invalid || !isFinite total,
          series := series :: family.series }

def finish (family : OptionalCounterFamily) : Option Float64 :=
  if family.seen && !family.invalid then some family.total else none

end OptionalCounterFamily

/-- The accumulators of one scrape. -/
structure MetricsParser where
  gauges : Gauge → RequiredGauge
  counters : Counter → OptionalSingleCounter
  completions : OptionalCounterFamily

/-- The gauges that have to be positive. -/
def Gauge.positive : Gauge → Bool
  | .capacity | .kvTotal => true
  | .running | .waiting | .kvUsed => false

namespace MetricsParser

def new : MetricsParser where
  gauges := fun gauge => .new (Metric.gauge gauge).name gauge.positive
  counters := fun _ => .empty
  completions := .empty

def setCounter (counter : Counter) (value : OptionalSingleCounter) (parser : MetricsParser) : MetricsParser :=
  { parser with counters := Function.update parser.counters counter value }

/-- A line of a recognised metric that is no sample. No result stands for an `unreachable!` arm. -/
def reject (metric : String) (line : Nat) (reason : String) (parser : MetricsParser) :
    Option (Except MetricsParseError MetricsParser) :=
  match Metric.ofName metric with
  | some (.counter counter) => some (.ok (parser.setCounter counter (parser.counters counter).invalidate))
  | some .completions => some (.ok { parser with completions := parser.completions.invalidate })
  | _ => (staticMetricName metric).map fun metric => .error (.malformedRequiredMetric metric line reason)

/-- A sample of a recognised metric. -/
def accept (ops : FloatOps) (sample : ParsedSample) (line : Nat) (parser : MetricsParser) :
    Option (Except MetricsParseError MetricsParser) :=
  match Metric.ofName (String.ofList sample.name) with
  | some (.gauge gauge) =>
      match (parser.gauges gauge).observe ops sample line with
      | .error error => some (.error error)
      | .ok observed => some (.ok { parser with gauges := Function.update parser.gauges gauge observed })
  | some (.counter counter) => some (.ok (parser.setCounter counter ((parser.counters counter).observe ops sample)))
  | some .completions => some (.ok { parser with completions := parser.completions.observe ops sample })
  | none => none

/-- The loop body, for a line that has been trimmed. -/
def feed (ops : FloatOps) (number : Nat) (line : List Char) (parser : MetricsParser) :
    Option (Except MetricsParseError MetricsParser) :=
  if line = [] ∨ line.head? = some '#' then some (.ok parser)
  else
    let metric := String.ofList (metricNamePrefix line)
    if !isRecognizedMetric metric then some (.ok parser)
    else
      match parseSampleLine line with
      | .error reason => parser.reject metric number reason
      | .ok sample => parser.accept ops sample number

/-- The loop over the numbered lines. -/
def feedAll (ops : FloatOps) : List (List Char × Nat) → MetricsParser → Option (Except MetricsParseError MetricsParser)
  | [], parser => some (.ok parser)
  | (line, number) :: rest, parser =>
      match parser.feed ops number line with
      | some (.ok next) => feedAll ops rest next
      | stopped => stopped

end MetricsParser

/-- The whole result of a scrape: what routing and drains read, and the completed sequences. -/
structure ParsedMetrics where
  metrics : MistralRsMetrics
  sequencesCompletedTotal : Option Float64
  deriving DecidableEq

/-- The end of `parse_mistralrs_metrics`. -/
def MetricsParser.finish (parser : MetricsParser) : Except MetricsParseError ParsedMetrics :=
  match (parser.gauges .running).required with
  | .error error => .error error
  | .ok sequencesRunning =>
      match (parser.gauges .waiting).required with
      | .error error => .error error
      | .ok sequencesWaiting =>
          let finished := fun kvCache : Option KvCacheMetrics =>
            { metrics :=
                { sequencesRunning := sequencesRunning
                  sequencesWaiting := sequencesWaiting
                  sequencesCapacity := (parser.gauges .capacity).value
                  kvCache := kvCache
                  tokensProcessedTotal := (parser.counters .tokens).finish
                  prefillTokensProcessedTotal := (parser.counters .prefillTokens).finish
                  decodeTokensProcessedTotal := (parser.counters .decodeTokens).finish }
              sequencesCompletedTotal := parser.completions.finish : ParsedMetrics }
          match (parser.gauges .kvUsed).value, (parser.gauges .kvTotal).value with
          | none, none => .ok (finished none)
          | some used, some total => .ok (finished (some ⟨used, total⟩))
          | none, some _ => .error (.incompleteKvCacheMetrics (Metric.gauge .kvUsed).name)
          | some _, none => .error (.incompleteKvCacheMetrics (Metric.gauge .kvTotal).name)

/-- `parse_mistralrs_metrics`; no result stands for an `unreachable!` arm. -/
def parseMistralrsMetrics (ops : FloatOps) (input : List Char) : Option (Except MetricsParseError ParsedMetrics) :=
  (MetricsParser.new.feedAll ops (((lines input).map trimText).zipIdx 1)).map fun
    | .error error => .error error
    | .ok parser => parser.finish

end MistralrsProxy
