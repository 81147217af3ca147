import Mathlib.Data.Finset.Card
import Mathlib.Data.List.MinMax
import Mathlib.Data.List.Sort
import Mathlib.Data.String.Basic
import MistralrsProxy.Grouping
import MistralrsProxy.Logs

/-! The summary of a log. Its totals and breakdowns are accumulated in one loop over the records; hash maps are
keyed tables and hash sets finite sets. The plain operators of the loop are traced. -/

open Machine Grouping Keyed

namespace MistralrsProxy

/-- The counts that every breakdown keeps of its rows. -/
structure Totals where
  requests : Nat := 0
  errors : Nat := 0
  inputTokens : Nat := 0
  outputTokens : Nat := 0
  cachedTokens : Nat := 0
  prefilledTokens : Nat := 0
  deriving DecidableEq, Repr

structure KeyTotals extends Totals where
  lastSeenUnixMs : Nat := 0
  openwebuiUsers : Nat := 0
  deriving DecidableEq, Repr

structure PathTotals extends Totals where
  deriving DecidableEq, Repr

structure Distribution where
  samples : Nat
  p50 : Nat
  p95 : Nat
  max : Nat
  deriving DecidableEq, Repr

structure BackendTotals extends Totals where
  queueMs : Distribution
  firstByteMs : Distribution
  latencyMs : Distribution
  deriving DecidableEq, Repr

structure BackendAccumulator extends Totals where
  queues : List Nat := []
  firstBytes : List Nat := []
  latencies : List Nat := []
  deriving DecidableEq, Repr

/-- The tokens of one record: `prefilled` is what the prefix cache did not hold. -/
structure TokenUsage where
  input : Nat
  output : Nat
  cached : Nat
  prefilled : Nat

def LogRecord.usage (record : LogRecord) : TokenUsage :=
  let input := record.inputTokens.getD 0
  let cached := record.cachedTokens.getD 0
  ⟨input, record.outputTokens.getD 0, cached, input - cached⟩

/-- Prefilled tokens count for the records that report their input. -/
def addPrefilled (record : LogRecord) (prefilled sum : Nat) : Nat :=
  if record.inputTokens.isSome then saturatingAdd sum prefilled else sum

/-- What each of the breakdowns adds for a record. -/
def Totals.add (totals : Totals) (record : LogRecord) (usage : TokenUsage) : Traced Totals := do
  let requests ← Traced.add totals.requests 1
  let errors ← Traced.add totals.errors record.isError.toNat
  pure
    { requests := requests
      errors := errors
      inputTokens := saturatingAdd totals.inputTokens usage.input
      outputTokens := saturatingAdd totals.outputTokens usage.output
      cachedTokens := saturatingAdd totals.cachedTokens usage.cached
      prefilledTokens := addPrefilled record usage.prefilled totals.prefilledTokens }

def addRequest (totals : KeyTotals) (record : LogRecord) (usage : TokenUsage) : Traced KeyTotals := do
  let sums ← totals.toTotals.add record usage
  pure { totals with toTotals := sums, lastSeenUnixMs := max totals.lastSeenUnixMs record.startedAtUnixMs }

def PathTotals.addRecord (totals : PathTotals) (record : LogRecord) (usage : TokenUsage) : Traced PathTotals := do
  let sums ← totals.toTotals.add record usage
  pure ⟨sums⟩

def BackendAccumulator.addRecord (backend : BackendAccumulator) (record : LogRecord) (usage : TokenUsage) :
    Traced BackendAccumulator := do
  let sums ← backend.toTotals.add record usage
  pure
    { toTotals := sums
      queues := backend.queues ++ record.proxyQueueMs.toList
      firstBytes := backend.firstBytes ++ record.timeToFirstByteMs.toList
      latencies := backend.latencies ++ [record.durationMs] }

/-- Nearest-rank percentile of a sorted list. -/
def percentile (sorted : List Nat) (percent : Nat) : Traced Nat :=
  if sorted = [] then pure 0
  else do
    let scaled ← Traced.mul sorted.length percent
    let quotient ← Traced.div scaled 100
    let rank := max (if scaled % 100 = 0 then quotient else quotient + 1) 1
    let index ← Traced.sub (min rank sorted.length) 1
    pure (sorted.getD index 0)

def Distribution.fromValues (values : List Nat) : Traced Distribution := do
  let sorted := values.insertionSort (· ≤ ·)
  let p50 ← percentile sorted 50
  let p95 ← percentile sorted 95
  pure ⟨sorted.length, p50, p95, sorted.getLast?.getD 0⟩

def BackendAccumulator.finish (backend : BackendAccumulator) : Traced BackendTotals := do
  let queueMs ← Distribution.fromValues backend.queues
  let firstByteMs ← Distribution.fromValues backend.firstBytes
  let latencyMs ← Distribution.fromValues backend.latencies
  pure ⟨backend.toTotals, queueMs, firstByteMs, latencyMs⟩

/-- The requests by what became of them. -/
structure Counters where
  authorized : Nat := 0
  rejected : Nat := 0
  incomplete : Nat := 0
  streaming : Nat := 0
  nonStreaming : Nat := 0
  informational : Nat := 0
  successful : Nat := 0
  redirected : Nat := 0
  clientErrors : Nat := 0
  serverErrors : Nat := 0
  noStatus : Nat := 0
  deriving DecidableEq, Repr

def countIf (condition : Bool) (count : Nat) : Traced Nat := if condition then Traced.add count 1 else pure count

/-- The status falls into the class of this hundred. -/
def LogRecord.inHundred (hundred : Nat) (record : LogRecord) : Bool := record.status.any (· / 100 == hundred)

/-- Everything that is neither of the classes 1 to 4 counts as a server error. -/
def LogRecord.isServerError (record : LogRecord) : Bool :=
  record.status.any fun status => !(status / 100 == 1 || status / 100 == 2 || status / 100 == 3 || status / 100 == 4)

def Counters.add (counters : Counters) (record : LogRecord) : Traced Counters := do
  let authorized ← countIf record.authorized counters.authorized
  let rejected ← countIf (!record.authorized) counters.rejected
  let incomplete ← countIf (!record.complete) counters.incomplete
  let streaming ← countIf record.streaming counters.streaming
  let nonStreaming ← countIf (!record.streaming && record.status.any (· < 400)) counters.nonStreaming
  let noStatus ← countIf record.status.isNone counters.noStatus
  let informational ← countIf (record.inHundred 1) counters.informational
  let successful ← countIf (record.inHundred 2) counters.successful
  let redirected ← countIf (record.inHundred 3) counters.redirected
  let clientErrors ← countIf (record.inHundred 4) counters.clientErrors
  let serverErrors ← countIf record.isServerError counters.serverErrors
  pure
    { authorized := authorized
      rejected := rejected
      incomplete := incomplete
      streaming := streaming
      nonStreaming := nonStreaming
      informational := informational
      successful := successful
      redirected := redirected
      clientErrors := clientErrors
      serverErrors := serverErrors
      noStatus := noStatus }

/-- The share of the prompt that came from the prefix cache, of a record that reports a prompt. -/
def cacheHit (record : LogRecord) (cached : Nat) : Traced (List Nat) :=
  match record.inputTokens.filter (0 < ·) with
  | none => pure []
  | some input => do
      let scaled ← Traced.mul 100 cached
      let share ← Traced.div scaled input
      pure [share]

/-- The microseconds per output token, of a record that generated any. -/
def outputRate (record : LogRecord) : Traced (List Nat) :=
  match record.outputTokens.filter (0 < ·) with
  | none => pure []
  | some tokens => do
      let rate ← Traced.div (saturatingMul record.durationMs 1000) tokens
      pure [rate]

/-- What the loop over the records accumulates. -/
structure Accumulators where
  counters : Counters := {}
  inputTokens : Nat := 0
  outputTokens : Nat := 0
  cachedTokens : Nat := 0
  prefilledTokens : Nat := 0
  responseBytes : Nat := 0
  keys : Groups String KeyTotals := Table.empty
  principals : Groups String KeyTotals := Table.empty
  keyUsers : Groups String (Finset String) := Table.empty
  paths : Groups String PathTotals := Table.empty
  backends : Groups String BackendAccumulator := Table.empty
  latencies : List Nat := []
  inputs : List Nat := []
  outputs : List Nat := []
  firstTokens : List Nat := []
  perToken : List Nat := []
  cacheHitPct : List Nat := []

/-- Update the row of this name, which starts out as the given one. -/
def updateRow {T : Type} (name : String) (zero : T) (update : T → Traced T) (groups : Groups String T) :
    Traced (Groups String T) := do
  let row ← update ((groups.value name).getD zero)
  pure (groups.set name row)

/-- Remember the forwarded user of a key. -/
def addUser (record : LogRecord) (keyUsers : Groups String (Finset String)) : Traced (Groups String (Finset String)) :=
  match record.openwebuiUser with
  | none => pure keyUsers
  | some user => updateRow record.keyBucket ∅ (fun users => pure (insert user users)) keyUsers

/-- Count a routed request for its backend. -/
def addRouted (record : LogRecord) (usage : TokenUsage) (backends : Groups String BackendAccumulator) :
    Traced (Groups String BackendAccumulator) :=
  match record.backendId with
  | none => pure backends
  | some backend => updateRow backend {} (BackendAccumulator.addRecord · record usage) backends

/-- One round of the loop. -/
def Accumulators.addRecord (openwebuiKeys : Finset String) (sums : Accumulators) (record : LogRecord) :
    Traced Accumulators := do
  let usage := record.usage
  let counters ← sums.counters.add record
  let cacheHitPct ← cacheHit record usage.cached
  let perToken ← outputRate record
  let keys ← updateRow record.keyBucket {} (addRequest · record usage) sums.keys
  let principals ← updateRow (record.principalBucket openwebuiKeys) {} (addRequest · record usage) sums.principals
  let keyUsers ← addUser record sums.keyUsers
  let paths ← updateRow record.path {} (PathTotals.addRecord · record usage) sums.paths
  let backends ← addRouted record usage sums.backends
  pure
    { counters := counters
      inputTokens := saturatingAdd sums.inputTokens usage.input
      outputTokens := saturatingAdd sums.outputTokens usage.output
      cachedTokens := saturatingAdd sums.cachedTokens usage.cached
      prefilledTokens := addPrefilled record usage.prefilled sums.prefilledTokens
      responseBytes := saturatingAdd sums.responseBytes record.responseBytes
      keys := keys
      principals := principals
      keyUsers := keyUsers
      paths := paths
      backends := backends
      latencies := sums.latencies ++ [record.durationMs]
      inputs := sums.inputs ++ record.inputTokens.toList
      outputs := sums.outputs ++ record.outputTokens.toList
      firstTokens := sums.firstTokens ++ (record.timeToFirstByteMs.filter fun _ => record.streaming).toList
      perToken := sums.perToken ++ perToken
      cacheHitPct := sums.cacheHitPct ++ cacheHitPct }

/-- Aggregate view of a set of records. -/
structure Summary extends Counters where
  requests : Nat
  inputTokens : Nat
  outputTokens : Nat
  cachedTokens : Nat
  prefilledTokens : Nat
  responseBytes : Nat
  firstAt : Option String
  lastAt : Option String
  inputTokensSeen : Distribution
  outputTokensSeen : Distribution
  cacheHitPctSeen : Distribution
  firstTokenMs : Distribution
  perOutputTokenUs : Distribution
  latencyMs : Distribution
  byKey : List (String × KeyTotals)
  byPrincipal : List (String × KeyTotals)
  openwebuiKeys : Finset String
  byPath : List (String × PathTotals)
  byBackend : List (String × BackendTotals)

/-- More requests first, then by name. -/
def rowLe {T : Type} (requests : T → Nat) (left right : String × T) : Prop :=
  requests right.2 < requests left.2 ∨ requests right.2 = requests left.2 ∧ left.1 ≤ right.1

instance {T : Type} (requests : T → Nat) : DecidableRel (rowLe requests) :=
  fun _ _ => inferInstanceAs (Decidable (_ ∨ _))

def sortedByRequests {T : Type} (requests : T → Nat) (rows : List (String × T)) : List (String × T) :=
  rows.insertionSort (rowLe requests)

/-- The keys that forwarded at least one Open WebUI user. -/
def openwebuiKeysOf (records : List LogRecord) : Finset String :=
  ((records.filter fun record => record.openwebuiUser.isSome).map LogRecord.keyBucket).toFinset

/-- The rows of the keys, with the number of their users. -/
def Accumulators.keyRows (sums : Accumulators) : List (String × KeyTotals) :=
  sums.keys.entries.map fun row =>
    match sums.keyUsers.value row.1 with
    | none => row
    | some users => (row.1, { row.2 with openwebuiUsers := users.card })

/-- The rows of the backends, with their distributions. -/
def Accumulators.backendRows (sums : Accumulators) : Traced (List (String × BackendTotals)) :=
  Traced.each (fun row => do
    let totals ← row.2.finish
    pure (row.1, totals)) sums.backends.entries

def accumulate (records : List LogRecord) : Traced Accumulators :=
  records.foldlM (Accumulators.addRecord (openwebuiKeysOf records)) {}

def summarize (records : List LogRecord) : Traced Summary := do
  let sums ← accumulate records
  let latencyMs ← Distribution.fromValues sums.latencies
  let inputTokensSeen ← Distribution.fromValues sums.inputs
  let outputTokensSeen ← Distribution.fromValues sums.outputs
  let cacheHitPctSeen ← Distribution.fromValues sums.cacheHitPct
  let firstTokenMs ← Distribution.fromValues sums.firstTokens
  let perOutputTokenUs ← Distribution.fromValues sums.perToken
  let backendRows ← sums.backendRows
  pure
    { toCounters := sums.counters
      requests := records.length
      inputTokens := sums.inputTokens
      outputTokens := sums.outputTokens
      cachedTokens := sums.cachedTokens
      prefilledTokens := sums.prefilledTokens
      responseBytes := sums.responseBytes
      firstAt := (records.argmin LogRecord.startedAtUnixMs).map LogRecord.startedAt
      lastAt := (records.reverse.argmax LogRecord.startedAtUnixMs).map LogRecord.startedAt
      inputTokensSeen := inputTokensSeen
      outputTokensSeen := outputTokensSeen
      cacheHitPctSeen := cacheHitPctSeen
      firstTokenMs := firstTokenMs
      perOutputTokenUs := perOutputTokenUs
      latencyMs := latencyMs
      byKey := sortedByRequests (·.requests) sums.keyRows
      byPrincipal := sortedByRequests (·.requests) sums.principals.entries
      openwebuiKeys := openwebuiKeysOf records
      byPath := sortedByRequests (·.requests) sums.paths.entries
      byBackend := sortedByRequests (·.requests) backendRows }

end MistralrsProxy
