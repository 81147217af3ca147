import MistralrsProxy.LogsSummary

/-! What the loop of the summary has accumulated after some records, in closed form; from this the totals of a
summary agree with those of its breakdowns. -/

open Machine Grouping Keyed

namespace MistralrsProxy

namespace Totals

instance : Zero Totals := ⟨{}⟩

instance : Add Totals where
  add left right :=
    { requests := left.requests + right.requests
      errors := left.errors + right.errors
      inputTokens := left.inputTokens + right.inputTokens
      outputTokens := left.outputTokens + right.outputTokens
      cachedTokens := left.cachedTokens + right.cachedTokens
      prefilledTokens := left.prefilledTokens + right.prefilledTokens }

theorem add_def (left right : Totals) : left + right =
    { requests := left.requests + right.requests
      errors := left.errors + right.errors
      inputTokens := left.inputTokens + right.inputTokens
      outputTokens := left.outputTokens + right.outputTokens
      cachedTokens := left.cachedTokens + right.cachedTokens
      prefilledTokens := left.prefilledTokens + right.prefilledTokens } := rfl

instance : AddCommMonoid Totals where
  add_assoc := fun first second third => by simp only [add_def, Nat.add_assoc]
  zero_add := fun totals => by
    have hzero : (0 : Totals) = ⟨0, 0, 0, 0, 0, 0⟩ := rfl
    simp only [hzero, add_def, Nat.zero_add]
  add_zero := fun _ => rfl
  add_comm := fun left right => by simp only [add_def, Nat.add_comm]
  nsmul := nsmulRec

/-- What one record counts for. -/
def single (record : LogRecord) : Totals where
  requests := 1
  errors := record.isError.toNat
  inputTokens := record.usage.input
  outputTokens := record.usage.output
  cachedTokens := record.usage.cached
  prefilledTokens := record.usage.prefilled

def total (records : List LogRecord) : Totals := (records.map single).sum

/-- Token sums stop at the largest 64-bit number. -/
def saturate (totals : Totals) : Totals :=
  { totals with
    inputTokens := min totals.inputTokens u64Max
    outputTokens := min totals.outputTokens u64Max
    cachedTokens := min totals.cachedTokens u64Max
    prefilledTokens := min totals.prefilledTokens u64Max }

theorem total_append_singleton (records : List LogRecord) (record : LogRecord) :
    total (records ++ [record]) = total records + single record := by
  simp [total]

theorem total_requests (records : List LogRecord) : (total records).requests = records.length := by
  induction records with
  | nil => rfl
  | cons record records ih =>
      have hcons : (total (record :: records)).requests = 1 + (total records).requests := rfl
      rw [hcons, ih, List.length_cons, Nat.add_comm]

theorem total_errors_le (records : List LogRecord) : (total records).errors ≤ records.length := by
  induction records with
  | nil => exact Nat.le_refl _
  | cons record records ih =>
      have hcons : (total (record :: records)).errors = record.isError.toNat + (total records).errors := rfl
      have hone := Bool.toNat_le record.isError
      rw [hcons, List.length_cons]
      omega

/-- A record without input tokens has nothing to prefill. -/
theorem addPrefilled_usage (record : LogRecord) {sum : Nat} (h : sum ≤ u64Max) :
    addPrefilled record record.usage.prefilled sum = saturatingAdd sum record.usage.prefilled := by
  unfold addPrefilled
  cases hinput : record.inputTokens with
  | none =>
      have hzero : record.usage.prefilled = 0 := by simp [LogRecord.usage, hinput]
      rw [hzero, saturatingAdd, Nat.add_zero, Nat.min_eq_left h]
      rfl
  | some input => rfl

/-- Adding a record to the totals of others. -/
theorem add_value {records : List LogRecord} (h : records.length < u64Max) (record : LogRecord) :
    ((total records).saturate.add record record.usage).value = (total (records ++ [record])).saturate := by
  have hrequests : (total records).saturate.requests + 1 ≤ u64Max := by
    have := total_requests records
    change (total records).requests + 1 ≤ u64Max
    omega
  have herrors : (total records).saturate.errors + record.isError.toNat ≤ u64Max := by
    have := total_errors_le records
    have := Bool.toNat_le record.isError
    change (total records).errors + record.isError.toNat ≤ u64Max
    omega
  have hprefilled : (total records).saturate.prefilledTokens ≤ u64Max := Nat.min_le_right _ _
  rw [total_append_singleton]
  simp only [add, Traced.bind_value, Traced.pure_value, Traced.add_value hrequests, Traced.add_value herrors,
    addPrefilled_usage record hprefilled]
  simp only [saturate, add_def, single, saturatingAdd, Totals.mk.injEq, true_and]
  omega

/-- While the token sums fit, nothing is saturated. -/
theorem saturate_of_fits {totals : Totals} (hinput : totals.inputTokens ≤ u64Max)
    (houtput : totals.outputTokens ≤ u64Max) (hcached : totals.cachedTokens ≤ u64Max)
    (hprefilled : totals.prefilledTokens ≤ u64Max) :
    totals.saturate = totals := by
  simp only [saturate, Nat.min_eq_left, hinput, houtput, hcached, hprefilled]

end Totals

theorem countIf_value (p : LogRecord → Bool) {records : List LogRecord} (h : records.length < u64Max)
    (record : LogRecord) :
    (countIf (p record) (records.countP p)).value = (records ++ [record]).countP p := by
  have hcount : records.countP p + 1 ≤ u64Max := by
    have : records.countP p ≤ records.length := List.countP_le_length
    omega
  rw [List.countP_append, List.countP_singleton, countIf]
  split
  · exact Traced.add_value hcount
  · rfl

def Counters.of (records : List LogRecord) : Counters where
  authorized := records.countP (·.authorized)
  rejected := records.countP (!·.authorized)
  incomplete := records.countP (!·.complete)
  streaming := records.countP (·.streaming)
  nonStreaming := records.countP fun record => !record.streaming && record.status.any (· < 400)
  informational := records.countP (·.inHundred 1)
  successful := records.countP (·.inHundred 2)
  redirected := records.countP (·.inHundred 3)
  clientErrors := records.countP (·.inHundred 4)
  serverErrors := records.countP (·.isServerError)
  noStatus := records.countP (·.status.isNone)

theorem Counters.add_value {records : List LogRecord} (h : records.length < u64Max) (record : LogRecord) :
    ((Counters.of records).add record).value = Counters.of (records ++ [record]) := by
  simp only [Counters.add, Counters.of, Traced.bind_value, Traced.pure_value, Counters.mk.injEq]
  exact ⟨countIf_value _ h record, countIf_value (!·.authorized) h record, countIf_value (!·.complete) h record,
    countIf_value _ h record,
    countIf_value (fun record => !record.streaming && record.status.any (· < 400)) h record, countIf_value _ h record,
    countIf_value _ h record, countIf_value _ h record, countIf_value _ h record, countIf_value _ h record,
    countIf_value (fun record => record.status.isNone) h record⟩

/-- The rows of the breakdowns by key and by principal. -/
def KeyTotals.of (records : List LogRecord) : KeyTotals where
  toTotals := (Totals.total records).saturate
  lastSeenUnixMs := (records.map LogRecord.startedAtUnixMs).foldl max 0
  openwebuiUsers := 0

theorem addRequest_value {records : List LogRecord} (h : records.length < u64Max) (record : LogRecord) :
    (addRequest (KeyTotals.of records) record record.usage).value = KeyTotals.of (records ++ [record]) := by
  have htotals := Totals.add_value h record
  simp only [addRequest, KeyTotals.of, Traced.bind_value, Traced.pure_value, htotals, List.map_append, List.map_cons,
    List.map_nil, List.foldl_append, List.foldl_cons, List.foldl_nil]

def PathTotals.of (records : List LogRecord) : PathTotals := ⟨(Totals.total records).saturate⟩

theorem PathTotals.addRecord_value {records : List LogRecord} (h : records.length < u64Max) (record : LogRecord) :
    ((PathTotals.of records).addRecord record record.usage).value = PathTotals.of (records ++ [record]) := by
  have htotals := Totals.add_value h record
  simp only [PathTotals.addRecord, PathTotals.of, Traced.bind_value, Traced.pure_value, htotals]

def BackendAccumulator.of (records : List LogRecord) : BackendAccumulator where
  toTotals := (Totals.total records).saturate
  queues := records.filterMap LogRecord.proxyQueueMs
  firstBytes := records.filterMap LogRecord.timeToFirstByteMs
  latencies := records.map LogRecord.durationMs

theorem filterMap_append_singleton {α β : Type} (f : α → Option β) (items : List α) (item : α) :
    (items ++ [item]).filterMap f = items.filterMap f ++ (f item).toList := by
  rw [List.filterMap_append]
  cases hitem : f item <;> simp [hitem]

theorem BackendAccumulator.addRecord_value {records : List LogRecord} (h : records.length < u64Max)
    (record : LogRecord) :
    ((BackendAccumulator.of records).addRecord record record.usage).value =
      BackendAccumulator.of (records ++ [record]) := by
  have htotals := Totals.add_value h record
  simp only [BackendAccumulator.addRecord, BackendAccumulator.of, Traced.bind_value, Traced.pure_value, htotals,
    filterMap_append_singleton, List.map_append, List.map_cons, List.map_nil]

/-- The users that were forwarded. -/
def usersOf (records : List LogRecord) : Finset String := (records.filterMap LogRecord.openwebuiUser).toFinset

/-- The key of a record with a forwarded user. -/
def LogRecord.userKey (record : LogRecord) : Option String := record.openwebuiUser.map fun _ => record.keyBucket

/-- What the loop holds after these records. -/
structure Accumulated (openwebuiKeys : Finset String) (records : List LogRecord) (sums : Accumulators) : Prop where
  counters : sums.counters = Counters.of records
  inputTokens : sums.inputTokens = (Totals.total records).saturate.inputTokens
  outputTokens : sums.outputTokens = (Totals.total records).saturate.outputTokens
  cachedTokens : sums.cachedTokens = (Totals.total records).saturate.cachedTokens
  prefilledTokens : sums.prefilledTokens = (Totals.total records).saturate.prefilledTokens
  responseBytes : sums.responseBytes = min (records.map LogRecord.responseBytes).sum u64Max
  keys : Groups.GroupedBy (fun record => some record.keyBucket) KeyTotals.of records sums.keys
  principals : Groups.GroupedBy (fun record => some (record.principalBucket openwebuiKeys)) KeyTotals.of records
    sums.principals
  keyUsers : Groups.GroupedBy LogRecord.userKey usersOf records sums.keyUsers
  paths : Groups.GroupedBy (fun record => some record.path) PathTotals.of records sums.paths
  backends : Groups.GroupedBy LogRecord.backendId BackendAccumulator.of records sums.backends
  latencies : sums.latencies = records.map LogRecord.durationMs
  inputs : sums.inputs = records.filterMap LogRecord.inputTokens
  outputs : sums.outputs = records.filterMap LogRecord.outputTokens
  firstTokens : sums.firstTokens =
    records.filterMap fun record => record.timeToFirstByteMs.filter fun _ => record.streaming
  perToken : sums.perToken = records.flatMap fun record => (outputRate record).value
  cacheHitPct : sums.cacheHitPct = records.flatMap fun record => (cacheHit record record.usage.cached).value

theorem accumulated_nil (openwebuiKeys : Finset String) : Accumulated openwebuiKeys [] {} where
  counters := rfl
  inputTokens := rfl
  outputTokens := rfl
  cachedTokens := rfl
  prefilledTokens := rfl
  responseBytes := rfl
  keys := Groups.groupedBy_nil
  principals := Groups.groupedBy_nil
  keyUsers := Groups.groupedBy_nil
  paths := Groups.groupedBy_nil
  backends := Groups.groupedBy_nil
  latencies := rfl
  inputs := rfl
  outputs := rfl
  firstTokens := rfl
  perToken := rfl
  cacheHitPct := rfl

/-- A record is added to the row of its name. -/
theorem updateRow_groupedBy {T : Type} {key : LogRecord → Option String} {total : List LogRecord → T} {zero : T}
    {update : T → Traced T} {records : List LogRecord} {groups : Groups String T} {record : LogRecord} {name : String}
    (h : Groups.GroupedBy key total records groups) (hkey : key record = some name) (hzero : total [] = zero)
    (hupdate : ∀ rows : List LogRecord, rows.Sublist records → (update (total rows)).value = total (rows ++ [record])) :
    Groups.GroupedBy key total (records ++ [record]) (updateRow name zero update groups).value := by
  simp only [updateRow, Traced.bind_value, Traced.pure_value]
  apply h.add hkey
  rw [h.getD hzero]
  exact hupdate _ List.filter_sublist

theorem usersOf_append_singleton {record : LogRecord} {user : String} (h : record.openwebuiUser = some user)
    (records : List LogRecord) : insert user (usersOf records) = usersOf (records ++ [record]) := by
  ext name
  rw [usersOf, usersOf, filterMap_append_singleton, h, Finset.mem_insert, List.mem_toFinset, List.mem_toFinset,
    List.mem_append]
  simp [or_comm]

/-- One round of the loop. -/
theorem Accumulated.addRecord {openwebuiKeys : Finset String} {records : List LogRecord} {sums : Accumulators}
    (h : Accumulated openwebuiKeys records sums) (hlength : records.length < u64Max) (record : LogRecord) :
    Accumulated openwebuiKeys (records ++ [record]) (sums.addRecord openwebuiKeys record).value := by
  have htotals := Totals.add_value hlength record
  have hshort : ∀ rows : List LogRecord, rows.Sublist records → rows.length < u64Max :=
    fun rows hrows => Nat.lt_of_le_of_lt hrows.length_le hlength
  have hinput := congrArg Totals.inputTokens htotals
  have houtput := congrArg Totals.outputTokens htotals
  have hcached := congrArg Totals.cachedTokens htotals
  have hprefilled := congrArg Totals.prefilledTokens htotals
  refine ⟨?_, ?_, ?_, ?_, ?_, ?_, ?_, ?_, ?_, ?_, ?_, ?_, ?_, ?_, ?_, ?_, ?_⟩ <;>
    simp only [Accumulators.addRecord, Traced.bind_value, Traced.pure_value]
  · rw [h.counters, Counters.add_value hlength record]
  · rw [h.inputTokens]
    exact hinput
  · rw [h.outputTokens]
    exact houtput
  · rw [h.cachedTokens]
    exact hcached
  · rw [h.prefilledTokens]
    exact hprefilled
  · rw [h.responseBytes, List.map_append, List.sum_append, saturatingAdd]
    simp only [List.map_cons, List.map_nil, List.sum_cons, List.sum_nil]
    omega
  · exact updateRow_groupedBy h.keys rfl rfl fun rows hrows => addRequest_value (hshort rows hrows) record
  · exact updateRow_groupedBy h.principals rfl rfl fun rows hrows => addRequest_value (hshort rows hrows) record
  · unfold addUser
    cases huser : record.openwebuiUser with
    | none => exact h.keyUsers.skip (by rw [LogRecord.userKey, huser]; rfl)
    | some user =>
        apply updateRow_groupedBy h.keyUsers (by rw [LogRecord.userKey, huser]; rfl) rfl
        intro rows _
        exact usersOf_append_singleton huser rows
  · exact updateRow_groupedBy h.paths rfl rfl fun rows hrows => PathTotals.addRecord_value (hshort rows hrows) record
  · unfold addRouted
    cases hbackend : record.backendId with
    | none => exact h.backends.skip hbackend
    | some backend =>
        exact updateRow_groupedBy h.backends hbackend rfl fun rows hrows =>
          BackendAccumulator.addRecord_value (hshort rows hrows) record
  · rw [h.latencies, List.map_append]
    rfl
  · rw [h.inputs, filterMap_append_singleton]
  · rw [h.outputs, filterMap_append_singleton]
  · rw [h.firstTokens, filterMap_append_singleton]
  · rw [h.perToken, List.flatMap_append, List.flatMap_singleton]
  · rw [h.cacheHitPct, List.flatMap_append, List.flatMap_singleton]

theorem foldl_accumulated (openwebuiKeys : Finset String) (records : List LogRecord) (h : records.length ≤ u64Max) :
    Accumulated openwebuiKeys records
      (records.foldl (fun sums record => (sums.addRecord openwebuiKeys record).value) {}) := by
  induction records using List.reverseRecOn with
  | nil => exact accumulated_nil openwebuiKeys
  | append_singleton records record ih =>
      rw [List.length_append, List.length_singleton] at h
      rw [List.foldl_append, List.foldl_cons, List.foldl_nil]
      exact (ih (by omega)).addRecord (by omega) record

theorem accumulate_accumulated {records : List LogRecord} (h : records.length ≤ u64Max) :
    Accumulated (openwebuiKeysOf records) records (accumulate records).value := by
  rw [accumulate, Traced.foldlM_value]
  exact foldl_accumulated _ records h

end MistralrsProxy
