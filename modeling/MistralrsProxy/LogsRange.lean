import MistralrsProxy.LogsConservation

/-! The arithmetic of a summary and of its printed form. Sums saturate and divisors are guarded, but the share of
the prefix cache multiplies before it divides, and the printed total of the tokens is a plain sum. -/

open Machine Grouping Keyed

namespace MistralrsProxy

/-- The hit rate of the prefix cache over all records. -/
def Summary.cacheHitPct (summary : Summary) : Traced (Option ℚ) :=
  if 0 < summary.cachedTokens ∧ 0 < summary.inputTokens then do
    let share ← Traced.ratio (100 * summary.cachedTokens) summary.inputTokens
    pure (some share)
  else pure none

/-- The numbers that the printed summary computes. -/
structure SummaryFigures where
  totalTokens : Nat
  cacheHitPct : Option ℚ
  shares : List ℚ

/-- Nothing is computed for an empty log; the layout of the lines is left out. -/
def summaryLines (summary : Summary) : Traced (Option SummaryFigures) :=
  if summary.requests = 0 then pure none
  else do
    let totalTokens ← Traced.add summary.inputTokens summary.outputTokens
    let cacheHitPct ← summary.cacheHitPct
    let routed ← summary.byBackend.foldlM (fun sum row => Traced.add sum row.2.requests) 0
    let shares ← Traced.each (fun row : String × BackendTotals =>
      if routed = 0 then pure 0 else Traced.ratio (row.2.requests * 100) routed) summary.byBackend
    pure (some ⟨totalTokens, cacheHitPct, shares⟩)

/-- No operation leaves the range, no divisor is zero, and every share is one of a hundred. -/
structure SummaryInRange (records : List LogRecord) : Prop where
  summarize : (summarize records).InRange
  lines : (summaryLines (MistralrsProxy.summarize records).value).InRange
  shares : ∀ sample ∈ (accumulate records).value.cacheHitPct, sample ≤ 100

/-- The cached tokens of no record with a prompt exceed the prompt by a hundredth of it, or a hundredth of the largest
64-bit number; and the tokens in and out add up to a 64-bit number, unless there are none of one kind. -/
structure CountsInRange (records : List LogRecord) : Prop where
  shares : ∀ record ∈ records, ∀ input, record.inputTokens = some input → 0 < input →
    100 * record.usage.cached ≤ u64Max ∧ 100 * record.usage.cached < 101 * input
  total : (records.map (·.usage.input)).sum + (records.map (·.usage.output)).sum ≤ u64Max ∨
    (records.map (·.usage.input)).sum = 0 ∨ (records.map (·.usage.output)).sum = 0

theorem countIf_inRange {condition : Bool} {count : Nat} (h : count < u64Max) : (countIf condition count).InRange := by
  unfold countIf
  split
  · exact Traced.inRange_add.mpr h
  · exact Traced.inRange_pure _

theorem Counters.add_inRange {records : List LogRecord} (h : records.length < u64Max) (record : LogRecord) :
    ((Counters.of records).add record).InRange := by
  have hcount : ∀ (p : LogRecord → Bool) (condition : Bool), (countIf condition (records.countP p)).InRange := by
    intro p condition
    exact countIf_inRange (Nat.lt_of_le_of_lt List.countP_le_length h)
  simp only [Counters.add, Traced.inRange_bind, Traced.inRange_pure, and_true]
  exact ⟨hcount _ _, hcount _ _, hcount _ _, hcount _ _, hcount _ _, hcount _ _, hcount _ _, hcount _ _, hcount _ _,
    hcount _ _, hcount _ _⟩

theorem Totals.add_inRange {records : List LogRecord} (h : records.length < u64Max) (record : LogRecord)
    (usage : TokenUsage) :
    ((Totals.total records).saturate.add record usage).InRange := by
  have hrequests : (Totals.total records).saturate.requests = records.length := Totals.total_requests records
  have herrors : (Totals.total records).saturate.errors ≤ records.length := Totals.total_errors_le records
  have hone := Bool.toNat_le record.isError
  simp only [Totals.add, Traced.inRange_bind, Traced.inRange_add, Traced.inRange_pure, and_true]
  omega

theorem cacheHit_inRange (record : LogRecord) : (cacheHit record record.usage.cached).InRange ↔
    ∀ input, record.inputTokens = some input → 0 < input → 100 * record.usage.cached ≤ u64Max := by
  unfold cacheHit
  cases hinput : record.inputTokens with
  | none => simp
  | some input =>
      by_cases hpositive : 0 < input
      · simp [Option.filter, hpositive, Nat.pos_iff_ne_zero.mp hpositive]
      · simp [Option.filter, hpositive]

theorem outputRate_inRange (record : LogRecord) : (outputRate record).InRange := by
  unfold outputRate
  cases houtput : record.outputTokens with
  | none => exact Traced.inRange_pure _
  | some tokens =>
      by_cases hpositive : 0 < tokens
      · simp [Option.filter, hpositive, Nat.pos_iff_ne_zero.mp hpositive]
      · simp [Option.filter, hpositive]

theorem updateRow_inRange {T : Type} {key : LogRecord → Option String} {total : List LogRecord → T} {zero : T}
    {update : T → Traced T} {records : List LogRecord} {groups : Groups String T} (name : String)
    (h : Groups.GroupedBy key total records groups) (hzero : total [] = zero)
    (hupdate : ∀ rows : List LogRecord, rows.Sublist records → (update (total rows)).InRange) :
    (updateRow name zero update groups).InRange := by
  simp only [updateRow, Traced.inRange_bind, Traced.inRange_pure, and_true]
  rw [h.getD hzero]
  exact hupdate _ List.filter_sublist

/-- A round of the loop can only fail at the share of the prefix cache. -/
theorem Accumulated.addRecord_inRange {openwebuiKeys : Finset String} {records : List LogRecord} {sums : Accumulators}
    (h : Accumulated openwebuiKeys records sums) (hlength : records.length < u64Max) (record : LogRecord) :
    (sums.addRecord openwebuiKeys record).InRange ↔ (cacheHit record record.usage.cached).InRange := by
  have hshort : ∀ rows : List LogRecord, rows.Sublist records → rows.length < u64Max :=
    fun rows hrows => Nat.lt_of_le_of_lt hrows.length_le hlength
  have hcounters : (sums.counters.add record).InRange := by
    rw [h.counters]
    exact Counters.add_inRange hlength record
  have hrow : ∀ rows : List LogRecord, rows.Sublist records →
      (addRequest (KeyTotals.of rows) record record.usage).InRange := by
    intro rows hrows
    simp only [addRequest, Traced.inRange_bind, Traced.inRange_pure, and_true]
    exact Totals.add_inRange (hshort rows hrows) record record.usage
  have hkeys : (updateRow record.keyBucket {} (addRequest · record record.usage) sums.keys).InRange :=
    updateRow_inRange _ h.keys rfl hrow
  have hprincipals : (updateRow (record.principalBucket openwebuiKeys) {} (addRequest · record record.usage)
      sums.principals).InRange := updateRow_inRange _ h.principals rfl hrow
  have husers : (addUser record sums.keyUsers).InRange := by
    unfold addUser
    cases record.openwebuiUser with
    | none => exact Traced.inRange_pure _
    | some user => exact updateRow_inRange _ h.keyUsers rfl fun _ _ => Traced.inRange_pure _
  have hpaths : (updateRow record.path {} (PathTotals.addRecord · record record.usage) sums.paths).InRange := by
    refine updateRow_inRange _ h.paths rfl fun rows hrows => ?_
    simp only [PathTotals.addRecord, Traced.inRange_bind, Traced.inRange_pure, and_true]
    exact Totals.add_inRange (hshort rows hrows) record record.usage
  have hbackends : (addRouted record record.usage sums.backends).InRange := by
    unfold addRouted
    cases record.backendId with
    | none => exact Traced.inRange_pure _
    | some backend =>
        refine updateRow_inRange _ h.backends rfl fun rows hrows => ?_
        simp only [BackendAccumulator.addRecord, Traced.inRange_bind, Traced.inRange_pure, and_true]
        exact Totals.add_inRange (hshort rows hrows) record record.usage
  simp only [Accumulators.addRecord, Traced.inRange_bind, Traced.inRange_pure, and_true, hcounters, hkeys, hprincipals,
    husers, hpaths, hbackends, outputRate_inRange, true_and]

theorem accumulate_inRange {records : List LogRecord} (hlength : records.length ≤ u64Max) :
    (accumulate records).InRange ↔ ∀ record ∈ records, (cacheHit record record.usage.cached).InRange := by
  have hround : ∀ before record after, records = before ++ record :: after →
      ((((before.foldl (fun sums record => (sums.addRecord (openwebuiKeysOf records) record).value) {} :
        Accumulators).addRecord (openwebuiKeysOf records) record).InRange ↔
          (cacheHit record record.usage.cached).InRange)) := by
    intro before record after hrecords
    have hbefore := congrArg List.length hrecords
    rw [List.length_append, List.length_cons] at hbefore
    exact (foldl_accumulated _ before (by omega)).addRecord_inRange (by omega) record
  rw [accumulate, Traced.inRange_foldlM]
  constructor
  · intro h record hmem
    obtain ⟨before, after, hrecords⟩ := List.append_of_mem hmem
    exact (hround before record after hrecords).mp (h before record after hrecords)
  · intro h before record after hrecords
    refine (hround before record after hrecords).mpr (h record ?_)
    rw [hrecords]
    exact List.mem_append_right _ List.mem_cons_self

theorem percentile_inRange {sorted : List Nat} {percent : Nat} (h : sorted.length * percent ≤ u64Max) :
    (percentile sorted percent).InRange := by
  unfold percentile
  split
  · exact Traced.inRange_pure _
  · rename_i hne
    have hlength : 0 < sorted.length := List.length_pos_of_ne_nil hne
    simp only [Traced.inRange_bind, Traced.inRange_mul, Traced.inRange_div, Traced.inRange_sub, Traced.inRange_pure,
      and_true]
    exact ⟨h, by decide, by omega⟩

theorem Distribution.fromValues_inRange {values : List Nat} (h : values.length * 100 ≤ u64Max) :
    (Distribution.fromValues values).InRange := by
  have hlength : (values.insertionSort (· ≤ ·)).length = values.length := List.length_insertionSort _ values
  simp only [Distribution.fromValues, Traced.inRange_bind, Traced.inRange_pure, and_true]
  refine ⟨percentile_inRange ?_, percentile_inRange ?_⟩
  · rw [hlength]
    omega
  · rw [hlength]
    omega

theorem length_flatMap_le {f : LogRecord → List Nat} (h : ∀ record, (f record).length ≤ 1) (records : List LogRecord) :
    (records.flatMap f).length ≤ records.length := by
  induction records with
  | nil => exact Nat.le_refl _
  | cons record records ih =>
      have := h record
      rw [List.flatMap_cons, List.length_append, List.length_cons]
      omega

theorem outputRate_length (record : LogRecord) : (outputRate record).value.length ≤ 1 := by
  unfold outputRate
  split <;> simp

theorem cacheHit_length (record : LogRecord) (cached : Nat) : (cacheHit record cached).value.length ≤ 1 := by
  unfold cacheHit
  split <;> simp

/-- The distributions of a summary have no more samples than there are records. -/
theorem summarize_inRange (slice : RecordSlice) :
    (summarize slice.records).InRange ↔ ∀ record ∈ slice.records, (cacheHit record record.usage.cached).InRange := by
  have hslice := slice.length_le
  have hlength : slice.records.length ≤ u64Max := by omega
  have h := accumulate_accumulated hlength
  have hdistribution : ∀ values : List Nat, values.length ≤ slice.records.length →
      (Distribution.fromValues values).InRange :=
    fun values hvalues => Distribution.fromValues_inRange (by omega)
  have hlatencies : (Distribution.fromValues (accumulate slice.records).value.latencies).InRange := by
    rw [h.latencies]
    exact hdistribution _ (by rw [List.length_map])
  have hinputs : (Distribution.fromValues (accumulate slice.records).value.inputs).InRange := by
    rw [h.inputs]
    exact hdistribution _ (List.length_filterMap_le _ _)
  have houtputs : (Distribution.fromValues (accumulate slice.records).value.outputs).InRange := by
    rw [h.outputs]
    exact hdistribution _ (List.length_filterMap_le _ _)
  have hhits : (Distribution.fromValues (accumulate slice.records).value.cacheHitPct).InRange := by
    rw [h.cacheHitPct]
    exact hdistribution _ (length_flatMap_le (fun record => cacheHit_length record _) _)
  have htokens : (Distribution.fromValues (accumulate slice.records).value.firstTokens).InRange := by
    rw [h.firstTokens]
    exact hdistribution _ (List.length_filterMap_le _ _)
  have hrates : (Distribution.fromValues (accumulate slice.records).value.perToken).InRange := by
    rw [h.perToken]
    exact hdistribution _ (length_flatMap_le outputRate_length _)
  have hbackends : (accumulate slice.records).value.backendRows.InRange := by
    rw [Accumulators.backendRows, Traced.inRange_each]
    rintro ⟨name, backend⟩ hmem
    obtain ⟨_, rfl⟩ := h.backends.mem_iff.mp hmem
    have hrows := List.length_filter_le (fun record => decide (record.backendId = some name)) slice.records
    simp only [BackendAccumulator.finish, BackendAccumulator.of, Traced.inRange_bind, Traced.inRange_pure, and_true]
    refine ⟨hdistribution _ ?_, hdistribution _ ?_, hdistribution _ ?_⟩
    · exact (List.length_filterMap_le _ _).trans hrows
    · exact (List.length_filterMap_le _ _).trans hrows
    · rw [List.length_map]
      exact hrows
  simp only [summarize, Traced.inRange_bind, Traced.inRange_pure, and_true, hlatencies, hinputs, houtputs, hhits,
    htokens, hrates, hbackends, accumulate_inRange hlength]

theorem cacheHitPct_inRange (summary : Summary) : summary.cacheHitPct.InRange := by
  unfold Summary.cacheHitPct
  split
  · rename_i hpositive
    simp [Nat.pos_iff_ne_zero.mp hpositive.2]
  · exact Traced.inRange_pure _

/-- The routed requests are no more than all requests. -/
theorem sum_byBackend_le {records : List LogRecord} (hlength : records.length ≤ u64Max) :
    ((summarize records).value.byBackend.map (·.2.requests)).sum ≤ records.length := by
  have hones : ∀ rows : List LogRecord, (rows.map fun _ => 1).sum = rows.length := by
    intro rows
    simp
  have hrows : ∀ rows : List LogRecord, rows.Sublist records →
      (BackendAccumulator.of rows).requests = (rows.map fun _ => 1).sum := by
    intro rows _
    have hrequests : (BackendAccumulator.of rows).requests = rows.length := Totals.total_requests rows
    rw [hrequests, hones]
  have hsum := (accumulate_accumulated hlength).backends.sum (·.requests) (fun _ => 1) hrows
  have hbackends : ((summarize records).value.byBackend.map (·.2.requests)).sum =
      ((accumulate records).value.backends.entries.map (·.2.requests)).sum := by
    rw [summarize_value, sum_sortedByRequests, Accumulators.backendRows_value, List.map_map]
    rfl
  rw [hbackends, hsum, hones]
  exact List.length_filter_le _ _

/-- The printed summary can only fail at the total of the tokens. -/
theorem summaryLines_inRange {records : List LogRecord} (hlength : records.length ≤ u64Max) :
    (summaryLines (summarize records).value).InRange ↔
      (records.map (·.usage.input)).sum + (records.map (·.usage.output)).sum ≤ u64Max ∨
        (records.map (·.usage.input)).sum = 0 ∨ (records.map (·.usage.output)).sum = 0 := by
  have h := accumulate_accumulated hlength
  have hinput : (summarize records).value.inputTokens = min (records.map (·.usage.input)).sum u64Max :=
    h.inputTokens.trans (congrArg (min · u64Max)
      (TokensFit.total_field Totals.inputTokens rfl (fun _ _ => rfl) records))
  have houtput : (summarize records).value.outputTokens = min (records.map (·.usage.output)).sum u64Max :=
    h.outputTokens.trans (congrArg (min · u64Max)
      (TokensFit.total_field Totals.outputTokens rfl (fun _ _ => rfl) records))
  have hrouted : ((summarize records).value.byBackend.foldlM
      (fun sum row => Traced.add sum row.2.requests) 0).InRange := by
    refine Traced.inRange_sum (fun row : String × BackendTotals => row.2.requests) _ 0 ?_
    rw [Nat.zero_add]
    exact (sum_byBackend_le hlength).trans hlength
  have hshares : ∀ routed : Nat, (Traced.each (fun row : String × BackendTotals =>
      if routed = 0 then pure 0 else Traced.ratio (row.2.requests * 100) routed)
        (summarize records).value.byBackend).InRange := by
    intro routed
    rw [Traced.inRange_each]
    intro row _
    split
    · exact Traced.inRange_pure _
    · rename_i hrouted
      exact Traced.inRange_ratio.mpr hrouted
  unfold summaryLines
  split
  · rename_i hempty
    have hempty : records = [] := List.length_eq_zero_iff.mp hempty
    rw [hempty]
    simp
  · simp only [Traced.inRange_bind, Traced.inRange_add, Traced.inRange_pure, cacheHitPct_inRange, hrouted, hshares,
      and_true, hinput, houtput]
    have hmax : 0 < u64Max := by decide
    omega

/-- The share of a record is at most a hundred exactly if its cached tokens exceed its prompt by less than a
hundredth of it. -/
theorem cacheHit_le_iff {record : LogRecord} (h : (cacheHit record record.usage.cached).InRange) :
    (∀ sample ∈ (cacheHit record record.usage.cached).value, sample ≤ 100) ↔
      ∀ input, record.inputTokens = some input → 0 < input → 100 * record.usage.cached < 101 * input := by
  have hfits := (cacheHit_inRange record).mp h
  unfold cacheHit
  cases hinput : record.inputTokens with
  | none => simp
  | some input =>
      by_cases hpositive : 0 < input
      · have hscaled : (Traced.mul 100 record.usage.cached).value = 100 * record.usage.cached :=
          Traced.mul_value (hfits input hinput hpositive)
        have hshare : 100 * record.usage.cached / input ≤ 100 ↔ 100 * record.usage.cached < 101 * input := by
          rw [← Nat.div_lt_iff_lt_mul hpositive]
          omega
        simp only [Option.filter, hpositive, decide_true, if_true, Traced.bind_value, Traced.pure_value, hscaled,
          List.mem_singleton, forall_eq, Option.some.injEq, forall_eq', true_imp_iff]
        exact hshare
      · simp [Option.filter, hpositive]

/-- Every operation of a summary stays in range and every share is one of a hundred exactly if the counts of the
records are in range. -/
theorem summary_stays_in_range (slice : RecordSlice) : SummaryInRange slice.records ↔ CountsInRange slice.records := by
  have hlength : slice.records.length ≤ u64Max := by
    have := slice.length_le
    omega
  have hsamples := (accumulate_accumulated hlength).cacheHitPct
  constructor
  · rintro ⟨hsummarize, hlines, hshares⟩
    refine ⟨?_, (summaryLines_inRange hlength).mp hlines⟩
    intro record hmem input hinput hpositive
    have hrecord := (summarize_inRange slice).mp hsummarize record hmem
    refine ⟨(cacheHit_inRange record).mp hrecord input hinput hpositive,
      (cacheHit_le_iff hrecord).mp ?_ input hinput hpositive⟩
    intro sample hsample
    apply hshares sample
    rw [hsamples]
    exact List.mem_flatMap.mpr ⟨record, hmem, hsample⟩
  · rintro ⟨hshares, htotal⟩
    have hrecords : ∀ record ∈ slice.records, (cacheHit record record.usage.cached).InRange :=
      fun record hmem => (cacheHit_inRange record).mpr fun input hinput hpositive =>
        (hshares record hmem input hinput hpositive).1
    refine ⟨(summarize_inRange slice).mpr hrecords, (summaryLines_inRange hlength).mpr htotal, ?_⟩
    intro sample hsample
    rw [hsamples] at hsample
    obtain ⟨record, hmem, hsample⟩ := List.mem_flatMap.mp hsample
    exact (cacheHit_le_iff (hrecords record hmem)).mpr
      (fun input hinput hpositive => (hshares record hmem input hinput hpositive).2) sample hsample

/-- An upstream that reports more cached tokens than fit a hundredfold. -/
def oversizedRecords : RecordSlice where
  records := [{ inputTokens := some 1, cachedTokens := some (2 ^ 63) }]
  allocated := by decide

theorem summary_leaves_the_range : ¬SummaryInRange oversizedRecords.records := by
  intro h
  have hmul : Operation.mul 100 (2 ^ 63) ∈ (summarize oversizedRecords.records).operations := by decide +kernel
  have hfits : 100 * 2 ^ 63 ≤ u64Max := h.summarize _ hmul
  exact absurd hfits (by decide)

end MistralrsProxy
