import Mathlib.Tactic.IntervalCases
import MistralrsProxy.LogsTotals

/-! A summary and its breakdowns: sums over the rows are the overall sums, and neither depends on the order of
the records. -/

open Machine Grouping Keyed

namespace MistralrsProxy

/-- A slice of records. Their twenty texts alone take 480 bytes each, and no allocation is larger than
`isize::MAX` bytes. -/
structure RecordSlice where
  records : List LogRecord
  allocated : records.length * 480 ≤ isizeMax

theorem RecordSlice.length_le (slice : RecordSlice) : slice.records.length * 100 ≤ u64Max := by
  have hallocated := slice.allocated
  have hmax : isizeMax ≤ u64Max := by decide
  omega

/-- The token sums of the records are 64-bit numbers. -/
structure TokensFit (records : List LogRecord) : Prop where
  input : (records.map (·.usage.input)).sum ≤ u64Max
  output : (records.map (·.usage.output)).sum ≤ u64Max
  cached : (records.map (·.usage.cached)).sum ≤ u64Max

section Rows

variable {T : Type} {requests : T → Nat}

theorem rowLe_total (left right : String × T) : rowLe requests left right ∨ rowLe requests right left := by
  rcases Nat.lt_trichotomy (requests left.2) (requests right.2) with hlt | heq | hgt
  · exact .inr (.inl hlt)
  · rcases le_total left.1 right.1 with hle | hle
    · exact .inl (.inr ⟨heq.symm, hle⟩)
    · exact .inr (.inr ⟨heq, hle⟩)
  · exact .inl (.inl hgt)

theorem rowLe_trans {first second third : String × T} (h : rowLe requests first second)
    (h' : rowLe requests second third) : rowLe requests first third := by
  rcases h with hlt | ⟨heq, hle⟩ <;> rcases h' with hlt' | ⟨heq', hle'⟩
  · exact .inl (hlt'.trans hlt)
  · exact .inl (heq'.trans_lt hlt)
  · exact .inl (hlt'.trans_eq heq)
  · exact .inr ⟨heq'.trans heq, hle.trans hle'⟩

theorem sortedByRequests_pairwise (rows : List (String × T)) :
    (sortedByRequests requests rows).Pairwise (rowLe requests) := by
  have : Std.Total (rowLe requests) := ⟨rowLe_total⟩
  have : IsTrans (String × T) (rowLe requests) := ⟨fun _ _ _ => rowLe_trans⟩
  exact List.pairwise_insertionSort _ rows

/-- Sorting rows with distinct names does not depend on their order. -/
theorem sortedByRequests_perm {rows rows' : List (String × T)} (h : rows.Perm rows')
    (hnodup : (rows.map Prod.fst).Nodup) : sortedByRequests requests rows = sortedByRequests requests rows' := by
  have hperm : (sortedByRequests requests rows).Perm (sortedByRequests requests rows') :=
    (List.perm_insertionSort _ rows).trans (h.trans (List.perm_insertionSort _ rows').symm)
  refine hperm.eq_of_pairwise ?_ (sortedByRequests_pairwise rows) (sortedByRequests_pairwise rows')
  intro left right hleft hright hle hle'
  have hname : left.1 = right.1 := by
    rcases hle with hlt | ⟨heq, hle⟩ <;> rcases hle' with hlt' | ⟨heq', hle'⟩
    · omega
    · omega
    · omega
    · exact le_antisymm hle hle'
  have hleft : left ∈ rows := (List.perm_insertionSort _ rows).mem_iff.mp hleft
  have hright : right ∈ rows := h.mem_iff.mpr ((List.perm_insertionSort _ rows').mem_iff.mp hright)
  exact List.inj_on_of_nodup_map hnodup hleft hright hname

theorem sum_sortedByRequests {M : Type} [AddCommMonoid M] (measure : String × T → M) (rows : List (String × T)) :
    ((sortedByRequests requests rows).map measure).sum = (rows.map measure).sum :=
  ((List.perm_insertionSort _ rows).map measure).sum_eq

theorem nodup_sortedByRequests {rows : List (String × T)} (h : (rows.map Prod.fst).Nodup) :
    ((sortedByRequests requests rows).map Prod.fst).Nodup :=
  ((List.perm_insertionSort _ rows).map Prod.fst).nodup_iff.mpr h

end Rows

theorem Distribution.fromValues_perm {values values' : List Nat} (h : values.Perm values') :
    (Distribution.fromValues values).value = (Distribution.fromValues values').value := by
  have hsorted : values.insertionSort (· ≤ ·) = values'.insertionSort (· ≤ ·) :=
    ((List.perm_insertionSort _ values).trans (h.trans (List.perm_insertionSort _ values').symm)).eq_of_pairwise'
      (List.pairwise_insertionSort _ values) (List.pairwise_insertionSort _ values')
  simp only [Distribution.fromValues, hsorted]

namespace TokensFit

variable {records rows : List LogRecord}

/-- A count of the totals is the sum of the counts of the records. -/
theorem total_field (field : Totals → Nat) (hzero : field 0 = 0)
    (hadd : ∀ left right : Totals, field (left + right) = field left + field right) (records : List LogRecord) :
    field (Totals.total records) = (records.map fun record => field (Totals.single record)).sum := by
  induction records with
  | nil => exact hzero
  | cons record records ih =>
      have hcons : Totals.total (record :: records) = Totals.single record + Totals.total records := rfl
      rw [hcons, hadd, ih, List.map_cons, List.sum_cons]

theorem sublist (h : TokensFit records) (hrows : rows.Sublist records) : TokensFit rows where
  input := Nat.le_trans ((hrows.map _).sum_le_sum (fun _ _ => Nat.zero_le _)) h.input
  output := Nat.le_trans ((hrows.map _).sum_le_sum (fun _ _ => Nat.zero_le _)) h.output
  cached := Nat.le_trans ((hrows.map _).sum_le_sum (fun _ _ => Nat.zero_le _)) h.cached

theorem saturate_total (h : TokensFit records) : (Totals.total records).saturate = Totals.total records := by
  have hinput : (Totals.total records).inputTokens = (records.map (·.usage.input)).sum :=
    total_field Totals.inputTokens rfl (fun _ _ => rfl) records
  have hprefilled : (Totals.total records).prefilledTokens ≤ (records.map (·.usage.input)).sum := by
    rw [total_field Totals.prefilledTokens rfl (fun _ _ => rfl) records]
    exact List.sum_le_sum fun record _ => Nat.sub_le _ _
  refine Totals.saturate_of_fits (hinput.trans_le h.input) ?_ ?_ (hprefilled.trans h.input)
  · exact (total_field Totals.outputTokens rfl (fun _ _ => rfl) records).trans_le h.output
  · exact (total_field Totals.cachedTokens rfl (fun _ _ => rfl) records).trans_le h.cached

end TokensFit

/-- The overall values of a summary add up, and so do the rows of each breakdown. -/
structure Summary.Conserves (records : List LogRecord) (summary : Summary) : Prop where
  authorized : summary.requests = summary.authorized + summary.rejected
  statuses : summary.requests = summary.informational + summary.successful + summary.redirected +
    summary.clientErrors + summary.serverErrors + summary.noStatus
  overall : ∃ errors, Totals.total records =
    ⟨summary.requests, errors, summary.inputTokens, summary.outputTokens, summary.cachedTokens, summary.prefilledTokens⟩
  byKey : (summary.byKey.map (·.2.toTotals)).sum = Totals.total records
  byPrincipal : (summary.byPrincipal.map (·.2.toTotals)).sum = Totals.total records
  byPath : (summary.byPath.map (·.2.toTotals)).sum = Totals.total records
  byBackend : (summary.byBackend.map (·.2.toTotals)).sum = Totals.total (records.filter (·.backendId.isSome))

/-- The rows of a breakdown have distinct names and are sorted by requests, then by name. -/
def Sorted {T : Type} (requests : T → Nat) (rows : List (String × T)) : Prop :=
  (rows.map Prod.fst).Nodup ∧ rows.Pairwise fun left right =>
    requests right.2 < requests left.2 ∨ requests right.2 = requests left.2 ∧ left.1 < right.1

/-- The ends of the window come from records that started first and last. -/
structure Summary.Bounds (records : List LogRecord) (summary : Summary) : Prop where
  empty : records = [] → summary.firstAt = none ∧ summary.lastAt = none
  first : records ≠ [] → ∃ record ∈ records, summary.firstAt = some record.startedAt ∧
    ∀ other ∈ records, record.startedAtUnixMs ≤ other.startedAtUnixMs
  last : records ≠ [] → ∃ record ∈ records, summary.lastAt = some record.startedAt ∧
    ∀ other ∈ records, other.startedAtUnixMs ≤ record.startedAtUnixMs

/-- A summary but for the ends of its window. -/
def Summary.unbounded (summary : Summary) : Summary := { summary with firstAt := none, lastAt := none }

theorem sorted_sortedByRequests {T : Type} {requests : T → Nat} {rows : List (String × T)}
    (h : (rows.map Prod.fst).Nodup) : Sorted requests (sortedByRequests requests rows) := by
  have hnodup : ((sortedByRequests requests rows).map Prod.fst).Nodup := nodup_sortedByRequests h
  refine ⟨hnodup, ?_⟩
  have hnames := List.pairwise_map.mp hnodup
  refine ((sortedByRequests_pairwise rows).and hnames).imp ?_
  rintro left right ⟨hlt | ⟨heq, hle⟩, hne⟩
  · exact .inl hlt
  · exact .inr ⟨heq, lt_of_le_of_ne hle hne⟩

theorem Accumulators.keyRows_names (sums : Accumulators) :
    sums.keyRows.map Prod.fst = sums.keys.entries.map Prod.fst := by
  rw [keyRows, List.map_map]
  apply List.map_congr_left
  intro row _
  dsimp only [Function.comp_apply]
  split <;> rfl

theorem Accumulators.keyRows_totals (sums : Accumulators) :
    sums.keyRows.map (·.2.toTotals) = sums.keys.entries.map (·.2.toTotals) := by
  rw [keyRows, List.map_map]
  apply List.map_congr_left
  intro row _
  dsimp only [Function.comp_apply]
  split <;> rfl

theorem Accumulators.backendRows_value (sums : Accumulators) :
    sums.backendRows.value = sums.backends.entries.map fun row => (row.1, row.2.finish.value) := by
  rw [backendRows, Traced.each_value]
  rfl

theorem Counters.authorized_add_rejected (records : List LogRecord) :
    records.length = (Counters.of records).authorized + (Counters.of records).rejected := by
  have h := Counting.length_eq_sum_countP [LogRecord.authorized, fun record => !record.authorized] records
    (fun record _ => by cases hauthorized : record.authorized <;> simp [hauthorized])
  simpa [Counters.of] using h

/-- Every record falls into one of the six classes. -/
theorem Counters.statuses (records : List LogRecord) :
    records.length = (Counters.of records).informational + (Counters.of records).successful +
      (Counters.of records).redirected + (Counters.of records).clientErrors + (Counters.of records).serverErrors +
      (Counters.of records).noStatus := by
  have h := Counting.length_eq_sum_countP [(·.inHundred 1), (·.inHundred 2), (·.inHundred 3), (·.inHundred 4),
    (·.isServerError), fun record => record.status.isNone] records (fun record _ => by
      cases hstatus : record.status with
      | none => simp [LogRecord.inHundred, LogRecord.isServerError, hstatus]
      | some status =>
          simp only [LogRecord.inHundred, LogRecord.isServerError, hstatus, List.map_cons, List.map_nil,
            Option.any_some, Option.isNone_some]
          generalize status / 100 = hundred
          by_cases hhundred : 1 ≤ hundred ∧ hundred ≤ 4
          · obtain ⟨hlow, hhigh⟩ := hhundred
            interval_cases hundred <;> rfl
          · have hone : (hundred == 1) = false := beq_false_of_ne (by omega)
            have htwo : (hundred == 2) = false := beq_false_of_ne (by omega)
            have hthree : (hundred == 3) = false := beq_false_of_ne (by omega)
            have hfour : (hundred == 4) = false := beq_false_of_ne (by omega)
            rw [hone, htwo, hthree, hfour]
            rfl)
  simp only [List.map_cons, List.map_nil, List.sum_cons, List.sum_nil] at h
  simp only [Counters.of]
  omega

/-- The summary, once its loop and its distributions have run. -/
theorem summarize_value (records : List LogRecord) : (summarize records).value =
    { toCounters := (accumulate records).value.counters
      requests := records.length
      inputTokens := (accumulate records).value.inputTokens
      outputTokens := (accumulate records).value.outputTokens
      cachedTokens := (accumulate records).value.cachedTokens
      prefilledTokens := (accumulate records).value.prefilledTokens
      responseBytes := (accumulate records).value.responseBytes
      firstAt := (records.argmin LogRecord.startedAtUnixMs).map LogRecord.startedAt
      lastAt := (records.reverse.argmax LogRecord.startedAtUnixMs).map LogRecord.startedAt
      inputTokensSeen := (Distribution.fromValues (accumulate records).value.inputs).value
      outputTokensSeen := (Distribution.fromValues (accumulate records).value.outputs).value
      cacheHitPctSeen := (Distribution.fromValues (accumulate records).value.cacheHitPct).value
      firstTokenMs := (Distribution.fromValues (accumulate records).value.firstTokens).value
      perOutputTokenUs := (Distribution.fromValues (accumulate records).value.perToken).value
      latencyMs := (Distribution.fromValues (accumulate records).value.latencies).value
      byKey := sortedByRequests (·.requests) (accumulate records).value.keyRows
      byPrincipal := sortedByRequests (·.requests) (accumulate records).value.principals.entries
      openwebuiKeys := openwebuiKeysOf records
      byPath := sortedByRequests (·.requests) (accumulate records).value.paths.entries
      byBackend := sortedByRequests (·.requests) (accumulate records).value.backendRows.value } := rfl

theorem summarize_conserves {records : List LogRecord} (hlength : records.length ≤ u64Max) (hfit : TokensFit records) :
    (summarize records).value.Conserves records := by
  have h := accumulate_accumulated hlength
  have hfields : ∀ (key : LogRecord → Option String), (∀ record, (key record).isSome = true) →
      ((records.filter fun record => (key record).isSome).map Totals.single).sum = Totals.total records := by
    intro key hkey
    rw [List.filter_eq_self.mpr fun record _ => hkey record]
    rfl
  have hrows : ∀ rows : List LogRecord, rows.Sublist records →
      (Totals.total rows).saturate = (rows.map Totals.single).sum :=
    fun rows hrows => (hfit.sublist hrows).saturate_total
  refine ⟨?_, ?_, ?_, ?_, ?_, ?_, ?_⟩
  · change records.length =
      (accumulate records).value.counters.authorized + (accumulate records).value.counters.rejected
    rw [h.counters]
    exact Counters.authorized_add_rejected records
  · change records.length = (accumulate records).value.counters.informational +
      (accumulate records).value.counters.successful + (accumulate records).value.counters.redirected +
      (accumulate records).value.counters.clientErrors + (accumulate records).value.counters.serverErrors +
      (accumulate records).value.counters.noStatus
    rw [h.counters]
    exact Counters.statuses records
  · refine ⟨(Totals.total records).errors, ?_⟩
    change Totals.total records = ⟨records.length, _, (accumulate records).value.inputTokens,
      (accumulate records).value.outputTokens, (accumulate records).value.cachedTokens,
      (accumulate records).value.prefilledTokens⟩
    rw [h.inputTokens, h.outputTokens, h.cachedTokens, h.prefilledTokens, hfit.saturate_total, ← Totals.total_requests]
  · change ((sortedByRequests _ (accumulate records).value.keyRows).map _).sum = _
    rw [sum_sortedByRequests, Accumulators.keyRows_totals]
    exact (h.keys.sum KeyTotals.toTotals Totals.single hrows).trans (hfields _ fun _ => rfl)
  · change ((sortedByRequests _ (accumulate records).value.principals.entries).map _).sum = _
    rw [sum_sortedByRequests]
    exact (h.principals.sum KeyTotals.toTotals Totals.single hrows).trans (hfields _ fun _ => rfl)
  · change ((sortedByRequests _ (accumulate records).value.paths.entries).map _).sum = _
    rw [sum_sortedByRequests]
    exact (h.paths.sum PathTotals.toTotals Totals.single hrows).trans (hfields _ fun _ => rfl)
  · change ((sortedByRequests _ (accumulate records).value.backendRows.value).map _).sum = _
    rw [sum_sortedByRequests, Accumulators.backendRows_value, List.map_map]
    exact h.backends.sum BackendAccumulator.toTotals Totals.single hrows

theorem summarize_sorted {records : List LogRecord} :
    Sorted (·.requests) (summarize records).value.byKey ∧ Sorted (·.requests) (summarize records).value.byPrincipal ∧
      Sorted (·.requests) (summarize records).value.byPath ∧
      Sorted (·.requests) (summarize records).value.byBackend := by
  refine ⟨sorted_sortedByRequests ?_, sorted_sortedByRequests (accumulate records).value.principals.nodup,
    sorted_sortedByRequests (accumulate records).value.paths.nodup, sorted_sortedByRequests ?_⟩
  · rw [Accumulators.keyRows_names]
    exact (accumulate records).value.keys.nodup
  · rw [Accumulators.backendRows_value, List.map_map]
    exact (accumulate records).value.backends.nodup

/-- The users of the records of a key are those of its records that have one. -/
theorem usersOf_userKey (records : List LogRecord) (name : String) :
    usersOf (records.filter fun record => record.userKey = some name) =
      usersOf (records.filter (·.keyBucket = name)) := by
  ext user
  simp only [usersOf, List.mem_toFinset, List.mem_filterMap, List.mem_filter, decide_eq_true_eq, LogRecord.userKey,
    Option.map_eq_some_iff]
  constructor
  · rintro ⟨record, ⟨hmem, _, _, hname⟩, huser⟩
    exact ⟨record, ⟨hmem, hname⟩, huser⟩
  · rintro ⟨record, ⟨hmem, hname⟩, huser⟩
    exact ⟨record, ⟨hmem, user, huser, hname⟩, huser⟩

/-- The number of users of a key. -/
theorem summarize_users {records : List LogRecord} (hlength : records.length ≤ u64Max) {name : String} {row : KeyTotals}
    (hrow : (name, row) ∈ (summarize records).value.byKey) :
    row.openwebuiUsers = (usersOf (records.filter (·.keyBucket = name))).card := by
  have h := accumulate_accumulated hlength
  have hrow : (name, row) ∈ (accumulate records).value.keyRows := (List.perm_insertionSort _ _).mem_iff.mp hrow
  obtain ⟨⟨key, totals⟩, hmem, heq⟩ := List.mem_map.mp hrow
  obtain ⟨_, htotals⟩ := h.keys.mem_iff.mp hmem
  have husers := h.keyUsers key
  rw [usersOf_userKey] at husers
  dsimp only at heq
  rw [husers] at heq
  split at heq
  · rename_i hnone
    split at hnone
    · rename_i hempty
      obtain ⟨rfl, rfl⟩ := Prod.mk.inj heq
      rw [htotals, ← usersOf_userKey, hempty]
      rfl
    · cases hnone
  · rename_i users hsome
    split at hsome
    · cases hsome
    · obtain ⟨rfl, rfl⟩ := Prod.mk.inj heq
      cases hsome
      rfl

theorem summarize_bounds (records : List LogRecord) : (summarize records).value.Bounds records := by
  refine ⟨?_, ?_, ?_⟩
  · rintro rfl
    exact ⟨rfl, rfl⟩
  · intro hne
    cases hmin : records.argmin LogRecord.startedAtUnixMs with
    | none => exact absurd (List.argmin_eq_none.mp hmin) hne
    | some record =>
        refine ⟨record, List.argmin_mem hmin, ?_, fun other hother => List.le_of_mem_argmin hother hmin⟩
        change (records.argmin LogRecord.startedAtUnixMs).map LogRecord.startedAt = _
        rw [hmin]
        rfl
  · intro hne
    cases hmax : records.reverse.argmax LogRecord.startedAtUnixMs with
    | none => exact absurd (List.reverse_eq_nil_iff.mp (List.argmax_eq_none.mp hmax)) hne
    | some record =>
        refine ⟨record, List.mem_reverse.mp (List.argmax_mem hmax), ?_, fun other hother =>
          List.le_of_mem_argmax (List.mem_reverse.mpr hother) hmax⟩
        change (records.reverse.argmax LogRecord.startedAtUnixMs).map LogRecord.startedAt = _
        rw [hmax]
        rfl

section Perm

variable {records records' : List LogRecord}

theorem Totals.total_perm (h : records.Perm records') : Totals.total records = Totals.total records' :=
  (h.map Totals.single).sum_eq

theorem KeyTotals.of_perm (h : records.Perm records') : KeyTotals.of records = KeyTotals.of records' := by
  have hseen : (records.map LogRecord.startedAtUnixMs).foldl max 0 =
      (records'.map LogRecord.startedAtUnixMs).foldl max 0 := (h.map _).foldl_eq 0
  simp only [KeyTotals.of, Totals.total_perm h, hseen]

theorem PathTotals.of_perm (h : records.Perm records') : PathTotals.of records = PathTotals.of records' := by
  simp only [PathTotals.of, Totals.total_perm h]

theorem usersOf_perm (h : records.Perm records') : usersOf records = usersOf records' :=
  List.toFinset_eq_of_perm _ _ (h.filterMap _)

theorem BackendAccumulator.finish_value (backend : BackendAccumulator) :
    backend.finish.value = ⟨backend.toTotals, (Distribution.fromValues backend.queues).value,
      (Distribution.fromValues backend.firstBytes).value, (Distribution.fromValues backend.latencies).value⟩ := rfl

theorem BackendAccumulator.finish_perm (h : records.Perm records') :
    (BackendAccumulator.of records).finish.value = (BackendAccumulator.of records').finish.value := by
  have hqueues := Distribution.fromValues_perm (h.filterMap LogRecord.proxyQueueMs)
  have hbytes := Distribution.fromValues_perm (h.filterMap LogRecord.timeToFirstByteMs)
  have hlatencies := Distribution.fromValues_perm (h.map LogRecord.durationMs)
  rw [finish_value, finish_value, BackendTotals.mk.injEq]
  refine ⟨?_, hqueues, hbytes, hlatencies⟩
  exact congrArg Totals.saturate (Totals.total_perm h)

theorem Counters.of_perm (h : records.Perm records') : Counters.of records = Counters.of records' := by
  simp only [Counters.of, h.countP_eq]

/-- A summary does not depend on the order of the records, but for which of several records ends its window. -/
theorem summarize_perm (hlength : records.length ≤ u64Max) (h : records.Perm records') :
    (summarize records).value.unbounded = (summarize records').value.unbounded := by
  have hsums := accumulate_accumulated hlength
  have hsums' := accumulate_accumulated (h.length_eq ▸ hlength : records'.length ≤ u64Max)
  have hopenwebui : openwebuiKeysOf records = openwebuiKeysOf records' :=
    List.toFinset_eq_of_perm _ _ ((h.filter _).map _)
  rw [← hopenwebui] at hsums'
  have htotals := Totals.total_perm h
  have hkeys : (accumulate records).value.keyRows.Perm (accumulate records').value.keyRows := by
    have hrows := hsums.keys.perm hsums'.keys h id fun _ _ => KeyTotals.of_perm
    have husers := hsums.keyUsers.value_perm hsums'.keyUsers h fun _ _ => usersOf_perm
    simp only [id_eq, Prod.mk.eta, List.map_id_fun'] at hrows
    rw [Accumulators.keyRows, Accumulators.keyRows]
    simp only [husers]
    exact hrows.map _
  have hprincipals : (accumulate records).value.principals.entries.Perm
      (accumulate records').value.principals.entries := by
    have hrows := hsums.principals.perm hsums'.principals h id fun _ _ => KeyTotals.of_perm
    simp only [id_eq, Prod.mk.eta, List.map_id_fun'] at hrows
    exact hrows
  have hpaths : (accumulate records).value.paths.entries.Perm (accumulate records').value.paths.entries := by
    have hrows := hsums.paths.perm hsums'.paths h id fun _ _ => PathTotals.of_perm
    simp only [id_eq, Prod.mk.eta, List.map_id_fun'] at hrows
    exact hrows
  have hbackends : (accumulate records).value.backendRows.value.Perm (accumulate records').value.backendRows.value := by
    rw [Accumulators.backendRows_value, Accumulators.backendRows_value]
    exact hsums.backends.perm hsums'.backends h (fun backend => backend.finish.value) fun _ _ hrows =>
      BackendAccumulator.finish_perm hrows
  have hnames : ((accumulate records).value.keyRows.map Prod.fst).Nodup := by
    rw [Accumulators.keyRows_names]
    exact (accumulate records).value.keys.nodup
  have hbackendNames : ((accumulate records).value.backendRows.value.map Prod.fst).Nodup := by
    rw [Accumulators.backendRows_value, List.map_map]
    exact (accumulate records).value.backends.nodup
  simp only [summarize_value, Summary.unbounded, Summary.mk.injEq, true_and]
  refine ⟨?_, h.length_eq, ?_, ?_, ?_, ?_, ?_, ?_, ?_, ?_, ?_, ?_, ?_, ?_, ?_, hopenwebui, ?_, ?_⟩
  · rw [hsums.counters, hsums'.counters, Counters.of_perm h]
  · rw [hsums.inputTokens, hsums'.inputTokens, htotals]
  · rw [hsums.outputTokens, hsums'.outputTokens, htotals]
  · rw [hsums.cachedTokens, hsums'.cachedTokens, htotals]
  · rw [hsums.prefilledTokens, hsums'.prefilledTokens, htotals]
  · rw [hsums.responseBytes, hsums'.responseBytes, (h.map LogRecord.responseBytes).sum_eq]
  · rw [hsums.inputs, hsums'.inputs]
    exact Distribution.fromValues_perm (h.filterMap _)
  · rw [hsums.outputs, hsums'.outputs]
    exact Distribution.fromValues_perm (h.filterMap _)
  · rw [hsums.cacheHitPct, hsums'.cacheHitPct]
    exact Distribution.fromValues_perm (h.flatMap_right _)
  · rw [hsums.firstTokens, hsums'.firstTokens]
    exact Distribution.fromValues_perm (h.filterMap _)
  · rw [hsums.perToken, hsums'.perToken]
    exact Distribution.fromValues_perm (h.flatMap_right _)
  · rw [hsums.latencies, hsums'.latencies]
    exact Distribution.fromValues_perm (h.map _)
  · exact sortedByRequests_perm hkeys hnames
  · exact sortedByRequests_perm hprincipals (accumulate records).value.principals.nodup
  · exact sortedByRequests_perm hpaths (accumulate records).value.paths.nodup
  · exact sortedByRequests_perm hbackends hbackendNames

end Perm

/-- Every total of a summary is that of each of its breakdowns; the rows of the breakdowns are told apart by name
and sorted; and the order of the records matters only for which of several records ends the window. -/
theorem summaries_conserve_totals (slice : RecordSlice) (hfit : TokensFit slice.records) :
    (summarize slice.records).value.Conserves slice.records ∧
      (∀ name row, (name, row) ∈ (summarize slice.records).value.byKey →
        row.openwebuiUsers = (usersOf (slice.records.filter (·.keyBucket = name))).card) ∧
      (Sorted (·.requests) (summarize slice.records).value.byKey ∧
        Sorted (·.requests) (summarize slice.records).value.byPrincipal ∧
        Sorted (·.requests) (summarize slice.records).value.byPath ∧
        Sorted (·.requests) (summarize slice.records).value.byBackend) ∧
      ∀ records, slice.records.Perm records →
        (summarize slice.records).value.unbounded = (summarize records).value.unbounded ∧
        (summarize slice.records).value.Bounds slice.records ∧ (summarize records).value.Bounds records := by
  have hlength : slice.records.length ≤ u64Max := by
    have := slice.length_le
    omega
  exact ⟨summarize_conserves hlength hfit, fun name row hrow => summarize_users hlength hrow, summarize_sorted,
    fun records hperm => ⟨summarize_perm hlength hperm, summarize_bounds slice.records, summarize_bounds records⟩⟩

/-- A request of a forwarded user, and one of the same key without any. -/
def forwardedRecords : RecordSlice where
  records := [
    { keyName := some "webui", openwebuiUserName := some "ada", backendId := some "a", status := some 200,
      authorized := true, complete := true, inputTokens := some 10, cachedTokens := some 4, outputTokens := some 3 },
    { keyName := some "webui", status := some 503, authorized := true, complete := true }]
  allocated := by decide

theorem summaries_conserve_totals_forwarded :
    ((summarize forwardedRecords.records).value.byPrincipal.map (·.2.toTotals)).sum = ⟨2, 1, 10, 3, 4, 6⟩ := by
  have hfit : TokensFit forwardedRecords.records := ⟨by decide, by decide, by decide⟩
  rw [(summaries_conserve_totals forwardedRecords hfit).1.byPrincipal]
  decide

end MistralrsProxy
