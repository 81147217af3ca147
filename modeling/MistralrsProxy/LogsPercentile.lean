import MistralrsProxy.LogsRange
import MistralrsProxy.OrderStatistic

/-! The percentiles of a summary. The rank is a rounded-up share of the number of samples, so the sample at that rank is
the first one that reaches the share, and the two clamps are only ever needed for a share of nothing. -/

open Machine OrderStatistic

namespace MistralrsProxy

/-- The index that `percentile` computes for a slice of the given length. -/
def percentileIndex (length percent : Nat) : Traced Nat := do
  let scaled ← Traced.mul length percent
  let quotient ← Traced.div scaled 100
  let rank := max (if scaled % 100 = 0 then quotient else quotient + 1) 1
  Traced.sub (min rank length) 1

/-- The samples that at least `percent` of a hundred samples are at or below. -/
def Reaching (percent : Nat) (values : List Nat) : Set Nat :=
  {x | x ∈ values ∧ percent * values.length ≤ 100 * countLe x values}

section Rank

variable {length percent : Nat}

theorem scaled_le (hlength : length ≤ 2 ^ 57) (hpercent : percent ≤ 100) : length * percent ≤ u64Max := by
  calc
    length * percent ≤ 2 ^ 57 * 100 := Nat.mul_le_mul hlength hpercent
    _ ≤ u64Max := by decide

/-- The index without the traces: one less than the share, rounded up, but at least zero. -/
theorem percentileIndex_value (hpos : 0 < length) (hlength : length ≤ 2 ^ 57) (hpercent : percent ≤ 100) :
    (percentileIndex length percent).value + 1 = max ((length * percent + 99) / 100) 1 := by
  have hscaled := scaled_le hlength hpercent
  have hle : (length * percent + 99) / 100 ≤ length := by
    have : length * percent ≤ length * 100 := Nat.mul_le_mul_left length hpercent
    omega
  have hceil : (if length * percent % 100 = 0 then length * percent / 100 else length * percent / 100 + 1) =
      (length * percent + 99) / 100 := by
    split <;> omega
  have hmax : u64Max = 18446744073709551615 := by decide
  have hvalue : (percentileIndex length percent).value =
      (Traced.sub (min (max ((length * percent + 99) / 100) 1) length) 1).value := by
    simp only [percentileIndex, Traced.bind_value, Traced.mul_value hscaled, Traced.div, hceil]
  rw [hvalue, Traced.sub_value (by omega) (by omega)]
  omega

theorem percentileIndex_lt (hpos : 0 < length) (hlength : length ≤ 2 ^ 57) (hpercent : percent ≤ 100) :
    (percentileIndex length percent).value < length := by
  have hvalue := percentileIndex_value hpos hlength hpercent
  have : length * percent ≤ length * 100 := Nat.mul_le_mul_left length hpercent
  omega

/-- A count of at least one exceeds the index when it reaches the share. -/
theorem percentileIndex_lt_iff (hpos : 0 < length) (hlength : length ≤ 2 ^ 57) (hpercent : percent ≤ 100) {count : Nat}
    (hcount : 0 < count) : (percentileIndex length percent).value < count ↔ percent * length ≤ 100 * count := by
  have hvalue := percentileIndex_value hpos hlength hpercent
  rw [Nat.mul_comm percent length]
  omega

end Rank

section Percentile

variable {sorted : List Nat} {percent : Nat}

theorem percentile_getElem (hne : sorted ≠ []) (hlength : sorted.length ≤ 2 ^ 57) (hpercent : percent ≤ 100) :
    ∃ h : (percentileIndex sorted.length percent).value < sorted.length,
      (percentile sorted percent).value = sorted[(percentileIndex sorted.length percent).value] := by
  have hlt := percentileIndex_lt (List.length_pos_of_ne_nil hne) hlength hpercent
  have hread : (percentile sorted percent).value = sorted.getD (percentileIndex sorted.length percent).value 0 := by
    rw [percentile, if_neg hne]
    rfl
  refine ⟨hlt, hread.trans ?_⟩
  rw [List.getD_eq_getElem?_getD, List.getElem?_eq_getElem hlt, Option.getD_some]

theorem percentile_isLeast (hsorted : sorted.Pairwise (· ≤ ·)) (hne : sorted ≠ []) (hlength : sorted.length ≤ 2 ^ 57)
    (hpercent : percent ≤ 100) : IsLeast (Reaching percent sorted) (percentile sorted percent).value := by
  obtain ⟨hlt, hvalue⟩ := percentile_getElem hne hlength hpercent
  have hreach : Reaching percent sorted =
      {x | x ∈ sorted ∧ (percentileIndex sorted.length percent).value < countLe x sorted} := by
    ext x
    apply and_congr_right
    intro hx
    exact (percentileIndex_lt_iff (List.length_pos_of_ne_nil hne) hlength hpercent (countLe_pos hx)).symm
  rw [hvalue, hreach]
  exact isLeast_getElem hsorted hlt

end Percentile

theorem reaching_perm {values values' : List Nat} (h : values.Perm values') (percent : Nat) :
    Reaching percent values = Reaching percent values' := by
  ext x
  show x ∈ values ∧ _ ≤ 100 * countLe x values ↔ x ∈ values' ∧ _ ≤ 100 * countLe x values'
  rw [h.mem_iff, h.length_eq, countLe_perm h]

/-- A greater share is reached by fewer samples. -/
theorem reaching_anti {percent percent' : Nat} (h : percent ≤ percent') (values : List Nat) :
    Reaching percent' values ⊆ Reaching percent values := by
  rintro x ⟨hx, hreach⟩
  exact ⟨hx, (Nat.mul_le_mul_right values.length h).trans hreach⟩

theorem Distribution.fromValues_value (values : List Nat) :
    (Distribution.fromValues values).value =
      ⟨(values.insertionSort (· ≤ ·)).length, (percentile (values.insertionSort (· ≤ ·)) 50).value,
        (percentile (values.insertionSort (· ≤ ·)) 95).value, (values.insertionSort (· ≤ ·)).getLast?.getD 0⟩ := rfl

/-- The percentiles of up to `2 ^ 57` samples are nearest-rank, whatever order the samples are in. -/
theorem distribution_is_nearest_rank (values : List Nat) (hne : 1 ≤ values.length) (hlength : values.length ≤ 2 ^ 57) :
    (∀ values', values'.Perm values →
        (Distribution.fromValues values').value = (Distribution.fromValues values).value) ∧
      IsLeast (Reaching 50 values) (Distribution.fromValues values).value.p50 ∧
      IsLeast (Reaching 95 values) (Distribution.fromValues values).value.p95 ∧
      (Distribution.fromValues values).value.p50 ≤ (Distribution.fromValues values).value.p95 ∧
      (Distribution.fromValues values).value.p95 ≤ (Distribution.fromValues values).value.max ∧
      IsGreatest {x | x ∈ values} (Distribution.fromValues values).value.max ∧
      ∀ sorted : List Nat, sorted.length = values.length → ∀ percent ≤ 100,
        (percentile sorted percent).InRange ∧
          ∃ h : (percentileIndex sorted.length percent).value < sorted.length,
            (percentile sorted percent).value = sorted[(percentileIndex sorted.length percent).value] := by
  have hperm : (values.insertionSort (· ≤ ·)).Perm values := List.perm_insertionSort _ values
  have hsorted : (values.insertionSort (· ≤ ·)).Pairwise (· ≤ ·) := List.pairwise_insertionSort _ values
  have hcount : (values.insertionSort (· ≤ ·)).length = values.length := hperm.length_eq
  have hsome : values.insertionSort (· ≤ ·) ≠ [] := List.ne_nil_of_length_pos (by omega)
  have hleast : ∀ percent ≤ 100,
      IsLeast (Reaching percent values) (percentile (values.insertionSort (· ≤ ·)) percent).value := by
    intro percent hpercent
    rw [← reaching_perm hperm percent]
    exact percentile_isLeast hsorted hsome (by omega) hpercent
  have hgreatest : IsGreatest {x | x ∈ values} (Distribution.fromValues values).value.max := by
    have hmax : (Distribution.fromValues values).value.max = (values.insertionSort (· ≤ ·)).getLast hsome := by
      rw [Distribution.fromValues_value, List.getLast?_eq_some_getLast hsome, Option.getD_some]
    have hset : {x | x ∈ values} = {x | x ∈ values.insertionSort (· ≤ ·)} := by
      ext x
      exact hperm.mem_iff.symm
    rw [hmax, hset]
    exact isGreatest_getLast hsorted hsome
  have hp50 : IsLeast (Reaching 50 values) (Distribution.fromValues values).value.p50 := by
    rw [Distribution.fromValues_value]
    exact hleast 50 (by omega)
  have hp95 : IsLeast (Reaching 95 values) (Distribution.fromValues values).value.p95 := by
    rw [Distribution.fromValues_value]
    exact hleast 95 (by omega)
  refine ⟨fun values' h => Distribution.fromValues_perm h, hp50, hp95, ?_, ?_, hgreatest, ?_⟩
  · exact hp95.mono hp50 (reaching_anti (by omega) values)
  · exact hgreatest.2 hp95.1.1
  · intro sorted hsame percent hpercent
    have hnonempty : sorted ≠ [] := List.ne_nil_of_length_pos (by omega)
    exact ⟨percentile_inRange (scaled_le (by omega) hpercent), percentile_getElem hnonempty (by omega) hpercent⟩

/-- Ten samples, out of order and with a repeated value. -/
theorem distribution_is_nearest_rank_ten :
    (Distribution.fromValues [100, 20, 30, 40, 50, 50, 70, 80, 90, 10]).value = ⟨10, 50, 100, 100⟩ ∧
      IsLeast (Reaching 95 [100, 20, 30, 40, 50, 50, 70, 80, 90, 10]) 100 := by
  obtain ⟨-, -, hp95, -⟩ :=
    distribution_is_nearest_rank [100, 20, 30, 40, 50, 50, 70, 80, 90, 10] (by decide) (by decide)
  have hvalue : (Distribution.fromValues [100, 20, 30, 40, 50, 50, 70, 80, 90, 10]).value = ⟨10, 50, 100, 100⟩ := by
    decide +kernel
  rw [hvalue] at hp95
  exact ⟨hvalue, hp95⟩

end MistralrsProxy
