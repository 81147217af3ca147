import MistralrsProxy.Keys
import MistralrsProxy.LogsConservation

/-! Attribution to principals. A row of the breakdown is known by a text made of the key, a separator and the user,
or of placeholders; records of two principals share a row where these texts coincide. -/

open Machine Grouping Keyed

namespace MistralrsProxy

/-- The rows of the breakdown by principal are the totals of the records with their name. -/
theorem mem_byPrincipal_iff {records : List LogRecord} (hlength : records.length ≤ u64Max) {name : String}
    {row : KeyTotals} :
    (name, row) ∈ (summarize records).value.byPrincipal ↔
      (∃ record ∈ records, record.principalBucket (openwebuiKeysOf records) = name) ∧
        row = KeyTotals.of (records.filter fun record => record.principalBucket (openwebuiKeysOf records) = name) := by
  have hrows : (name, row) ∈ (accumulate records).value.principals.entries ↔ _ :=
    (accumulate_accumulated hlength).principals.mem_iff
  simp only [Option.some.injEq] at hrows
  rw [← hrows]
  exact (List.perm_insertionSort _ _).mem_iff

/-- The row that counts a record. -/
def LogRecord.rowIn (records : List LogRecord) (record : LogRecord) : String :=
  record.principalBucket (openwebuiKeysOf records)

def SamePrincipal (first second : LogRecord) : Prop :=
  first.keyName = second.keyName ∧ first.openwebuiUser = second.openwebuiUser

namespace LogRecord

/-- The requests are of keys of one name, where requests without a key go by the name `(unauthenticated)`. -/
def SharesKey (first second : LogRecord) : Prop :=
  first.keyName.getD "(unauthenticated)" = second.keyName.getD "(unauthenticated)"

/-- The name of the second key is that of the first one, a colon and the text. -/
def ExtendsKey (first second : LogRecord) (text : String) : Prop :=
  second.keyName = some (first.keyName.getD "(unauthenticated)" ++ ":" ++ text)

/-- Some request of the key comes from a forwarded user. -/
def HasUsers (records : List LogRecord) (record : LogRecord) : Prop :=
  ∃ other ∈ records, other.SharesKey record ∧ other.openwebuiUser ≠ none

end LogRecord

/-- No names stand for two principals. No key is named like the placeholder of unauthenticated requests where there
are such requests of the same user, and no user like the placeholder of requests without one where the key has such
requests. Where one key is named like another one, a colon and a text, no user of the other one is named like that text,
or like it with a colon and a user of the longer key: the first only matters to requests without a user of a key that
has no users, the second also to requests without a user of a key that has some, with the placeholder for the user. And
where the text is that placeholder and the longer key has no users, the other key does not have both users and requests
without one. -/
structure Distinguishable (records : List LogRecord) : Prop where
  unauthenticated : ∀ first ∈ records, ∀ second ∈ records, first.keyName = none →
    second.keyName = some "(unauthenticated)" → first.openwebuiUser ≠ second.openwebuiUser
  placeholderUser : ∀ first ∈ records, ∀ second ∈ records, first.SharesKey second →
    first.openwebuiUser = some unattributed → second.openwebuiUser ≠ none
  users : ∀ first ∈ records, ∀ second ∈ records, ∀ text user, first.ExtendsKey second text →
    second.openwebuiUser = some user → first.openwebuiUser ≠ some (text ++ ":" ++ user)
  attributed : ∀ first ∈ records, ∀ second ∈ records, ∀ text, first.ExtendsKey second text →
    second.openwebuiUser = none → second.HasUsers records → first.openwebuiUser ≠ some (text ++ ":" ++ unattributed)
  unused : ∀ first ∈ records, ∀ second ∈ records, ∀ text, first.ExtendsKey second text →
    second.openwebuiUser = none → ¬second.HasUsers records → first.openwebuiUser ≠ some text
  placeholderKey : ∀ first ∈ records, ∀ second ∈ records, first.ExtendsKey second unattributed →
    second.openwebuiUser = none → ¬second.HasUsers records → first.HasUsers records → first.openwebuiUser ≠ none

/-- What stands behind the key in the name of a row. -/
def LogRecord.suffixIn (records : List LogRecord) (record : LogRecord) : String :=
  match record.openwebuiUser with
  | some user => ":" ++ user
  | none => if record.keyBucket ∈ openwebuiKeysOf records then ":" ++ unattributed else ""

namespace LogRecord

variable {records : List LogRecord} {first second : LogRecord}

theorem rowIn_eq (records : List LogRecord) (record : LogRecord) :
    record.rowIn records = record.keyBucket ++ record.suffixIn records := by
  unfold rowIn principalBucket suffixIn
  cases record.openwebuiUser with
  | some user => exact String.append_assoc
  | none =>
      by_cases hkey : record.keyBucket ∈ openwebuiKeysOf records
      · simp only [hkey, if_true]
        exact String.append_assoc
      · simp only [hkey, if_false, String.append_empty]

theorem suffixIn_of_user {user : String} (h : first.openwebuiUser = some user) :
    first.suffixIn records = ":" ++ user := by
  simp only [suffixIn, h]

theorem mem_openwebuiKeysOf_iff : first.keyBucket ∈ openwebuiKeysOf records ↔ first.HasUsers records := by
  simp only [openwebuiKeysOf, List.mem_toFinset, List.mem_map, List.mem_filter, Option.isSome_iff_ne_none, HasUsers]
  constructor
  · rintro ⟨other, ⟨hmem, huser⟩, hkey⟩
    exact ⟨other, hmem, hkey, huser⟩
  · rintro ⟨other, hmem, hkey, huser⟩
    exact ⟨other, ⟨hmem, huser⟩, hkey⟩

/-- A key with a forwarded user has its other requests in a row of their own. -/
theorem suffixIn_of_attributed (hnone : first.openwebuiUser = none) (husers : first.HasUsers records) :
    first.suffixIn records = ":" ++ MistralrsProxy.unattributed := by
  simp only [suffixIn, hnone, mem_openwebuiKeysOf_iff.mpr husers, if_true]

theorem suffixIn_of_unused (hnone : first.openwebuiUser = none) (hnever : ¬first.HasUsers records) :
    first.suffixIn records = "" := by
  have hother : first.keyBucket ∉ openwebuiKeysOf records := fun hmem => hnever (mem_openwebuiKeysOf_iff.mp hmem)
  simp only [suffixIn, hnone, hother, if_false]

theorem suffixIn_of_shared {user : String} (hmem : first ∈ records) (huser : first.openwebuiUser = some user)
    (hkey : first.keyBucket = second.keyBucket) (hnone : second.openwebuiUser = none) :
    second.suffixIn records = ":" ++ MistralrsProxy.unattributed :=
  suffixIn_of_attributed hnone ⟨first, hmem, hkey, by rw [huser]; exact Option.some_ne_none user⟩

theorem suffixIn_cases (records : List LogRecord) (record : LogRecord) :
    record.suffixIn records = "" ∨ ∃ text, record.suffixIn records = ":" ++ text := by
  unfold suffixIn
  cases record.openwebuiUser with
  | some user => exact .inr ⟨user, rfl⟩
  | none =>
      by_cases hkey : record.keyBucket ∈ openwebuiKeysOf records
      · simp only [hkey, if_true]
        exact .inr ⟨_, rfl⟩
      · refine .inl ?_
        simp only [hkey, if_false]

/-- A text without a colon is no two texts with a colon between them. -/
theorem ne_of_colon {whole before behind : String} (hwhole : ':' ∉ whole.toList) : whole ≠ before ++ ":" ++ behind := by
  rintro rfl
  exact hwhole (by simp)

/-- A key that goes on behind the name of another one and a colon is a key with a name. -/
theorem extendsKey_iff {text : String} :
    second.keyBucket = first.keyBucket ++ ":" ++ text ↔ first.ExtendsKey second text := by
  unfold ExtendsKey keyBucket
  cases second.keyName with
  | some name => exact Option.some_inj.symm
  | none =>
      constructor
      · intro hplaceholder
        exact absurd hplaceholder (ne_of_colon (by decide))
      · intro hsome
        cases hsome

/-- The name of no row goes on behind a key like that of another one behind a longer key. -/
theorem suffixIn_separated (h : Distinguishable records) (hfirst : first ∈ records) (hsecond : second ∈ records)
    {text : String} (hextends : first.ExtendsKey second text) :
    first.suffixIn records ≠ ":" ++ text ++ second.suffixIn records := by
  intro hsuffix
  cases huser : first.openwebuiUser with
  | some user =>
      rw [suffixIn_of_user huser, String.append_assoc, String.append_right_inj] at hsuffix
      cases huser' : second.openwebuiUser with
      | some user' =>
          rw [suffixIn_of_user huser', ← String.append_assoc] at hsuffix
          exact h.users first hfirst second hsecond text user' hextends huser' (by rw [huser, hsuffix])
      | none =>
          by_cases husers : second.HasUsers records
          · rw [suffixIn_of_attributed huser' husers, ← String.append_assoc] at hsuffix
            exact h.attributed first hfirst second hsecond text hextends huser' husers (by rw [huser, hsuffix])
          · rw [suffixIn_of_unused huser' husers, String.append_empty] at hsuffix
            exact h.unused first hfirst second hsecond text hextends huser' husers (by rw [huser, hsuffix])
  | none =>
      by_cases husers : first.HasUsers records
      · rw [suffixIn_of_attributed huser husers, String.append_assoc, String.append_right_inj] at hsuffix
        have hplain : ':' ∉ MistralrsProxy.unattributed.toList := by decide
        cases huser' : second.openwebuiUser with
        | some user' =>
            rw [suffixIn_of_user huser', ← String.append_assoc] at hsuffix
            exact ne_of_colon hplain hsuffix
        | none =>
            by_cases husers' : second.HasUsers records
            · rw [suffixIn_of_attributed huser' husers', ← String.append_assoc] at hsuffix
              exact ne_of_colon hplain hsuffix
            · rw [suffixIn_of_unused huser' husers', String.append_empty] at hsuffix
              rw [← hsuffix] at hextends
              exact h.placeholderKey first hfirst second hsecond hextends huser' husers' husers huser
      · rw [suffixIn_of_unused huser husers, String.append_assoc] at hsuffix
        have hplain : ':' ∉ ("" : String).toList := by decide
        exact ne_of_colon hplain (hsuffix.trans (by rw [String.empty_append]))

/-- Behind one key, what stands for the user is the user. -/
theorem user_of_suffixIn (h : Distinguishable records) (hfirst : first ∈ records) (hsecond : second ∈ records)
    (hkey : first.keyBucket = second.keyBucket) (hsuffix : first.suffixIn records = second.suffixIn records) :
    first.openwebuiUser = second.openwebuiUser := by
  cases huser : first.openwebuiUser with
  | some user =>
      cases huser' : second.openwebuiUser with
      | some user' =>
          rw [suffixIn_of_user huser, suffixIn_of_user huser', String.append_right_inj] at hsuffix
          rw [hsuffix]
      | none =>
          rw [suffixIn_of_user huser, suffixIn_of_shared hfirst huser hkey huser', String.append_right_inj] at hsuffix
          rw [hsuffix] at huser
          exact absurd huser' (h.placeholderUser first hfirst second hsecond hkey huser)
  | none =>
      cases huser' : second.openwebuiUser with
      | some user' =>
          rw [suffixIn_of_user huser', suffixIn_of_shared hsecond huser' hkey.symm huser,
            String.append_right_inj] at hsuffix
          rw [← hsuffix] at huser'
          exact absurd huser (h.placeholderUser second hsecond first hfirst hkey.symm huser')
      | none => rfl

/-- One key bucket stands for one key. -/
theorem keyName_of_keyBucket (h : Distinguishable records) (hfirst : first ∈ records) (hsecond : second ∈ records)
    (hkey : first.keyBucket = second.keyBucket) (huser : first.openwebuiUser = second.openwebuiUser) :
    first.keyName = second.keyName := by
  unfold keyBucket at hkey
  cases hname : first.keyName with
  | some name =>
      cases hname' : second.keyName with
      | some name' =>
          rw [hname, hname'] at hkey
          exact congrArg some hkey
      | none =>
          rw [hname, hname'] at hkey
          have hplaceholder : name = "(unauthenticated)" := hkey
          rw [hplaceholder] at hname
          exact absurd huser.symm (h.unauthenticated second hsecond first hfirst hname' hname)
  | none =>
      cases hname' : second.keyName with
      | some name' =>
          rw [hname, hname'] at hkey
          have hplaceholder : "(unauthenticated)" = name' := hkey
          rw [← hplaceholder] at hname'
          exact absurd huser (h.unauthenticated first hfirst second hsecond hname hname')
      | none => rfl

/-- No key bucket goes on where the name of a row has its separator. -/
theorem nil_of_extension (h : Distinguishable records) (hfirst : first ∈ records) (hsecond : second ∈ records)
    {rest : List Char} (hkey : second.keyBucket.toList = first.keyBucket.toList ++ rest)
    (hsuffix : (first.suffixIn records).toList = rest ++ (second.suffixIn records).toList) : rest = [] := by
  cases rest with
  | nil => rfl
  | cons char text =>
      have hcolon : char = ':' := by
        rcases suffixIn_cases records first with hempty | ⟨behind, hbehind⟩
        · rw [hempty] at hsuffix
          cases hsuffix
        · rw [hbehind, String.toList_append, List.cons_append] at hsuffix
          exact (List.cons.inj hsuffix).1.symm
      rw [hcolon] at hkey hsuffix
      have hextends : first.ExtendsKey second (String.ofList text) := by
        rw [← extendsKey_iff, ← String.toList_inj, hkey]
        simp
      refine absurd ?_ (suffixIn_separated h hfirst hsecond hextends)
      rw [← String.toList_inj, hsuffix]
      simp

/-- Two rows of one name belong to one key bucket. -/
theorem keyBucket_of_rowIn (h : Distinguishable records) (hfirst : first ∈ records) (hsecond : second ∈ records)
    (hrow : first.rowIn records = second.rowIn records) :
    first.keyBucket = second.keyBucket ∧ first.suffixIn records = second.suffixIn records := by
  rw [rowIn_eq, rowIn_eq, ← String.toList_inj, String.toList_append, String.toList_append,
    List.append_eq_append_iff] at hrow
  rcases hrow with ⟨rest, hkey, hsuffix⟩ | ⟨rest, hkey, hsuffix⟩
  · have hrest := nil_of_extension h hfirst hsecond hkey hsuffix
    rw [hrest, List.append_nil] at hkey
    rw [hrest, List.nil_append] at hsuffix
    exact ⟨String.toList_inj.mp hkey.symm, String.toList_inj.mp hsuffix⟩
  · have hrest := nil_of_extension h hsecond hfirst hkey hsuffix
    rw [hrest, List.append_nil] at hkey
    rw [hrest, List.nil_append] at hsuffix
    exact ⟨String.toList_inj.mp hkey, String.toList_inj.mp hsuffix.symm⟩

/-- If the rows tell the principals apart, no row of a longer key has the name of a row of the shorter one. -/
theorem separated_of_rows {text : String}
    (hrow : first.rowIn records = second.rowIn records ↔ SamePrincipal first second)
    (hextends : first.ExtendsKey second text) : first.suffixIn records ≠ ":" ++ text ++ second.suffixIn records := by
  intro hsuffix
  have hkey := extendsKey_iff.mpr hextends
  have hsame : first.rowIn records = second.rowIn records := by
    calc first.rowIn records = first.keyBucket ++ (":" ++ text ++ second.suffixIn records) := by rw [rowIn_eq, hsuffix]
      _ = first.keyBucket ++ ":" ++ text ++ second.suffixIn records := by simp only [String.append_assoc]
      _ = second.rowIn records := by rw [rowIn_eq, hkey]
  have hbucket : first.keyBucket = second.keyBucket := by rw [keyBucket, keyBucket, (hrow.mp hsame).1]
  have hlength := congrArg (fun key : String => key.toList.length) (hbucket.trans hkey)
  simp only [String.toList_append, List.length_append] at hlength
  have hcolon : (":" : String).toList.length = 1 := rfl
  omega

/-- The records of one principal share a row. -/
theorem rowIn_of_samePrincipal (h : SamePrincipal first second) : first.rowIn records = second.rowIn records := by
  have hkey : first.keyBucket = second.keyBucket := by rw [keyBucket, keyBucket, h.1]
  rw [rowIn_eq, rowIn_eq, suffixIn, suffixIn, h.2, hkey]

end LogRecord

namespace Distinguishable

variable {records : List LogRecord} {first second : LogRecord}

/-- Rows that tell the principals apart need names that do. -/
theorem of_rows (h : ∀ first ∈ records, ∀ second ∈ records,
    first.rowIn records = second.rowIn records ↔ SamePrincipal first second) : Distinguishable records := by
  refine ⟨?_, ?_, ?_, ?_, ?_, ?_⟩
  · intro first hfirst second hsecond hnone hplaceholder huser
    have hkey : first.keyBucket = second.keyBucket := by
      rw [LogRecord.keyBucket, LogRecord.keyBucket, hnone, hplaceholder]
      rfl
    have hrow : first.rowIn records = second.rowIn records := by
      rw [LogRecord.rowIn_eq, LogRecord.rowIn_eq, LogRecord.suffixIn, LogRecord.suffixIn, huser, hkey]
    have hname := ((h first hfirst second hsecond).mp hrow).1
    rw [hnone, hplaceholder] at hname
    cases hname
  · intro first hfirst second hsecond hshares huser hnone
    have hkey : first.keyBucket = second.keyBucket := hshares
    have hrow : first.rowIn records = second.rowIn records := by
      rw [LogRecord.rowIn_eq, LogRecord.rowIn_eq, LogRecord.suffixIn_of_user huser,
        LogRecord.suffixIn_of_shared hfirst huser hkey hnone, hkey]
    have hsame := ((h first hfirst second hsecond).mp hrow).2
    rw [huser, hnone] at hsame
    cases hsame
  · intro first hfirst second hsecond text user hextends huser' huser
    apply LogRecord.separated_of_rows (h first hfirst second hsecond) hextends
    rw [LogRecord.suffixIn_of_user huser, LogRecord.suffixIn_of_user huser', String.append_assoc, String.append_assoc]
  · intro first hfirst second hsecond text hextends hnone husers huser
    apply LogRecord.separated_of_rows (h first hfirst second hsecond) hextends
    rw [LogRecord.suffixIn_of_user huser, LogRecord.suffixIn_of_attributed hnone husers, String.append_assoc,
      String.append_assoc]
  · intro first hfirst second hsecond text hextends hnone hnever huser
    apply LogRecord.separated_of_rows (h first hfirst second hsecond) hextends
    rw [LogRecord.suffixIn_of_user huser, LogRecord.suffixIn_of_unused hnone hnever, String.append_empty]
  · intro first hfirst second hsecond hextends hnone hnever husers hnone'
    apply LogRecord.separated_of_rows (h first hfirst second hsecond) hextends
    rw [LogRecord.suffixIn_of_attributed hnone' husers, LogRecord.suffixIn_of_unused hnone hnever,
      String.append_empty]

/-- Names that tell the principals apart give them rows of their own. -/
theorem rowIn_iff (h : Distinguishable records) (hfirst : first ∈ records) (hsecond : second ∈ records) :
    first.rowIn records = second.rowIn records ↔ SamePrincipal first second := by
  constructor
  · intro hrow
    obtain ⟨hkey, hsuffix⟩ := LogRecord.keyBucket_of_rowIn h hfirst hsecond hrow
    have huser := LogRecord.user_of_suffixIn h hfirst hsecond hkey hsuffix
    exact ⟨LogRecord.keyName_of_keyBucket h hfirst hsecond hkey huser, huser⟩
  · exact LogRecord.rowIn_of_samePrincipal

end Distinguishable

/-- Two records share a row of the breakdown by principal exactly if they belong to one principal, for every two
records, exactly if no names stand for two principals. The row is the one that the summary has for them. -/
theorem principals_have_their_rows (slice : RecordSlice) :
    ((∀ first ∈ slice.records, ∀ second ∈ slice.records,
        first.rowIn slice.records = second.rowIn slice.records ↔ SamePrincipal first second) ↔
          Distinguishable slice.records) ∧
      ∀ record ∈ slice.records,
        (record.rowIn slice.records,
            KeyTotals.of (slice.records.filter (·.rowIn slice.records = record.rowIn slice.records))) ∈
          (summarize slice.records).value.byPrincipal := by
  refine ⟨⟨Distinguishable.of_rows, ?_⟩, ?_⟩
  · intro h first hfirst second hsecond
    exact h.rowIn_iff hfirst hsecond
  · intro record hmem
    have hlength : slice.records.length ≤ u64Max := by
      have := slice.length_le
      omega
    exact (mem_byPrincipal_iff hlength).mpr ⟨⟨record, hmem, rfl⟩, rfl⟩

/-- Requests of the key `a:b`, and requests of the key `a` for its user `b`. -/
def ambiguousRecords : List LogRecord :=
  [{ keyName := some "a:b" }, { keyName := some "a", openwebuiUserName := some "b" }]

/-- Both keys can be registered, and the requests of one are counted for the user of the other. -/
theorem principals_share_a_row :
    normalizeKeyName "a:b" = .ok "a:b" ∧ normalizeKeyName "a" = .ok "a" ∧
      ¬∀ first ∈ ambiguousRecords, ∀ second ∈ ambiguousRecords,
        first.rowIn ambiguousRecords = second.rowIn ambiguousRecords ↔ SamePrincipal first second := by
  refine ⟨by decide +kernel, by decide +kernel, ?_⟩
  intro h
  have hrow : ({ keyName := some "a:b" } : LogRecord).rowIn ambiguousRecords =
      ({ keyName := some "a", openwebuiUserName := some "b" } : LogRecord).rowIn ambiguousRecords := by
    decide +kernel
  have hsame := (h _ (by simp [ambiguousRecords]) _ (by simp [ambiguousRecords])).mp hrow
  cases hsame.2

end MistralrsProxy
