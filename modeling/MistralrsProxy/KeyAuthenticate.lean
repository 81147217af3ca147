import MistralrsProxy.Keys
import MistralrsProxy.Machine
import Mathlib.Data.List.Nodup

/-! Authentication of a request by its `Authorization` header. The lookup compares the digest of the presented key with
every stored one, without a branch on the outcome, and remembers the last position that matched; what makes the answer
right is that the constructor of the index rejects two equal digests. SHA-256 is a parameter. -/

namespace MistralrsProxy

open Machine (u64Max isizeMax)

/-- The fields of a header map in order; names are lowercase. -/
abbrev HeaderMap := List (String × List UInt8)

def authorization : String := "authorization"

def HeaderMap.getAll (name : String) (headers : HeaderMap) : List (List UInt8) :=
  headers.filterMap fun header => if header.1 = name then some header.2 else none

/-- The bytes that `HeaderValue::to_str` lets through: visible characters, all of them ASCII. -/
structure VisibleAscii where
  test : UInt8 → Bool
  ascii : ∀ byte, test byte = true → byte < 128

/-- `HeaderValue::to_str`. -/
def VisibleAscii.toStr (visible : VisibleAscii) (value : List UInt8) : Option (List Char) :=
  if value.all visible.test then some (value.map fun byte => Char.ofNat byte.toNat) else none

inductive AuthError where
  | missing
  | malformed
  | invalid
  | disabled
  deriving DecidableEq, Repr

namespace AuthError

def message : AuthError → String
  | .missing => "Missing Authorization header. Expected 'Bearer <API key>'."
  | .malformed => "Malformed Authorization header. Expected 'Bearer <API key>'."
  | .invalid => "Incorrect API key provided."
  | .disabled => "This API key has been disabled."

def code : AuthError → String
  | .missing | .malformed | .invalid => "invalid_api_key"
  | .disabled => "api_key_disabled"

end AuthError

/-- The outcome of authenticating one request. -/
structure Authentication where
  keySha256 : Option String
  identity : Option KeyIdentity
  result : Except AuthError Unit

def Authentication.rejected (error : AuthError) : Authentication := ⟨none, none, .error error⟩

namespace KeyIndex

/-- One comparison of the scan: keep the last matching position. -/
def scanStep (presented : Digest) (matched : Nat) (entry : Digest × Nat) : Nat :=
  if entry.1 = presented then entry.2 % 2 ^ 64 else matched

/-- The whole scan; `u64::MAX` stands for no match. -/
def scan (presented : Digest) (digests : List Digest) : Nat := digests.zipIdx.foldl (scanStep presented) u64Max

/-- The digest of the presented key and the matching identity. An index out of range would panic and gives no result. -/
def lookup (digest : String → Digest) (presented : String) (index : KeyIndex) : Option (String × Option KeyIdentity) :=
  let keySha256 := hexEncode (digest presented).val
  let position := scan (digest presented) index.digests
  if position ≠ u64Max then index.identities[position]?.map fun identity => (keySha256, some identity)
  else some (keySha256, none)

end KeyIndex

/-- `authenticate`; no result stands for a panic of the lookup. -/
def authenticate (visible : VisibleAscii) (digest : String → Digest) (headers : HeaderMap) (index : KeyIndex) :
    Option Authentication :=
  match headers.getAll authorization with
  | [] => some (.rejected .missing)
  | _ :: _ :: _ => some (.rejected .malformed)
  | [value] =>
      match visible.toStr value with
      | none => some (.rejected .malformed)
      | some text =>
          match splitAsciiWhitespace text with
          | [scheme, key] =>
              if !eqIgnoreAsciiCase scheme "bearer".toList || key.isEmpty then some (.rejected .malformed)
              else
                (index.lookup digest (String.ofList key)).map fun found =>
                  { keySha256 := some found.1
                    identity := found.2
                    result := match found.2 with
                      | some identity => if identity.disabled then .error .disabled else .ok ()
                      | none => .error .invalid }
          | _ => some (.rejected .malformed)

/-- A `Vec` of records; no allocation is larger than `isize::MAX`. -/
structure KeyRecords where
  records : List KeyRecord
  bounded : records.length ≤ isizeMax

/-- The headers present a key: one `Authorization` value, readable, with two fields of which the first is the scheme. -/
def Presents (visible : VisibleAscii) (headers : HeaderMap) (key : String) : Prop :=
  ∃ value text scheme, headers.getAll authorization = [value] ∧ visible.toStr value = some text ∧
    splitAsciiWhitespace text = [scheme, key.toList] ∧ scheme.map Char.toLower = "bearer".toList

/-- The record was issued for a key with this digest. -/
def KeyRecord.Matches (record : KeyRecord) (presented : Digest) : Prop := decodeDigest record.keySha256 = some presented

instance (record : KeyRecord) (presented : Digest) : Decidable (record.Matches presented) :=
  inferInstanceAs (Decidable (_ = _))

theorem Presents.unique {visible : VisibleAscii} {headers : HeaderMap} {first second : String}
    (hfirst : Presents visible headers first) (hsecond : Presents visible headers second) : first = second := by
  obtain ⟨value, text, scheme, hvalue, htext, hfields, _⟩ := hfirst
  obtain ⟨_, _, _, hvalue', htext', hfields', _⟩ := hsecond
  rw [hvalue, List.cons.injEq] at hvalue'
  rw [← hvalue'.1, htext, Option.some.injEq] at htext'
  rw [← htext', hfields, List.cons.injEq, List.cons.injEq] at hfields'
  exact String.toList_inj.mp hfields'.2.1

namespace KeyIndex

section Scan

variable {presented : Digest}

theorem foldl_scanStep_of_notMem {digests : List Digest} (h : presented ∉ digests) (start matched : Nat) :
    (digests.zipIdx start).foldl (scanStep presented) matched = matched := by
  induction digests generalizing start matched with
  | nil => rfl
  | cons digest digests ih =>
      rw [List.mem_cons, not_or] at h
      rw [List.zipIdx_cons, List.foldl_cons, scanStep, if_neg (Ne.symm h.1)]
      exact ih h.2 (start + 1) matched

/-- Digests that differ are matched at most once, so that the last match is the only one. -/
theorem foldl_scanStep_of_getElem? {digests : List Digest} (hnodup : digests.Nodup) {position : Nat}
    (h : digests[position]? = some presented) (start matched : Nat) :
    (digests.zipIdx start).foldl (scanStep presented) matched = (start + position) % 2 ^ 64 := by
  induction digests generalizing start matched position with
  | nil => cases h
  | cons digest digests ih =>
      rw [List.nodup_cons] at hnodup
      rw [List.zipIdx_cons, List.foldl_cons]
      cases position with
      | zero =>
          rw [List.getElem?_cons_zero, Option.some.injEq] at h
          rw [foldl_scanStep_of_notMem (h ▸ hnodup.1), scanStep, if_pos h]
          rfl
      | succ position =>
          rw [List.getElem?_cons_succ] at h
          rw [ih hnodup.2 h, Nat.add_right_comm, Nat.add_assoc]

end Scan

/-- The index holds, position by position, the digests and the identities of the records. -/
structure Indexes (index : KeyIndex) (records : List KeyRecord) : Prop where
  decoded : records.map (fun record => decodeDigest record.keySha256) = index.digests.map some
  identities_eq : index.identities = List.zipWith identityOf index.digests records
  nodup : index.digests.Nodup

theorem Indexes.push {index : KeyIndex} {earlier : List KeyRecord} (h : index.Indexes earlier) {record : KeyRecord}
    {digest : Digest} (hdigest : decodeDigest record.keySha256 = some digest) (hnew : digest ∉ index.digests) :
    Indexes ⟨index.digests ++ [digest], index.identities ++ [identityOf digest record]⟩ (earlier ++ [record]) := by
  have hlength : index.digests.length = earlier.length := by
    have hmapped := congrArg List.length h.decoded
    rw [List.length_map, List.length_map] at hmapped
    exact hmapped.symm
  refine ⟨?_, ?_, ?_⟩
  · simp [h.decoded, hdigest]
  · simp only [h.identities_eq]
    rw [List.zipWith_append hlength]
    rfl
  · rw [List.nodup_append]
    refine ⟨h.nodup, List.nodup_singleton _, ?_⟩
    intro first hfirst second hsecond
    rw [List.mem_singleton.mp hsecond]
    exact fun heq => hnew (heq ▸ hfirst)

theorem insertRecords_indexes {records earlier : List KeyRecord} {index next : KeyIndex}
    (hindex : index.Indexes earlier)
    (h : index.insertRecords records = .ok next) : next.Indexes (earlier ++ records) := by
  induction records generalizing index earlier with
  | nil =>
      cases h
      rw [List.append_nil]
      exact hindex
  | cons record rest ih =>
      rw [insertRecords] at h
      split at h
      · cases h
      · rename_i digest hdigest
        split at h
        · cases h
        · rename_i hnew
          rw [List.append_cons]
          exact ih (hindex.push hdigest hnew) h

theorem fromRecords_indexes {records : List KeyRecord} {index : KeyIndex} (h : fromRecords records = .ok index) :
    index.Indexes records := by
  unfold fromRecords at h
  split at h
  · cases h
  · split at h
    · cases h
    · have hempty : Indexes ⟨[], []⟩ [] := ⟨rfl, rfl, List.nodup_nil⟩
      exact insertRecords_indexes hempty h

namespace Indexes

variable {index : KeyIndex} {records : List KeyRecord} (hindex : index.Indexes records)
include hindex

theorem getElem?_digests (position : Nat) :
    (records[position]?).map (fun record => decodeDigest record.keySha256) = (index.digests[position]?).map some := by
  rw [← List.getElem?_map, ← List.getElem?_map, hindex.decoded]

/-- A record and its digest are at the same position. -/
theorem digest_of_record {position : Nat} {record : KeyRecord} {presented : Digest}
    (hrecord : records[position]? = some record) (hmatches : record.Matches presented) :
    index.digests[position]? = some presented := by
  have hdigests := hindex.getElem?_digests position
  rw [hrecord, Option.map_some, hmatches] at hdigests
  obtain ⟨digest, hdigest, heq⟩ := Option.map_eq_some_iff.mp hdigests.symm
  rw [hdigest, Option.some.inj heq]

theorem matches_of_mem {presented : Digest} (hmem : presented ∈ index.digests) :
    ∃ record ∈ records, record.Matches presented := by
  have hmapped : some presented ∈ index.digests.map some := List.mem_map.mpr ⟨presented, hmem, rfl⟩
  rw [← hindex.decoded] at hmapped
  exact List.mem_map.mp hmapped

theorem identity_of_record {position : Nat} {record : KeyRecord} {presented : Digest}
    (hrecord : records[position]? = some record) (hmatches : record.Matches presented) :
    index.identities[position]? = some (identityOf presented record) := by
  rw [hindex.identities_eq, List.getElem?_zipWith, hindex.digest_of_record hrecord hmatches, hrecord]

/-- At most one record matches a digest. -/
theorem length_matching_le_one (presented : Digest) :
    (records.filter fun record => decide (decodeDigest record.keySha256 = some presented)).length ≤ 1 := by
  have hcount : (records.map fun record => decodeDigest record.keySha256).count (some presented) ≤ 1 := by
    rw [hindex.decoded]
    exact List.nodup_iff_count_le_one.mp (hindex.nodup.map (Option.some_injective _)) _
  rw [← List.countP_eq_length_filter]
  rw [List.count, List.countP_map] at hcount
  refine le_trans (le_of_eq (List.countP_congr ?_)) hcount
  intro record _
  simp

theorem record_unique {presented : Digest} {first second : KeyRecord} (hfirst : first ∈ records)
    (hsecond : second ∈ records) (hfirstMatches : first.Matches presented) (hsecondMatches : second.Matches presented) :
    first = second := by
  obtain ⟨position, hposition⟩ := List.mem_iff_getElem?.mp hfirst
  obtain ⟨position', hposition'⟩ := List.mem_iff_getElem?.mp hsecond
  have hdigest := hindex.digest_of_record hposition hfirstMatches
  have hdigest' := hindex.digest_of_record hposition' hsecondMatches
  have hlt : position < index.digests.length := (List.getElem?_eq_some_iff.mp hdigest).1
  have hsame : position = position' := 
    (List.getElem?_inj hlt hindex.nodup).mp (hdigest.trans hdigest'.symm)
  rw [hsame, hposition', Option.some.injEq] at hposition
  exact hposition.symm

theorem lookup_none (digest : String → Digest) (key : String)
    (hnone : ∀ record ∈ records, ¬record.Matches (digest key)) :
    index.lookup digest key = some (hexEncode (digest key).val, none) := by
  have hnotMem : digest key ∉ index.digests := by
    intro hmem
    obtain ⟨record, hrecord, hmatches⟩ := hindex.matches_of_mem hmem
    exact hnone record hrecord hmatches
  simp only [lookup, scan, foldl_scanStep_of_notMem hnotMem]
  exact if_neg (fun h => h rfl)

/-- The position of a stored digest is never the sentinel, and the identity is found there. -/
theorem lookup_some (hbounded : records.length ≤ isizeMax) (digest : String → Digest) (key : String)
    {record : KeyRecord}
    (hmem : record ∈ records) (hmatches : record.Matches (digest key)) :
    index.lookup digest key = some (hexEncode (digest key).val, some (identityOf (digest key) record)) := by
  obtain ⟨position, hposition⟩ := List.mem_iff_getElem?.mp hmem
  have hlt : position < records.length := (List.getElem?_eq_some_iff.mp hposition).1
  have hscan : scan (digest key) index.digests = position := by
    rw [scan, foldl_scanStep_of_getElem? hindex.nodup (hindex.digest_of_record hposition hmatches), Nat.zero_add]
    apply Nat.mod_eq_of_lt
    rw [isizeMax] at hbounded
    omega
  have hsentinel : position ≠ u64Max := by
    rw [isizeMax] at hbounded
    rw [u64Max]
    omega
  simp only [lookup, hscan]
  rw [if_pos hsentinel, hindex.identity_of_record hposition hmatches, Option.map_some]

end Indexes

end KeyIndex

section Authenticate

variable {visible : VisibleAscii} {digest : String → Digest} {headers : HeaderMap} {index : KeyIndex}

/-- What is answered once a key has been presented. -/
def Authentication.ofLookup (found : String × Option KeyIdentity) : Authentication where
  keySha256 := some found.1
  identity := found.2
  result := match found.2 with
    | some identity => if identity.disabled then .error .disabled else .ok ()
    | none => .error .invalid

theorem splitAsciiWhitespace_ne_nil {text field : List Char} (h : field ∈ splitAsciiWhitespace text) :
    field.isEmpty = false := by
  simpa using (List.mem_filter.mp h).2

theorem authenticate_presented {key : String} (h : Presents visible headers key) :
    authenticate visible digest headers index = (index.lookup digest key).map Authentication.ofLookup := by
  obtain ⟨value, text, scheme, hvalue, htext, hfields, hscheme⟩ := h
  have hkey : key.toList.isEmpty = false :=
    splitAsciiWhitespace_ne_nil (hfields ▸ List.mem_cons_of_mem _ (List.mem_singleton_self _))
  have hbearer : eqIgnoreAsciiCase scheme "bearer".toList = true := by
    rw [eqIgnoreAsciiCase, hscheme]
    decide
  simp only [authenticate, hvalue, htext, hfields, hbearer, hkey, String.ofList_toList]
  rfl

/-- Headers that present no key are turned away before the lookup. -/
theorem authenticate_absent (h : ∀ key, ¬Presents visible headers key) :
    authenticate visible digest headers index = some (.rejected .missing) ∨
      authenticate visible digest headers index = some (.rejected .malformed) := by
  unfold authenticate
  split
  · exact .inl rfl
  · exact .inr rfl
  · rename_i value hvalue
    split
    · exact .inr rfl
    · rename_i text htext
      split
      · rename_i scheme key hfields
        split
        · exact .inr rfl
        · -- both checks passed, so that the second field is a presented key
          rename_i hchecks
          simp only [Bool.or_eq_true, Bool.not_eq_true', not_or, Bool.not_eq_false, eqIgnoreAsciiCase,
            beq_iff_eq] at hchecks
          refine absurd ⟨value, text, scheme, hvalue, htext, ?_, ?_⟩ (h (String.ofList key))
          · rw [hfields, String.toList_ofList]
          · rw [hchecks.1]
            decide
      · exact .inr rfl

/-- What a key means to an index that was made of these records. -/
theorem authenticate_known {records : List KeyRecord} {record : KeyRecord} {key : String}
    (hindex : KeyIndex.fromRecords records = .ok index) (hbounded : records.length ≤ isizeMax)
    (hkey : Presents visible headers key) (hmem : record ∈ records) (hmatches : record.Matches (digest key)) :
    authenticate visible digest headers index =
      some (.ofLookup (hexEncode (digest key).val, some (KeyIndex.identityOf (digest key) record))) := by
  rw [authenticate_presented hkey, (KeyIndex.fromRecords_indexes hindex).lookup_some hbounded digest key hmem hmatches]
  rfl

theorem authenticate_unknown {records : List KeyRecord} {key : String}
    (hindex : KeyIndex.fromRecords records = .ok index) (hkey : Presents visible headers key)
    (hnone : ∀ record ∈ records, ¬record.Matches (digest key)) :
    authenticate visible digest headers index = some (.ofLookup (hexEncode (digest key).val, none)) := by
  rw [authenticate_presented hkey, (KeyIndex.fromRecords_indexes hindex).lookup_none digest key hnone]
  rfl

end Authenticate

theorem hexEncode_lowercase (bytes : List UInt8) :
    ∀ char ∈ (hexEncode bytes).toList, char ∈ "0123456789abcdef".toList := by
  have hdigit : ∀ value < 16, Nat.digitChar value ∈ "0123456789abcdef".toList := by decide
  intro char hchar
  rw [hexEncode, String.toList_ofList, List.mem_flatMap] at hchar
  obtain ⟨byte, _, hpair⟩ := hchar
  have hbyte := byte.toNat_lt
  simp only [hexPair, List.mem_cons, List.not_mem_nil, or_false] at hpair
  rcases hpair with rfl | rfl
  · exact hdigit _ (by omega)
  · exact hdigit _ (Nat.mod_lt _ (by omega))

/-- The headers present the key of a stored record, enabled or not, with this identity. -/
def Resolves (visible : VisibleAscii) (digest : String → Digest) (records : List KeyRecord) (headers : HeaderMap)
    (disabled : Bool) (identity : KeyIdentity) : Prop :=
  ∃ key, Presents visible headers key ∧ ∃ record ∈ records, record.Matches (digest key) ∧
    record.disabled = disabled ∧ identity = KeyIndex.identityOf (digest key) record

section Resolves

variable {visible : VisibleAscii} {digest : String → Digest} {headers : HeaderMap} {index : KeyIndex}
variable {records : List KeyRecord} {key : String} {record : KeyRecord}

/-- A presented key and its record leave no choice. -/
theorem resolves_iff (hindex : index.Indexes records) (hkey : Presents visible headers key) (hmem : record ∈ records)
    (hmatches : record.Matches (digest key)) (disabled : Bool) (identity : KeyIdentity) :
    Resolves visible digest records headers disabled identity ↔
      record.disabled = disabled ∧ identity = KeyIndex.identityOf (digest key) record := by
  constructor
  · rintro ⟨other, hother, record', hmem', hmatches', hdisabled, hidentity⟩
    obtain rfl := hkey.unique hother
    obtain rfl := hindex.record_unique hmem hmem' hmatches hmatches'
    exact ⟨hdisabled, hidentity⟩
  · rintro ⟨hdisabled, hidentity⟩
    exact ⟨key, hkey, record, hmem, hmatches, hdisabled, hidentity⟩

theorem not_resolves (hkey : Presents visible headers key) (hnone : ∀ record ∈ records, ¬record.Matches (digest key))
    (disabled : Bool) (identity : KeyIdentity) : ¬Resolves visible digest records headers disabled identity := by
  rintro ⟨other, hother, record, hmem, hmatches, _⟩
  obtain rfl := hkey.unique hother
  exact hnone record hmem hmatches

end Resolves

/-- What an authentication says about the headers and the stored records. -/
structure Authentication.Sound (visible : VisibleAscii) (digest : String → Digest) (records : List KeyRecord)
    (headers : HeaderMap) (auth : Authentication) : Prop where
  granted : ∀ identity, auth.result = .ok () ∧ auth.identity = some identity ↔
    Resolves visible digest records headers false identity
  disabled : ∀ identity, auth.result = .error .disabled ∧ auth.identity = some identity ↔
    Resolves visible digest records headers true identity
  invalid : auth.result = .error .invalid ∧ auth.identity = none ↔
    ∃ key, Presents visible headers key ∧ ∀ record ∈ records, ¬record.Matches (digest key)
  known : auth.result = .ok () ∨ auth.result = .error .disabled → auth.identity.isSome = true
  unknown : auth.result = .error .invalid → auth.identity = none
  digest_eq : ∀ hex, auth.keySha256 = some hex ↔
    ∃ key, Presents visible headers key ∧ hex = hexEncode (digest key).val

namespace Authentication

variable {visible : VisibleAscii} {digest : String → Digest} {headers : HeaderMap} {index : KeyIndex}
variable {records : List KeyRecord} {key : String} {record : KeyRecord}

theorem sound_rejected (h : ∀ key, ¬Presents visible headers key) {error : AuthError}
    (herror : error = .missing ∨ error = .malformed) : (rejected error).Sound visible digest records headers := by
  have hresolves : ∀ disabled identity, ¬Resolves visible digest records headers disabled identity := by
    rintro disabled identity ⟨key, hkey, _⟩
    exact h key hkey
  constructor
  · intro identity
    simp [rejected, hresolves]
  · intro identity
    simp [rejected, hresolves]
  · constructor
    · rintro ⟨hresult, _⟩
      rcases herror with rfl | rfl <;> cases hresult
    · rintro ⟨key, hkey, _⟩
      exact absurd hkey (h key)
  · rintro (hresult | hresult)
    · cases hresult
    · rcases herror with rfl | rfl <;> cases hresult
  · intro _
    rfl
  · intro hex
    constructor
    · intro hhex
      cases hhex
    · rintro ⟨key, hkey, _⟩
      exact absurd hkey (h key)

theorem ofLookup_digest (hkey : Presents visible headers key) (identity : Option KeyIdentity) (hex : String) :
    (ofLookup (hexEncode (digest key).val, identity)).keySha256 = some hex ↔
      ∃ key, Presents visible headers key ∧ hex = hexEncode (digest key).val := by
  constructor
  · intro h
    exact ⟨key, hkey, (Option.some.inj h).symm⟩
  · rintro ⟨other, hother, rfl⟩
    rw [hkey.unique hother]
    rfl

theorem sound_unknown (hkey : Presents visible headers key)
    (hnone : ∀ record ∈ records, ¬record.Matches (digest key)) :
    (ofLookup (hexEncode (digest key).val, none)).Sound visible digest records headers := by
  constructor
  · intro identity
    simp [ofLookup, not_resolves hkey hnone]
  · intro identity
    simp [ofLookup, not_resolves hkey hnone]
  · exact ⟨fun _ => ⟨key, hkey, hnone⟩, fun _ => ⟨rfl, rfl⟩⟩
  · rintro (hresult | hresult) <;> cases hresult
  · intro _
    rfl
  · exact ofLookup_digest hkey none

theorem sound_known (hindex : index.Indexes records) (hkey : Presents visible headers key) (hmem : record ∈ records)
    (hmatches : record.Matches (digest key)) :
    (ofLookup (hexEncode (digest key).val, some (KeyIndex.identityOf (digest key) record))).Sound visible digest records
      headers := by
  have hresult : ∀ disabled : Bool, record.disabled = disabled →
      (ofLookup (hexEncode (digest key).val, some (KeyIndex.identityOf (digest key) record))).result =
        if disabled then .error .disabled else .ok () := by
    rintro disabled rfl
    rfl
  constructor
  · intro identity
    rw [resolves_iff hindex hkey hmem hmatches]
    cases hdisabled : record.disabled with
    | false =>
        rw [hresult false hdisabled]
        exact ⟨fun h => ⟨rfl, (Option.some.inj h.2).symm⟩, fun h => ⟨rfl, congrArg some h.2.symm⟩⟩
    | true =>
        rw [hresult true hdisabled]
        exact ⟨fun h => (by cases h.1), fun h => (by cases h.1)⟩
  · intro identity
    rw [resolves_iff hindex hkey hmem hmatches]
    cases hdisabled : record.disabled with
    | false =>
        rw [hresult false hdisabled]
        exact ⟨fun h => (by cases h.1), fun h => (by cases h.1)⟩
    | true =>
        rw [hresult true hdisabled]
        exact ⟨fun h => ⟨rfl, (Option.some.inj h.2).symm⟩, fun h => ⟨rfl, congrArg some h.2.symm⟩⟩
  · constructor
    · rintro ⟨_, hidentity⟩
      cases hidentity
    · rintro ⟨other, hother, hnone⟩
      exact absurd (hkey.unique hother ▸ hmatches) (hnone record hmem)
  · intro _
    rfl
  · intro hinvalid
    cases hdisabled : record.disabled with
    | false =>
        rw [hresult false hdisabled] at hinvalid
        cases hinvalid
    | true =>
        rw [hresult true hdisabled] at hinvalid
        cases hinvalid
  · exact ofLookup_digest hkey _

end Authentication

/-- Exactly the enabled stored keys are granted, disabled ones are recognised, and all others are unknown. The lookup
always succeeds, at most one record answers to a digest, and the digest is reported in lowercase. -/
theorem authenticate_grants_enabled_keys (visible : VisibleAscii) (digest : String → Digest) (store : KeyRecords)
    (index : KeyIndex) (h : KeyIndex.fromRecords store.records = .ok index) (headers : HeaderMap) :
    ∃ auth, authenticate visible digest headers index = some auth ∧
      auth.Sound visible digest store.records headers ∧
      (∀ presented, (store.records.filter fun record =>
        decide (decodeDigest record.keySha256 = some presented)).length ≤ 1) ∧
      ∀ hex, auth.keySha256 = some hex → ∀ char ∈ hex.toList, char ∈ "0123456789abcdef".toList := by
  have hindex := KeyIndex.fromRecords_indexes h
  have hsound : ∃ auth, authenticate visible digest headers index = some auth ∧
      auth.Sound visible digest store.records headers := by
    by_cases hpresents : ∃ key, Presents visible headers key
    · obtain ⟨key, hkey⟩ := hpresents
      rw [authenticate_presented hkey]
      by_cases hstored : ∃ record ∈ store.records, record.Matches (digest key)
      · obtain ⟨record, hmem, hmatches⟩ := hstored
        rw [hindex.lookup_some store.bounded digest key hmem hmatches]
        exact ⟨_, rfl, Authentication.sound_known hindex hkey hmem hmatches⟩
      · have hnone : ∀ record ∈ store.records, ¬record.Matches (digest key) := by
          intro record hmem hmatches
          exact hstored ⟨record, hmem, hmatches⟩
        rw [hindex.lookup_none digest key hnone]
        exact ⟨_, rfl, Authentication.sound_unknown hkey hnone⟩
    · have habsent : ∀ key, ¬Presents visible headers key := fun key hkey => hpresents ⟨key, hkey⟩
      have hrejected : authenticate visible digest headers index = some (.rejected .missing) ∨
          authenticate visible digest headers index = some (.rejected .malformed) := authenticate_absent habsent
      rcases hrejected with heq | heq
      · exact ⟨_, heq, Authentication.sound_rejected habsent (.inl rfl)⟩
      · exact ⟨_, heq, Authentication.sound_rejected habsent (.inr rfl)⟩
  obtain ⟨auth, hauth, hsound⟩ := hsound
  refine ⟨auth, hauth, hsound, hindex.length_matching_le_one, ?_⟩
  intro hex hhex
  obtain ⟨key, _, rfl⟩ := (hsound.digest_eq hex).mp hhex
  exact hexEncode_lowercase _

/-- Spaces, tabs and the other printable characters. -/
def printableAscii : VisibleAscii where
  test := fun byte => (32 ≤ byte && byte < 127) || byte == 9
  ascii := by
    intro byte h
    simp only [Bool.or_eq_true, Bool.and_eq_true, decide_eq_true_eq, beq_iff_eq] at h
    rcases h with ⟨_, hlt⟩ | rfl
    · exact UInt8.lt_trans hlt (by decide)
    · decide

def aliceKey : String := "eb_AAAAAAAA_BBBBBBBBBBBBBBBBBBBBBBBBBBBBBBBB"

/-- SHA-256 of that key; other keys have other digests. -/
def aliceDigest (key : String) : Digest :=
  if key = aliceKey then
    ⟨[32, 28, 158, 82, 197, 184, 136, 173, 202, 153, 109, 234, 250, 104, 140, 166, 226, 69, 202, 115,
      174, 148, 228, 167, 106, 67, 247, 115, 9, 177, 47, 63], rfl⟩
  else ⟨List.replicate 32 0, rfl⟩

def aliceRecords : KeyRecords where
  records := [⟨"retired", "CCCCCCCC", hexEncode (List.replicate 32 255), false, true, 0⟩,
    ⟨"alice", "AAAAAAAA", "201C9E52C5B888ADCA996DEAFA688CA6E245CA73AE94E4A76A43F77309B12F3F", true, false, 0⟩]
  bounded := by decide

def aliceHeaders : HeaderMap :=
  [("host", []), (authorization, ("bEaReR  " ++ aliceKey).toList.map fun char => UInt8.ofNat char.toNat)]

/-- The scheme is case-insensitive and several spaces may follow it; the digest is stored in uppercase here. -/
theorem authenticate_grants_enabled_keys_alice :
    ∃ index auth, KeyIndex.fromRecords aliceRecords.records = .ok index ∧
      authenticate printableAscii aliceDigest aliceHeaders index = some auth ∧ auth.result = .ok () ∧
      auth.identity = some ⟨"alice", "AAAAAAAA", hexEncode (aliceDigest aliceKey).val, true, false⟩ := by
  have hrecords : ∃ index, KeyIndex.fromRecords aliceRecords.records = .ok index := ⟨_, rfl⟩
  obtain ⟨index, hindex⟩ := hrecords
  obtain ⟨auth, hauth, hsound, _⟩ :=
    authenticate_grants_enabled_keys printableAscii aliceDigest aliceRecords index hindex aliceHeaders
  have hkey : Presents printableAscii aliceHeaders aliceKey :=
    ⟨("bEaReR  " ++ aliceKey).toList.map fun char => UInt8.ofNat char.toNat, ("bEaReR  " ++ aliceKey).toList,
      "bEaReR".toList, by decide +kernel, by decide +kernel, by decide +kernel, by decide +kernel⟩
  obtain ⟨hresult, hidentity⟩ := (hsound.granted _).mpr ⟨aliceKey, hkey,
    ⟨"alice", "AAAAAAAA", "201C9E52C5B888ADCA996DEAFA688CA6E245CA73AE94E4A76A43F77309B12F3F", true, false, 0⟩,
    List.mem_cons_of_mem _ (List.mem_singleton_self _), by decide +kernel, rfl, rfl⟩
  exact ⟨index, auth, hindex, hauth, hresult, hidentity⟩

end MistralrsProxy
