import MistralrsProxy.Keys
import MistralrsProxy.Utf8

/-! The format of an issued key. The parser cuts the text at fixed byte offsets, so that an underscore inside a segment
does not confuse it; the cut is made before anything says that the text is ASCII. -/

open Utf8

namespace MistralrsProxy

/-- `str::strip_prefix`. -/
def stripPrefix (lead text : List Char) : Option (List Char) :=
  if lead <+: text then some (text.drop lead.length) else none

/-- `identifier_of`; no result stands for a panic. -/
def identifierOf (key : String) : Option (Option String) :=
  match (stripPrefix keyPrefix.toList key.toList).bind (stripPrefix ['_']) with
  | none => some none
  | some rest =>
      if (encode rest).length ≠ identifierLen + 1 + secretLen then some none
      else
        match splitAt identifierLen rest with
        | none => none
        | some (identifier, rest) =>
            match stripPrefix ['_'] rest with
            | none => some none
            | some secret =>
                some (if isBase64Segment identifierLen (String.ofList identifier) &&
                    isBase64Segment secretLen (String.ofList secret)
                  then some (String.ofList identifier) else none)

/-- The key is the prefix, the identifier and a secret, joined by underscores. -/
def IssuedKey (identifier key : String) : Prop :=
  ∃ secret, isBase64Segment identifierLen identifier = true ∧ isBase64Segment secretLen secret = true ∧
    key = keyPrefix ++ "_" ++ identifier ++ "_" ++ secret

/-- The identifier is found where there is one, and there is none to be found elsewhere. -/
def Recognised (key : String) : Prop :=
  (∀ identifier, identifierOf key = some (some identifier) ↔ IssuedKey identifier key) ∧
    ((∀ identifier, ¬IssuedKey identifier key) → identifierOf key = some none)

/-- Behind the prefix there are as many bytes as a key has, and a character lies across the end of the identifier. -/
def Straddled (key : String) : Prop :=
  ∃ front char back, key.toList = keyPrefix.toList ++ '_' :: (front ++ char :: back) ∧
    (encode (front ++ char :: back)).length = identifierLen + 1 + secretLen ∧
    (encode front).length < identifierLen ∧ identifierLen < (encode front).length + char.utf8Size

theorem stripPrefix_eq_some {lead text rest : List Char} : stripPrefix lead text = some rest ↔ text = lead ++ rest := by
  unfold stripPrefix
  constructor
  · intro h
    split at h
    · rename_i hlead
      obtain ⟨tail, rfl⟩ := hlead
      rw [List.drop_left] at h
      rw [Option.some.inj h]
    · cases h
  · rintro rfl
    rw [if_pos (List.prefix_append lead rest), List.drop_left]

theorem stripLead_eq_some {key : String} {rest : List Char} :
    (stripPrefix keyPrefix.toList key.toList).bind (stripPrefix ['_']) = some rest ↔
      key.toList = keyPrefix.toList ++ '_' :: rest := by
  rw [Option.bind_eq_some_iff]
  constructor
  · rintro ⟨middle, hmiddle, hrest⟩
    rw [stripPrefix_eq_some.mp hmiddle, stripPrefix_eq_some.mp hrest]
    rfl
  · intro h
    exact ⟨'_' :: rest, stripPrefix_eq_some.mpr h, stripPrefix_eq_some.mpr rfl⟩

/-- Segments are ASCII, so they are as long in bytes as in characters. -/
theorem encode_isBase64Segment {length : Nat} {segment : String} (h : isBase64Segment length segment = true) :
    (encode segment.toList).length = length := by
  obtain ⟨hlength, hall⟩ := Bool.and_eq_true_iff.mp h
  have hascii : ∀ char ∈ segment.toList, char.toNat < 128 := by
    intro char hchar
    have htest := List.all_eq_true.mp hall char hchar
    by_contra hhigh
    have hhigh : 128 ≤ char.toNat := Nat.not_lt.mp hhigh
    rw [Char.isAlphanum, isAlpha_other hhigh, isDigit_other hhigh, beq_other hhigh (by decide),
      beq_other hhigh (by decide)] at htest
    cases htest
  rw [encode_ascii hascii, List.length_map]
  exact eq_of_beq hlength

/-- An identifier is found exactly in the issued keys. -/
theorem identifierOf_eq_some {identifier key : String} :
    identifierOf key = some (some identifier) ↔ IssuedKey identifier key := by
  constructor
  · intro h
    unfold identifierOf at h
    split at h
    · cases h
    · rename_i rest hlead
      split at h
      · cases h
      · split at h
        · cases h
        · rename_i front tail hcut
          split at h
          · cases h
          · rename_i secret hsecret
            split_ifs at h with hsegments
            · obtain rfl : String.ofList front = identifier := by simpa using h
              obtain ⟨hfront, hback⟩ := Bool.and_eq_true_iff.mp hsegments
              obtain ⟨rfl, -⟩ := splitAt_eq_some.mp hcut
              obtain rfl := stripPrefix_eq_some.mp hsecret
              refine ⟨String.ofList secret, hfront, hback, ?_⟩
              rw [← String.toList_inj, stripLead_eq_some.mp hlead]
              simp
            · cases h
  · rintro ⟨secret, hidentifier, hsecret, rfl⟩
    have hlead : (stripPrefix keyPrefix.toList (keyPrefix ++ "_" ++ identifier ++ "_" ++ secret).toList).bind
        (stripPrefix ['_']) = some (identifier.toList ++ '_' :: secret.toList) := by
      rw [stripLead_eq_some]
      simp
    have hidentifierSize := encode_isBase64Segment hidentifier
    have hsecretSize := encode_isBase64Segment hsecret
    have hlength : (encode (identifier.toList ++ '_' :: secret.toList)).length = identifierLen + 1 + secretLen := by
      rw [encode_append, encode_cons, List.length_append, List.length_append, hidentifierSize, hsecretSize]
      rfl
    have hcut : splitAt identifierLen (identifier.toList ++ '_' :: secret.toList) =
        some (identifier.toList, '_' :: secret.toList) := splitAt_eq_some.mpr ⟨rfl, hidentifierSize⟩
    have hsecretPart : stripPrefix ['_'] ('_' :: secret.toList) = some secret.toList := stripPrefix_eq_some.mpr rfl
    simp only [identifierOf, hlead, hlength, hcut, hsecretPart, String.ofList_toList, hidentifier, hsecret]
    rfl

/-- The cut fails exactly inside a character. -/
theorem identifierOf_eq_none {key : String} : identifierOf key = none ↔ Straddled key := by
  constructor
  · intro h
    unfold identifierOf at h
    split at h
    · cases h
    · rename_i rest hlead
      split at h
      · cases h
      · rename_i hlength
        rw [not_not] at hlength
        split at h
        · rename_i hcut
          have hlong : ¬(encode rest).length < identifierLen := by
            rw [hlength]
            decide
          obtain ⟨front, char, back, rfl, hbefore, hafter⟩ := (splitAt_eq_none.mp hcut).resolve_left hlong
          exact ⟨front, char, back, stripLead_eq_some.mp hlead, hlength, hbefore, hafter⟩
        · split at h
          · cases h
          · cases h
  · rintro ⟨front, char, back, hkey, hlength, hbefore, hafter⟩
    have hlead := stripLead_eq_some.mpr hkey
    have hcut : splitAt identifierLen (front ++ char :: back) = none :=
      splitAt_eq_none.mpr (.inr ⟨front, char, back, rfl, hbefore, hafter⟩)
    simp only [identifierOf, hlead, hlength, hcut]
    rfl

theorem not_recognised_of_none {key : String} (h : identifierOf key = none) : ¬Recognised key := by
  rintro ⟨hsome, hnone⟩
  have hunissued : ∀ identifier, ¬IssuedKey identifier key := by
    intro identifier hissued
    rw [(hsome identifier).mpr hissued] at h
    cases h
  rw [hnone hunissued] at h
  cases h

/-- A key is told from other texts unless a character lies across the end of what would be the identifier; for a
generated key the identifier of the record is found. -/
theorem key_format_iff (key : String) :
    (Recognised key ↔ ¬Straddled key) ∧
      ∀ (digest : String → Digest) (name : String) (admin : Bool) (segments : KeySegments) (nowUnixMs : Nat),
        identifierOf (KeyRecord.generate digest name admin segments nowUnixMs).2 =
          some (some (KeyRecord.generate digest name admin segments nowUnixMs).1.identifier) := by
  constructor
  · rw [← identifierOf_eq_none]
    constructor
    · intro hrecognised hpanic
      exact not_recognised_of_none hpanic hrecognised
    · intro hreturns
      refine ⟨fun identifier => identifierOf_eq_some, ?_⟩
      intro hunissued
      obtain ⟨result, hresult⟩ := Option.ne_none_iff_exists'.mp hreturns
      cases result with
      | none => exact hresult
      | some identifier => exact absurd (identifierOf_eq_some.mp hresult) (hunissued identifier)
  · intro digest name admin segments nowUnixMs
    exact identifierOf_eq_some.mpr ⟨segments.secret, segments.identifierOk, segments.secretOk, rfl⟩

/-- Seven letters, a letter of two bytes and 32 more: 41 bytes, and the cut at the eighth has no result. -/
theorem key_format_straddled :
    identifierOf "eb_AAAAAAAéBBBBBBBBBBBBBBBBBBBBBBBBBBBBBBBB" = none ∧
      ¬Recognised "eb_AAAAAAAéBBBBBBBBBBBBBBBBBBBBBBBBBBBBBBBB" := by
  have hpanic : identifierOf "eb_AAAAAAAéBBBBBBBBBBBBBBBBBBBBBBBBBBBBBBBB" = none := by decide +kernel
  exact ⟨hpanic, not_recognised_of_none hpanic⟩

end MistralrsProxy
