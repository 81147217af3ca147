import MistralrsProxy.Keys

/-! The two validators of a key file. One is run when the file is saved and compares digests as hexadecimal text without
regard to case, the other when it is served and compares the decoded bytes. Decoding is injective up to case, so a file
that passes the first passes the second. -/

namespace MistralrsProxy

/-- A digit stands for its value, and its lowercase form is the digit that is printed for the value. -/
theorem hexValue_eq_some {char : Char} {value : Nat} (h : hexValue char = some value) :
    value < 16 ∧ Nat.digitChar value = char.toLower := by
  have hdigits : ∀ code : Nat, code < 103 → ∀ value ∈ hexValue (Char.ofNat code),
      value < 16 ∧ Nat.digitChar value = (Char.ofNat code).toLower := by
    decide +kernel
  have hcode : char.toNat < 103 := by
    unfold hexValue at h
    have hle : ∀ bound : Char, char ≤ bound → char.toNat ≤ bound.toNat := fun bound hle => hle
    have hbounds : '9'.toNat < 103 ∧ 'f'.toNat < 103 ∧ 'F'.toNat < 103 := by decide
    split_ifs at h with hdecimal hlower hupper
    · exact (hle '9' hdecimal.2).trans_lt hbounds.1
    · exact (hle 'f' hlower.2).trans_lt hbounds.2.1
    · exact (hle 'F' hupper.2).trans_lt hbounds.2.2
  rw [← Char.ofNat_toNat char] at h ⊢
  exact hdigits char.toNat hcode value h

/-- What was decoded prints as the same text in lower case. -/
theorem flatMap_hexPair_of_decodePairs : ∀ {chars : List Char} {bytes : List UInt8}, decodePairs chars = some bytes →
    bytes.flatMap hexPair = chars.map Char.toLower
  | [], bytes, h => by
      obtain rfl := Option.some.inj h
      rfl
  | [_], _, h => by cases h
  | high :: low :: rest, bytes, h => by
      rw [decodePairs] at h
      obtain ⟨highValue, hhigh, h⟩ := Option.bind_eq_some_iff.mp h
      obtain ⟨lowValue, hlow, h⟩ := Option.bind_eq_some_iff.mp h
      obtain ⟨tail, htail, rfl⟩ := Option.map_eq_some_iff.mp h
      obtain ⟨hhighLt, hhighChar⟩ := hexValue_eq_some hhigh
      obtain ⟨hlowLt, hlowChar⟩ := hexValue_eq_some hlow
      have hbyte : (UInt8.ofNat (highValue * 16 + lowValue)).toNat = highValue * 16 + lowValue := by
        rw [UInt8.toNat_ofNat']
        exact Nat.mod_eq_of_lt (by omega)
      have hquotient : (highValue * 16 + lowValue) / 16 = highValue := by omega
      have hremainder : (highValue * 16 + lowValue) % 16 = lowValue := by omega
      rw [List.flatMap_cons, hexPair, hbyte, hquotient, hremainder, hhighChar, hlowChar,
        flatMap_hexPair_of_decodePairs htail]
      rfl

/-- The printed form of a decoded digest is the text it came from, in lower case. -/
theorem hexEncode_of_decodeDigest {hex : String} {digest : Digest} (h : decodeDigest hex = some digest) :
    hexEncode digest.val = hex.toLower := by
  unfold decodeDigest at h
  split at h
  · cases h
  · obtain ⟨bytes, hbytes, h⟩ := Option.bind_eq_some_iff.mp h
    split at h
    · obtain rfl := Option.some.inj h
      rw [hexEncode, flatMap_hexPair_of_decodePairs hbytes, ← String.toList_map, String.ofList_toList]
      rfl
    · cases h

/-- Two texts decode to the same digest if they differ only in case. -/
theorem decodeDigest_eq_iff {left right : String} {leftDigest rightDigest : Digest}
    (hleft : decodeDigest left = some leftDigest) (hright : decodeDigest right = some rightDigest) :
    left.toLower = right.toLower ↔ leftDigest = rightDigest := by
  rw [← hexEncode_of_decodeDigest hleft, ← hexEncode_of_decodeDigest hright]
  constructor
  · intro h
    have hdecoded : some leftDigest = some rightDigest := by
      rw [← decodeDigest_hexEncode leftDigest, ← decodeDigest_hexEncode rightDigest, h]
    exact Option.some.inj hdecoded
  · intro h
    rw [h]

/-- What a key that passes has to show. -/
theorem KeyRecord.validate_ok {earlier : List KeyRecord} {key : KeyRecord} (h : key.validate earlier = .ok ()) :
    (∃ digest, decodeDigest key.keySha256 = some digest) ∧
      ∀ other ∈ earlier, other.keySha256.toLower ≠ key.keySha256.toLower := by
  unfold KeyRecord.validate at h
  simp only at h
  split_ifs at h with hname hidentifier hdigest hrepeated hduplicate
  refine ⟨Option.ne_none_iff_exists'.mp hdigest, ?_⟩
  intro other hother heq
  exact hduplicate (List.any_eq_true.mpr ⟨other, hother, beq_iff_eq.mpr heq⟩)

namespace KeyIndex

/-- The index that serves the given keys, each with its digest. -/
def ofKeys (digests : List Digest) (keys : List KeyRecord) : KeyIndex :=
  ⟨digests, List.zipWith identityOf digests keys⟩

theorem ofKeys_concat {digests : List Digest} {keys : List KeyRecord} (h : digests.length = keys.length)
    (digest : Digest) (key : KeyRecord) :
    ofKeys (digests ++ [digest]) (keys ++ [key]) =
      ⟨(ofKeys digests keys).digests ++ [digest], (ofKeys digests keys).identities ++ [identityOf digest key]⟩ := by
  unfold ofKeys
  rw [List.zipWith_append h]
  rfl

/-- The loop goes through for keys that the other validator let pass, behind keys that are already in the index. -/
theorem insertRecords_of_validateKeys {rest : List KeyRecord} {earlier : List KeyRecord} {digests : List Digest}
    (hdigests : digests.map some = earlier.map fun key => decodeDigest key.keySha256)
    (hvalid : KeyFile.validateKeys earlier rest = .ok ()) :
    ∃ more, (digests ++ more).map some = (earlier ++ rest).map (fun key => decodeDigest key.keySha256) ∧
      (ofKeys digests earlier).insertRecords rest = .ok (ofKeys (digests ++ more) (earlier ++ rest)) := by
  induction rest generalizing earlier digests with
  | nil => exact ⟨[], by simpa using hdigests, by simp [insertRecords]⟩
  | cons key rest ih =>
      rw [KeyFile.validateKeys] at hvalid
      split at hvalid
      · cases hvalid
      · rename_i hkey
        obtain ⟨⟨digest, hdigest⟩, hfresh⟩ := KeyRecord.validate_ok hkey
        have hlength : digests.length = earlier.length := by
          simpa using congrArg List.length hdigests
        have hnew : digest ∉ (ofKeys digests earlier).digests := by
          intro hmem
          have hsome : some digest ∈ earlier.map fun key => decodeDigest key.keySha256 := by
            rw [← hdigests]
            exact List.mem_map_of_mem hmem
          obtain ⟨other, hother, hsame⟩ := List.mem_map.mp hsome
          exact hfresh other hother ((decodeDigest_eq_iff hsame hdigest).mpr rfl)
        have hextended : (digests ++ [digest]).map some =
            (earlier ++ [key]).map fun key => decodeDigest key.keySha256 := by
          rw [List.map_append, List.map_append, hdigests, List.map_singleton, List.map_singleton, hdigest]
        obtain ⟨more, hmore, hinserted⟩ := ih hextended hvalid
        rw [ofKeys_concat hlength] at hinserted
        refine ⟨digest :: more, ?_, ?_⟩
        · simpa only [List.append_assoc, List.singleton_append] using hmore
        · rw [insertRecords, hdigest]
          simp only
          rw [if_neg hnew, hinserted, List.append_assoc, List.append_assoc]
          rfl

end KeyIndex

/-- A key file that can be saved and has an enabled key can be served: the index has one entry per key, in the order of
the file. Digests survive their printed form, the printed form of a decoded digest is its text in lower case, and so the
two comparisons reject the same pairs. -/
theorem key_validators_agree :
    (∀ file : KeyFile, file.validate = .ok () → (∃ key ∈ file.keys, key.disabled = false) →
      ∃ digests, digests.map some = file.keys.map (fun key => decodeDigest key.keySha256) ∧
        KeyIndex.fromRecords file.keys = .ok ⟨digests, List.zipWith KeyIndex.identityOf digests file.keys⟩) ∧
    (∀ digest : Digest, decodeDigest (hexEncode digest.val) = some digest) ∧
    (∀ hex digest, decodeDigest hex = some digest → hexEncode digest.val = hex.toLower) ∧
    ∀ left right, decodeDigest left ≠ none → decodeDigest right ≠ none →
      (left.toLower = right.toLower ↔ decodeDigest left = decodeDigest right) := by
  refine ⟨?_, decodeDigest_hexEncode, fun _ _ h => hexEncode_of_decodeDigest h, ?_⟩
  · intro file hvalid henabled
    obtain ⟨enabled, hmem, henabled⟩ := henabled
    have hkeys : KeyFile.validateKeys [] file.keys = .ok () := by
      unfold KeyFile.validate at hvalid
      split at hvalid
      · cases hvalid
      · exact hvalid
    have hsome : ¬file.keys = [] := List.ne_nil_of_mem hmem
    have hany : file.keys.any (fun record => !record.disabled) = true :=
      List.any_eq_true.mpr ⟨enabled, hmem, by rw [henabled]; rfl⟩
    have hnone : ([] : List Digest).map some = ([] : List KeyRecord).map fun key => decodeDigest key.keySha256 := rfl
    obtain ⟨digests, hdigests, hinserted⟩ := KeyIndex.insertRecords_of_validateKeys hnone hkeys
    refine ⟨digests, by simpa using hdigests, ?_⟩
    rw [KeyIndex.fromRecords, if_neg hsome, hany]
    exact hinserted
  · intro left right hleft hright
    obtain ⟨leftDigest, hleft⟩ := Option.ne_none_iff_exists'.mp hleft
    obtain ⟨rightDigest, hright⟩ := Option.ne_none_iff_exists'.mp hright
    rw [decodeDigest_eq_iff hleft hright, hleft, hright, Option.some_inj]

/-- Two keys, one of them disabled and the other with a digest in capitals. -/
def mixedCaseFile : KeyFile :=
  ⟨1, [⟨"a", "AAAAAAAA", String.ofList (List.replicate 64 'A'), true, false, 0⟩,
    ⟨"b", "BBBBBBBB", String.ofList (List.replicate 64 'b'), false, true, 0⟩]⟩

theorem key_validators_agree_mixed : mixedCaseFile.validate = .ok () ∧
    ∃ digests : List Digest, KeyIndex.fromRecords mixedCaseFile.keys =
      .ok ⟨digests, List.zipWith KeyIndex.identityOf digests mixedCaseFile.keys⟩ := by
  have hvalid : mixedCaseFile.validate = .ok () := by decide +kernel
  obtain ⟨digests, -, hserved⟩ := key_validators_agree.1 mixedCaseFile hvalid (by decide +kernel)
  exact ⟨hvalid, digests, hserved⟩

end MistralrsProxy
