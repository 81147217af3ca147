import MistralrsProxy.Keys
import MistralrsProxy.Utf8

/-! Percent-decoding of the display name of a user. The two bytes behind a percent sign are handed to the integer parser
of the standard library, which takes a plus sign in front of the digits; the grammar has no sign. -/

open Utf8

namespace MistralrsProxy

/-- The digits of an integer of eight bits in base sixteen. -/
def radixDigits (digits : List Char) : Option Nat :=
  digits.foldlM (fun value char => (hexValue char).bind fun digit =>
    if value * 16 + digit < 256 then some (value * 16 + digit) else none) 0

/-- `u8::from_str_radix` in base sixteen: an optional plus sign and at least one digit, in range. -/
def fromStrRadix (text : List Char) : Option UInt8 :=
  match text with
  | [] => none
  | ['+'] => none
  | '+' :: digits => (radixDigits digits).map UInt8.ofNat
  | digits => (radixDigits digits).map UInt8.ofNat

/-- What the bytes behind a percent sign are decoded to. -/
def hexEscape (hex : List UInt8) : Option UInt8 := (fromUtf8 hex).bind fromStrRadix

/-- The loop of `percent_decode`. -/
def percentDecodeBytes : List UInt8 → List UInt8
  | [] => []
  | byte :: high :: low :: rest =>
      match if byte = 37 then hexEscape [high, low] else none with
      | some decoded => decoded :: percentDecodeBytes rest
      | none => byte :: percentDecodeBytes (high :: low :: rest)
  | byte :: rest => byte :: percentDecodeBytes rest

/-- `String::from_utf8_lossy`, of which only the bytes of a text matter here. -/
structure LossyDecoder where
  decode : List UInt8 → List Char
  valid : ∀ text, decode (encode text) = text

def percentDecode (lossy : LossyDecoder) (value : List Char) : List Char :=
  lossy.decode (percentDecodeBytes (encode value))

/-- The value of a byte that is a hexadecimal digit. -/
def hexDigit (byte : UInt8) : Option Nat := hexValue (Char.ofNat byte.toNat)

/-- The decoding that the grammar describes. -/
def percentReference : List UInt8 → List UInt8
  | [] => []
  | byte :: high :: low :: rest =>
      match byte == 37, hexDigit high, hexDigit low with
      | true, some highValue, some lowValue => UInt8.ofNat (highValue * 16 + lowValue) :: percentReference rest
      | _, _, _ => byte :: percentReference (high :: low :: rest)
  | byte :: rest => byte :: percentReference rest

/-- Somewhere a percent sign is followed by a plus sign and a digit. -/
def SignedEscape (bytes : List UInt8) : Prop := ∃ low, (hexDigit low).isSome = true ∧ [37, 43, low] <:+: bytes

/-- The escape of a byte, in capitals. -/
def percentEscape (byte : UInt8) : List UInt8 :=
  [37, UInt8.ofNat (Nat.digitChar (byte.toNat / 16)).toUpper.toNat,
    UInt8.ofNat (Nat.digitChar (byte.toNat % 16)).toUpper.toNat]

/-- Percent-encoding, for any choice of the bytes that are left as they are. -/
def percentEncode (keep : UInt8 → Bool) (bytes : List UInt8) : List UInt8 :=
  bytes.flatMap fun byte => if keep byte then [byte] else percentEscape byte

section Digits

theorem hexValue_ascii {char : Char} {value : Nat} (h : hexValue char = some value) :
    char.toNat < 128 ∧ value < 16 := by
  unfold hexValue at h
  have hle : ∀ low high : Char, low ≤ char ∧ char ≤ high → low.toNat ≤ char.toNat ∧ char.toNat ≤ high.toNat :=
    fun low high hbounds => hbounds
  have hcodes : '0'.toNat = 48 ∧ '9'.toNat = 57 ∧ 'a'.toNat = 97 ∧ 'f'.toNat = 102 ∧ 'A'.toNat = 65 ∧
      'F'.toNat = 70 := by
    decide
  split_ifs at h with hdecimal hlower hupper
  · have hbounds := hle _ _ hdecimal
    obtain rfl := Option.some.inj h
    omega
  · have hbounds := hle _ _ hlower
    obtain rfl := Option.some.inj h
    omega
  · have hbounds := hle _ _ hupper
    obtain rfl := Option.some.inj h
    omega

theorem hexDigit_lt {byte : UInt8} {value : Nat} (h : hexDigit byte = some value) : byte.toNat < 128 ∧ value < 16 := by
  obtain ⟨hchar, hvalue⟩ := hexValue_ascii h
  have hbyte := byte.toNat_lt
  rw [toNat_charOfNat (by omega)] at hchar
  exact ⟨hchar, hvalue⟩

/-- A byte below 128 is the whole encoding of its character. -/
theorem encode_pair {high low : UInt8} (hhigh : high.toNat < 128) (hlow : low.toNat < 128) :
    encode [Char.ofNat high.toNat, Char.ofNat low.toNat] = [high, low] := by
  have hhighCode : (Char.ofNat high.toNat).toNat = high.toNat := toNat_charOfNat (by omega)
  have hlowCode : (Char.ofNat low.toNat).toNat = low.toNat := toNat_charOfNat (by omega)
  have hascii : ∀ char ∈ [Char.ofNat high.toNat, Char.ofNat low.toNat], char.toNat < 128 := by
    intro char hchar
    rcases List.mem_pair.mp hchar with rfl | rfl
    · rwa [hhighCode]
    · rwa [hlowCode]
  rw [encode_ascii hascii]
  simp [hhighCode, hlowCode]

theorem radixDigits_single (char : Char) : radixDigits [char] = hexValue char := by
  cases hvalue : hexValue char with
  | none => simp [radixDigits, hvalue]
  | some value =>
      have hlt := (hexValue_ascii hvalue).2
      have hrange : value < 256 := by omega
      simp [radixDigits, hvalue, hrange]

theorem radixDigits_pair (high low : Char) :
    radixDigits [high, low] = (hexValue high).bind fun highValue => (hexValue low).map fun lowValue =>
      highValue * 16 + lowValue := by
  cases hhigh : hexValue high with
  | none => simp [radixDigits, hhigh]
  | some highValue =>
      have hhighLt := (hexValue_ascii hhigh).2
      have hfirst : highValue < 256 := by omega
      cases hlow : hexValue low with
      | none => simp [radixDigits, hhigh, hlow, hfirst]
      | some lowValue =>
          have hlowLt := (hexValue_ascii hlow).2
          have hsecond : highValue * 16 + lowValue < 256 := by omega
          simp [radixDigits, hhigh, hlow, hfirst, hsecond]

theorem fromStrRadix_pair (high low : Char) :
    fromStrRadix [high, low] =
      if high = '+' then (hexValue low).map UInt8.ofNat
      else (hexValue high).bind fun highValue => (hexValue low).map fun lowValue =>
        UInt8.ofNat (highValue * 16 + lowValue) := by
  split
  · rename_i hsign
    rw [hsign]
    show (radixDigits [low]).map UInt8.ofNat = _
    rw [radixDigits_single]
  · rename_i hdigit
    have hplain : fromStrRadix [high, low] = (radixDigits [high, low]).map UInt8.ofNat := by
      unfold fromStrRadix
      split
      · rename_i hnil
        cases hnil
      · rename_i hsign
        cases hsign
      · rename_i digits _ hsign
        exact absurd (List.cons.inj hsign).1 hdigit
      · rfl
    rw [hplain, radixDigits_pair]
    cases hexValue high with
    | none => rfl
    | some highValue =>
        cases hexValue low with
        | none => rfl
        | some lowValue => rfl

theorem foldlM_radix_ascii {step : Nat → Nat → Option Nat} {digits : List Char} {start value : Nat}
    (h : digits.foldlM (fun value char => (hexValue char).bind (step value)) start = some value) :
    ∀ char ∈ digits, char.toNat < 128 := by
  induction digits generalizing start with
  | nil => simp
  | cons first digits ih =>
      rw [List.foldlM_cons] at h
      obtain ⟨next, hnext, hrest⟩ := Option.bind_eq_some_iff.mp h
      obtain ⟨digit, hdigit, -⟩ := Option.bind_eq_some_iff.mp hnext
      intro char hchar
      rcases List.mem_cons.mp hchar with rfl | hchar
      · exact (hexValue_ascii hdigit).1
      · exact ih hrest char hchar

/-- The integer parser takes nothing but ASCII. -/
theorem fromStrRadix_ascii {text : List Char} {decoded : UInt8} (h : fromStrRadix text = some decoded) :
    ∀ char ∈ text, char.toNat < 128 := by
  unfold fromStrRadix at h
  split at h
  · cases h
  · cases h
  · rename_i digits _
    obtain ⟨value, hvalue, -⟩ := Option.map_eq_some_iff.mp h
    intro char hchar
    rcases List.mem_cons.mp hchar with rfl | hchar
    · decide
    · exact foldlM_radix_ascii hvalue char hchar
  · obtain ⟨value, hvalue, -⟩ := Option.map_eq_some_iff.mp h
    exact foldlM_radix_ascii hvalue

theorem hexDigit_other {byte : UInt8} (h : 128 ≤ byte.toNat) : hexDigit byte = none := by
  by_contra hsome
  obtain ⟨value, hvalue⟩ := Option.ne_none_iff_exists'.mp hsome
  exact absurd (hexDigit_lt hvalue).1 (Nat.not_lt.mpr h)

/-- Two digits, or a plus sign and a digit. -/
theorem hexEscape_pair (high low : UInt8) :
    hexEscape [high, low] =
      if high = 43 then (hexDigit low).map UInt8.ofNat
      else (hexDigit high).bind fun highValue => (hexDigit low).map fun lowValue =>
        UInt8.ofNat (highValue * 16 + lowValue) := by
  by_cases hascii : high.toNat < 128 ∧ low.toNat < 128
  · have hplus : Char.ofNat high.toNat = '+' ↔ high = 43 := by
      rw [← Char.toNat_inj, toNat_charOfNat (by omega), ← UInt8.toNat_inj]
      rfl
    rw [hexEscape, ← encode_pair hascii.1 hascii.2, fromUtf8_encode, Option.bind_some, fromStrRadix_pair]
    simp only [hplus]
    rfl
  · have hrefused : hexEscape [high, low] = none := by
      by_contra hsome
      obtain ⟨decoded, hdecoded⟩ := Option.ne_none_iff_exists'.mp hsome
      obtain ⟨text, htext, hparsed⟩ := Option.bind_eq_some_iff.mp hdecoded
      have hchars := fromStrRadix_ascii hparsed
      have hbytes : ∀ byte ∈ [high, low], byte.toNat < 128 := by
        intro byte hbyte
        rw [fromUtf8_eq_some htext, encode_ascii hchars] at hbyte
        obtain ⟨char, hchar, rfl⟩ := List.mem_map.mp hbyte
        rw [UInt8.toNat_ofNat', Nat.mod_eq_of_lt ((hchars char hchar).trans (by decide))]
        exact hchars char hchar
      exact hascii ⟨hbytes high (by simp), hbytes low (by simp)⟩
    rw [hrefused]
    rcases Nat.lt_or_ge high.toNat 128 with hhigh | hhigh
    · have hlow : 128 ≤ low.toNat := Nat.not_lt.mp fun hlow => hascii ⟨hhigh, hlow⟩
      rw [hexDigit_other hlow]
      cases hexDigit high with
      | none => simp
      | some value => simp
    · have hsign : high ≠ 43 := by
        rintro rfl
        exact absurd hhigh (by decide)
      rw [if_neg hsign, hexDigit_other hhigh]
      rfl

end Digits

section Scan

variable {byte high low : UInt8} {rest : List UInt8}

theorem percentDecodeBytes_ne (h : byte ≠ 37) (rest : List UInt8) :
    percentDecodeBytes (byte :: rest) = byte :: percentDecodeBytes rest := by
  match rest with
  | [] => rfl
  | [_] => rfl
  | _ :: _ :: _ => rw [percentDecodeBytes, if_neg h]

theorem percentReference_ne (h : byte ≠ 37) (rest : List UInt8) :
    percentReference (byte :: rest) = byte :: percentReference rest := by
  match rest with
  | [] => rfl
  | [_] => rfl
  | _ :: _ :: _ =>
      have hbeq : (byte == 37) = false := beq_eq_false_iff_ne.mpr h
      rw [percentReference, hbeq]

theorem hexDigit_percent : hexDigit 37 = none := by decide

theorem hexDigit_plus : hexDigit 43 = none := by decide

theorem hexDigit_ne {value : Nat} (h : hexDigit high = some value) : high ≠ 37 ∧ high ≠ 43 := by
  constructor
  · rintro rfl
    rw [hexDigit_percent] at h
    cases h
  · rintro rfl
    rw [hexDigit_plus] at h
    cases h

/-- Two digits behind a percent sign are read alike. -/
theorem decode_digits (rest : List UInt8) {highValue lowValue : Nat} (hhigh : hexDigit high = some highValue)
    (hlow : hexDigit low = some lowValue) :
    percentDecodeBytes (37 :: high :: low :: rest) =
        UInt8.ofNat (highValue * 16 + lowValue) :: percentDecodeBytes rest ∧
      percentReference (37 :: high :: low :: rest) =
        UInt8.ofNat (highValue * 16 + lowValue) :: percentReference rest := by
  constructor
  · rw [percentDecodeBytes, if_pos rfl, hexEscape_pair, if_neg (hexDigit_ne hhigh).2, hhigh, hlow]
    rfl
  · rw [percentReference, hhigh, hlow]
    rfl

/-- A plus sign and a digit are read by the code and left alone by the grammar. -/
theorem decode_signed (rest : List UInt8) {lowValue : Nat} (hlow : hexDigit low = some lowValue) :
    percentDecodeBytes (37 :: 43 :: low :: rest) = UInt8.ofNat lowValue :: percentDecodeBytes rest ∧
      percentReference (37 :: 43 :: low :: rest) = 37 :: 43 :: low :: percentReference rest := by
  constructor
  · rw [percentDecodeBytes, if_pos rfl, hexEscape_pair, if_pos rfl, hlow]
    rfl
  · rw [percentReference, hexDigit_plus, percentReference_ne (by decide),
      percentReference_ne (hexDigit_ne hlow).1, hlow]
    rfl

/-- Anything else behind a percent sign is left alone by both. -/
theorem decode_literal (rest : List UInt8) (hdigits : (hexDigit high).isSome = false ∨ (hexDigit low).isSome = false)
    (hsigned : ¬(high = 43 ∧ (hexDigit low).isSome = true)) :
    percentDecodeBytes (37 :: high :: low :: rest) = 37 :: percentDecodeBytes (high :: low :: rest) ∧
      percentReference (37 :: high :: low :: rest) = 37 :: percentReference (high :: low :: rest) := by
  cases hhigh : hexDigit high with
  | none =>
      cases hlow : hexDigit low with
      | none =>
          rw [percentDecodeBytes, percentReference, if_pos rfl, hexEscape_pair, hhigh, hlow]
          simp
      | some lowValue =>
          have hplain : high ≠ 43 := fun hplus => hsigned ⟨hplus, by rw [hlow]; rfl⟩
          rw [percentDecodeBytes, percentReference, if_pos rfl, hexEscape_pair, if_neg hplain, hhigh, hlow]
          simp
  | some highValue =>
      have hlow : hexDigit low = none := by
        rcases hdigits with hdigits | hdigits
        · rw [hhigh] at hdigits
          cases hdigits
        · exact Option.not_isSome_iff_eq_none.mp (by rw [hdigits]; exact Bool.false_ne_true)
      rw [percentDecodeBytes, percentReference, if_pos rfl, hexEscape_pair, hhigh, hlow]
      simp

theorem signedEscape_cons : SignedEscape (byte :: rest) ↔
    (∃ low, (hexDigit low).isSome = true ∧ [37, 43, low] <+: byte :: rest) ∨ SignedEscape rest := by
  constructor
  · rintro ⟨low, hlow, hinfix⟩
    rcases List.infix_cons_iff.mp hinfix with hlead | htail
    · exact .inl ⟨low, hlow, hlead⟩
    · exact .inr ⟨low, hlow, htail⟩
  · rintro (⟨low, hlow, hlead⟩ | ⟨low, hlow, htail⟩)
    · exact ⟨low, hlow, List.infix_cons_iff.mpr (.inl hlead)⟩
    · exact ⟨low, hlow, List.infix_cons_iff.mpr (.inr htail)⟩

theorem signedEscape_ne (h : byte ≠ 37) : SignedEscape (byte :: rest) ↔ SignedEscape rest := by
  rw [signedEscape_cons]
  constructor
  · rintro (⟨low, -, hlead⟩ | htail)
    · exact absurd (List.cons_prefix_cons.mp hlead).1 (Ne.symm h)
    · exact htail
  · exact .inr

theorem signedEscape_literal (h : ¬(high = 43 ∧ (hexDigit low).isSome = true)) :
    SignedEscape (37 :: high :: low :: rest) ↔ SignedEscape (high :: low :: rest) := by
  rw [signedEscape_cons]
  constructor
  · rintro (⟨other, hother, hlead⟩ | htail)
    · obtain ⟨-, hlead⟩ := List.cons_prefix_cons.mp hlead
      obtain ⟨hplus, hlead⟩ := List.cons_prefix_cons.mp hlead
      obtain ⟨rfl, -⟩ := List.cons_prefix_cons.mp hlead
      exact absurd ⟨hplus.symm, hother⟩ h
    · exact htail
  · exact .inr

/-- How the two decodings of some bytes compare: the code never produces more, it produces less if there is a signed
escape, and the same if there is none. -/
def Compared (bytes : List UInt8) : Prop :=
  (percentDecodeBytes bytes).length ≤ (percentReference bytes).length ∧
    (SignedEscape bytes → (percentDecodeBytes bytes).length < (percentReference bytes).length) ∧
    (¬SignedEscape bytes → percentDecodeBytes bytes = percentReference bytes)

/-- Both decodings produce one and the same byte and go on with the same rest. -/
theorem compared_of_same {bytes : List UInt8} {decoded : UInt8}
    (hdecode : percentDecodeBytes bytes = decoded :: percentDecodeBytes rest)
    (hreference : percentReference bytes = decoded :: percentReference rest)
    (hsigned : SignedEscape bytes ↔ SignedEscape rest) (h : Compared rest) : Compared bytes := by
  obtain ⟨hle, hlt, heq⟩ := h
  rw [Compared, hdecode, hreference, hsigned, List.length_cons, List.length_cons]
  refine ⟨by omega, fun hescape => Nat.succ_lt_succ (hlt hescape), ?_⟩
  intro hplain
  rw [heq hplain]

theorem compared_signed {lowValue : Nat} (hlow : hexDigit low = some lowValue) (h : Compared rest) :
    Compared (37 :: 43 :: low :: rest) := by
  obtain ⟨hdecode, hreference⟩ := decode_signed rest hlow
  have hescape : SignedEscape (37 :: 43 :: low :: rest) :=
    ⟨low, by rw [hlow]; rfl, [], rest, rfl⟩
  have hle := h.1
  rw [Compared, hdecode, hreference]
  simp only [List.length_cons]
  exact ⟨by omega, fun _ => by omega, fun hplain => absurd hescape hplain⟩

end Scan

theorem compared (bytes : List UInt8) : Compared bytes := by
  -- The induction is on the length: an escape consumes three bytes, everything else one.
  induction hsize : bytes.length using Nat.strong_induction_on generalizing bytes with
  | _ size ih =>
      match bytes with
      | [] =>
          refine ⟨Nat.le_refl _, ?_, fun _ => rfl⟩
          rintro ⟨low, -, hinfix⟩
          cases List.eq_nil_of_infix_nil hinfix
      | [byte] =>
          refine ⟨Nat.le_refl _, ?_, fun _ => rfl⟩
          rintro ⟨low, -, hinfix⟩
          have hshort := hinfix.length_le
          simp at hshort
      | [first, second] =>
          refine ⟨Nat.le_refl _, ?_, fun _ => rfl⟩
          rintro ⟨low, -, hinfix⟩
          have hshort := hinfix.length_le
          simp at hshort
      | byte :: high :: low :: rest =>
          simp only [List.length_cons] at hsize
          have htail : Compared (high :: low :: rest) := ih (rest.length + 2) (by omega) _ (by simp)
          have hrest : Compared rest := ih rest.length (by omega) rest rfl
          by_cases hpercent : byte = 37
          · subst hpercent
            cases hlow : hexDigit low with
            | none =>
                have hplain : ¬(high = 43 ∧ (hexDigit low).isSome = true) := by simp [hlow]
                obtain ⟨hdecode, hreference⟩ := decode_literal rest (.inr (by rw [hlow]; rfl)) hplain
                exact compared_of_same hdecode hreference (signedEscape_literal hplain) htail
            | some lowValue =>
                cases hhigh : hexDigit high with
                | none =>
                    by_cases hplus : high = 43
                    · subst hplus
                      exact compared_signed hlow hrest
                    · have hplain : ¬(high = 43 ∧ (hexDigit low).isSome = true) := fun h => hplus h.1
                      obtain ⟨hdecode, hreference⟩ := decode_literal rest (.inl (by rw [hhigh]; rfl)) hplain
                      exact compared_of_same hdecode hreference (signedEscape_literal hplain) htail
                | some highValue =>
                    have hplain : ¬(high = 43 ∧ (hexDigit low).isSome = true) := fun h => (hexDigit_ne hhigh).2 h.1
                    obtain ⟨hdecode, hreference⟩ := decode_digits rest hhigh hlow
                    refine compared_of_same hdecode hreference ?_ hrest
                    rw [signedEscape_literal hplain, signedEscape_ne (hexDigit_ne hhigh).1,
                      signedEscape_ne (hexDigit_ne hlow).1]
          · exact compared_of_same (percentDecodeBytes_ne hpercent _) (percentReference_ne hpercent _)
              (signedEscape_ne hpercent) htail

theorem percentDecodeBytes_eq_iff (bytes : List UInt8) :
    percentDecodeBytes bytes = percentReference bytes ↔ ¬SignedEscape bytes := by
  obtain ⟨-, hlt, heq⟩ := compared bytes
  constructor
  · intro hsame hescape
    have hshorter := hlt hescape
    rw [hsame] at hshorter
    exact Nat.lt_irrefl _ hshorter
  · exact heq

/-- The digits of an escape are read back, in capitals as in small letters. -/
theorem hexDigit_upper {value : Nat} (h : value < 16) :
    hexDigit (UInt8.ofNat (Nat.digitChar value).toUpper.toNat) = some value := by
  have hall : ∀ value < 16, hexDigit (UInt8.ofNat (Nat.digitChar value).toUpper.toNat) = some value := by decide
  exact hall value h

/-- Escaped or kept, a byte is read back as it was. -/
theorem percentDecodeBytes_percentEncode {keep : UInt8 → Bool} (hkeep : keep 37 = false) (bytes : List UInt8) :
    percentDecodeBytes (percentEncode keep bytes) = bytes := by
  induction bytes with
  | nil => rfl
  | cons byte rest ih =>
      rw [percentEncode, List.flatMap_cons]
      rw [percentEncode] at ih
      cases hkept : keep byte with
      | true =>
          have hplain : byte ≠ 37 := by
            rintro rfl
            rw [hkeep] at hkept
            cases hkept
          rw [if_pos rfl, List.singleton_append, percentDecodeBytes_ne hplain, ih]
      | false =>
          have hbyte := byte.toNat_lt
          have hhigh := hexDigit_upper (show byte.toNat / 16 < 16 by omega)
          have hlow := hexDigit_upper (show byte.toNat % 16 < 16 by omega)
          have hsplit : byte.toNat / 16 * 16 + byte.toNat % 16 = byte.toNat := Nat.div_add_mod' _ _
          rw [if_neg Bool.false_ne_true]
          show percentDecodeBytes (37 :: _ :: _ :: rest.flatMap _) = _
          rw [(decode_digits _ hhigh hlow).1, ih, hsplit, UInt8.ofNat_toNat]

/-- The bytes are those of the grammar unless a percent sign is followed by a plus sign and a digit. Encoding a text
never produces that, so an encoded text is read back. -/
theorem percent_decoding_iff (lossy : LossyDecoder) :
    (∀ value : List Char,
      percentDecodeBytes (encode value) = percentReference (encode value) ↔ ¬SignedEscape (encode value)) ∧
      ∀ (keep : UInt8 → Bool) (value text : List Char), keep 37 = false →
        encode value = percentEncode keep (encode text) → percentDecode lossy value = text := by
  refine ⟨fun value => percentDecodeBytes_eq_iff (encode value), ?_⟩
  intro keep value text hkeep hvalue
  rw [percentDecode, hvalue, percentDecodeBytes_percentEncode hkeep, lossy.valid]

/-- A decoder that gives up on everything but the bytes of a text. -/
def strictDecoder : LossyDecoder where
  decode := fun bytes => (fromUtf8 bytes).getD []
  valid := fun text => by rw [fromUtf8_encode, Option.getD_some]

theorem percent_decoding_name : percentDecode strictDecoder "J%C3%BCrgen".toList = "Jürgen".toList :=
  (percent_decoding_iff strictDecoder).2 (fun byte => decide (byte.toNat < 128) && byte != 37) _ _ (by decide)
    (by decide +kernel)

/-- `%+1` is read as the byte 1, and the percent sign is lost. -/
theorem percent_decoding_signed :
    percentDecodeBytes (encode "%+1".toList) = [1] ∧ percentReference (encode "%+1".toList) = [37, 43, 49] ∧
      ¬percentDecodeBytes (encode "%+1".toList) = percentReference (encode "%+1".toList) := by
  have hbytes : encode "%+1".toList = [37, 43, 49] := by decide
  have hdigit : hexDigit 49 = some 1 := by decide
  obtain ⟨hdecode, hreference⟩ := decode_signed [] hdigit
  rw [hbytes, hdecode, hreference]
  exact ⟨rfl, rfl, by decide⟩

end MistralrsProxy
