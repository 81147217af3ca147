import Mathlib.Data.List.Basic

/-! Texts and their UTF-8 bytes. A text is a list of characters, so that it is well formed by construction; offsets
count bytes, and cutting a text inside a character has no result. A scan of the bytes that treats everything outside
ASCII alike is the same scan of the characters. Nothing here refers to a particular program. -/

namespace Utf8

/-- `str::as_bytes`. -/
def encode (text : List Char) : List UInt8 := text.flatMap String.utf8EncodeChar

/-- `str::split_at`; no result stands for its panic. -/
def splitAt : Nat → List Char → Option (List Char × List Char)
  | 0, text => some ([], text)
  | _ + 1, [] => none
  | offset + 1, char :: rest =>
      if char.utf8Size ≤ offset + 1 then
        (splitAt (offset + 1 - char.utf8Size) rest).map fun parts => (char :: parts.1, parts.2)
      else none

/-- `&text[start..stop]`; no result stands for its panic. -/
def slice (start stop : Nat) (text : List Char) : Option (List Char) :=
  (splitAt stop text).bind fun front => (splitAt start front.1).map Prod.snd

/-- `&text[start..]`. -/
def sliceFrom (start : Nat) (text : List Char) : Option (List Char) := (splitAt start text).map Prod.snd

/-- `str::from_utf8`. -/
def fromUtf8 (bytes : List UInt8) : Option (List Char) := bytes.toByteArray.utf8Decode?.map Array.toList

section Encode

@[simp] theorem encode_nil : encode [] = [] := rfl

@[simp] theorem encode_cons (char : Char) (rest : List Char) :
    encode (char :: rest) = String.utf8EncodeChar char ++ encode rest := rfl

@[simp] theorem encode_append (front back : List Char) : encode (front ++ back) = encode front ++ encode back :=
  List.flatMap_append

theorem utf8EncodeChar_ascii {char : Char} (h : char.toNat < 128) :
    String.utf8EncodeChar char = [UInt8.ofNat char.toNat] := by
  have hle : char.val.toNat ≤ 127 := Nat.le_of_lt_succ h
  unfold String.utf8EncodeChar
  exact if_pos hle

/-- No byte of a character outside ASCII is an ASCII byte. -/
theorem utf8EncodeChar_other {char : Char} (h : 128 ≤ char.toNat) :
    ∀ byte ∈ String.utf8EncodeChar char, 128 ≤ byte.toNat := by
  have hhigh : ¬char.val.toNat ≤ 127 := Nat.not_le.mpr h
  intro byte hbyte
  unfold String.utf8EncodeChar at hbyte
  rw [if_neg hhigh] at hbyte
  have hmod : ∀ value : Nat, 128 ≤ value → value < 256 → 128 ≤ (UInt8.ofNat value).toNat := by
    intro value hvalue hlt
    rw [UInt8.toNat_ofNat', Nat.mod_eq_of_lt hlt]
    exact hvalue
  split_ifs at hbyte with htwo hthree
  · rcases List.mem_pair.mp hbyte with rfl | rfl
    · exact hmod _ (by omega) (by omega)
    · exact hmod _ (by omega) (by omega)
  · simp only [List.mem_cons, List.not_mem_nil, or_false] at hbyte
    rcases hbyte with rfl | rfl | rfl
    · exact hmod _ (by omega) (by omega)
    · exact hmod _ (by omega) (by omega)
    · exact hmod _ (by omega) (by omega)
  · simp only [List.mem_cons, List.not_mem_nil, or_false] at hbyte
    rcases hbyte with rfl | rfl | rfl | rfl
    · exact hmod _ (by omega) (by omega)
    · exact hmod _ (by omega) (by omega)
    · exact hmod _ (by omega) (by omega)
    · exact hmod _ (by omega) (by omega)

/-- The bytes of an ASCII text are its character codes. -/
theorem encode_ascii {text : List Char} (h : ∀ char ∈ text, char.toNat < 128) :
    encode text = text.map fun char => UInt8.ofNat char.toNat := by
  induction text with
  | nil => rfl
  | cons char rest ih =>
      rw [encode_cons, utf8EncodeChar_ascii (h char List.mem_cons_self),
        ih fun other hother => h other (List.mem_cons_of_mem _ hother)]
      rfl

theorem fromUtf8_encode (text : List Char) : fromUtf8 (encode text) = some text := by
  show (List.utf8Encode text).utf8Decode?.map Array.toList = some text
  rw [List.utf8Decode?_utf8Encode]
  rfl

/-- Only the bytes of a text are read as one. -/
theorem fromUtf8_eq_some {bytes : List UInt8} {text : List Char} (h : fromUtf8 bytes = some text) :
    bytes = encode text := by
  obtain ⟨chars, hchars, rfl⟩ := Option.map_eq_some_iff.mp h
  have hvalid : bytes.toByteArray.utf8Decode?.isSome = true := by rw [hchars]; rfl
  have hbytes := ByteArray.utf8Encode_get_utf8Decode? (b := bytes.toByteArray) (h := hvalid)
  have hget : bytes.toByteArray.utf8Decode?.get hvalid = chars := Option.get_of_eq_some hvalid hchars
  rw [hget] at hbytes
  exact (List.toByteArray_inj.mp hbytes).symm

end Encode

section Cut

variable {text front back : List Char} {offset : Nat}

theorem splitAt_encode (front back : List Char) :
    splitAt (encode front).length (front ++ back) = some (front, back) := by
  induction front with
  | nil => simp [splitAt]
  | cons char rest ih =>
      have hsize : (String.utf8EncodeChar char).length = char.utf8Size := String.length_utf8EncodeChar char
      have hpos : 0 < char.utf8Size := Char.utf8Size_pos char
      rw [encode_cons, List.length_append, hsize]
      obtain ⟨before, hbefore⟩ : ∃ before, char.utf8Size + (encode rest).length = before + 1 :=
        ⟨char.utf8Size + (encode rest).length - 1, by omega⟩
      have hrest : before + 1 - char.utf8Size = (encode rest).length := by omega
      rw [hbefore, List.cons_append, splitAt, if_pos (by omega), hrest, ih]
      rfl

/-- A text is cut where its front ends. -/
theorem splitAt_eq_some : splitAt offset text = some (front, back) ↔
    text = front ++ back ∧ (encode front).length = offset := by
  constructor
  · intro h
    induction offset, text using splitAt.induct generalizing front back with
    | case1 text =>
        obtain ⟨rfl, rfl⟩ : [] = front ∧ text = back := by simpa [splitAt] using h
        exact ⟨rfl, rfl⟩
    | case2 offset => cases h
    | case3 offset char rest hfits ih =>
        rw [splitAt, if_pos hfits] at h
        obtain ⟨⟨before, after⟩, hparts, heq⟩ := Option.map_eq_some_iff.mp h
        obtain ⟨rfl, rfl⟩ : char :: before = front ∧ after = back := by simpa using heq
        obtain ⟨rfl, hlength⟩ := ih hparts
        refine ⟨rfl, ?_⟩
        rw [encode_cons, List.length_append, String.length_utf8EncodeChar, hlength]
        omega
    | case4 offset char rest hlong =>
        rw [splitAt, if_neg hlong] at h
        cases h
  · rintro ⟨rfl, rfl⟩
    exact splitAt_encode front back

/-- There is no cut behind the end of a text and none inside a character. -/
theorem splitAt_eq_none : splitAt offset text = none ↔ (encode text).length < offset ∨
    ∃ front char back, text = front ++ char :: back ∧ (encode front).length < offset ∧
      offset < (encode front).length + char.utf8Size := by
  constructor
  · intro h
    induction offset, text using splitAt.induct with
    | case1 text => simp [splitAt] at h
    | case2 offset => exact .inl (Nat.succ_pos offset)
    | case3 offset char rest hfits ih =>
        rw [splitAt, if_pos hfits, Option.map_eq_none_iff] at h
        have hsize : (String.utf8EncodeChar char).length = char.utf8Size := String.length_utf8EncodeChar char
        rcases ih h with hshort | ⟨front, other, back, rfl, hbefore, hafter⟩
        · refine .inl ?_
          rw [encode_cons, List.length_append, hsize]
          omega
        · refine .inr ⟨char :: front, other, back, rfl, ?_, ?_⟩
          · rw [encode_cons, List.length_append, hsize]
            omega
          · rw [encode_cons, List.length_append, hsize]
            omega
    | case4 offset char rest hlong => exact .inr ⟨[], char, rest, rfl, Nat.succ_pos offset, by simpa using hlong⟩
  · intro h
    by_contra hsome
    obtain ⟨⟨before, after⟩, hcut⟩ := Option.ne_none_iff_exists'.mp hsome
    obtain ⟨rfl, hlength⟩ := splitAt_eq_some.mp hcut
    rcases h with hshort | ⟨front, char, back, heq, hbefore, hafter⟩
    · rw [encode_append, List.length_append] at hshort
      omega
    · -- One of the two fronts extends the other, so the cut would lie in front of the character or behind it.
      rcases List.append_eq_append_iff.mp heq with ⟨more, rfl, hrest⟩ | ⟨more, rfl, hrest⟩
      · rw [encode_append, List.length_append] at hbefore
        omega
      · cases more with
        | nil =>
            rw [List.append_nil] at hlength
            omega
        | cons first more =>
            obtain ⟨rfl, -⟩ := List.cons.inj hrest
            rw [encode_append, encode_cons, List.length_append, List.length_append, String.length_utf8EncodeChar]
              at hlength
            omega

theorem slice_encode (front middle back : List Char) :
    slice (encode front).length (encode front ++ encode middle).length (front ++ middle ++ back) = some middle := by
  rw [slice, ← encode_append, splitAt_encode, Option.bind_some, splitAt_encode]
  rfl

theorem sliceFrom_encode (front back : List Char) : sliceFrom (encode front).length (front ++ back) = some back := by
  rw [sliceFrom, splitAt_encode]
  rfl

end Cut

theorem toNat_charOfNat {code : Nat} (h : code < 55296) : (Char.ofNat code).toNat = code := by
  rw [Char.ofNat, dif_pos (Or.inl h)]
  rfl

section Other

variable {char : Char}

/-- Characters outside ASCII are neither letters nor digits in the sense of ASCII. -/
theorem isAlpha_other (h : 128 ≤ char.toNat) : char.isAlpha = false := by
  have hhigh : 128 ≤ char.val.toNat := h
  have hcodes : ('Z'.val).toNat = 90 ∧ ('z'.val).toNat = 122 := by decide
  show (decide ('A'.val ≤ char.val ∧ char.val ≤ 'Z'.val) ||
    (decide ('a'.val ≤ char.val) && decide (char.val ≤ 'z'.val))) = false
  simp only [Bool.or_eq_false_iff, Bool.and_eq_false_iff, decide_eq_false_iff_not, UInt32.le_iff_toNat_le]
  omega

theorem isDigit_other (h : 128 ≤ char.toNat) : char.isDigit = false := by
  have hhigh : 128 ≤ char.val.toNat := h
  have hcode : ('9'.val).toNat = 57 := by decide
  simp only [Char.isDigit, Bool.and_eq_false_iff, decide_eq_false_iff_not, UInt32.le_iff_toNat_le, ge_iff_le]
  exact .inr (by omega)

theorem beq_other {ascii : Char} (h : 128 ≤ char.toNat) (hascii : ascii.toNat < 128) : (char == ascii) = false := by
  apply beq_eq_false_iff_ne.mpr
  rintro rfl
  omega

end Other

/-- A test of bytes and one of characters that say the same about ASCII, and `other` about everything else. -/
structure Agree (onBytes : UInt8 → Bool) (onChars : Char → Bool) (other : Bool) : Prop where
  ascii : ∀ code < 128, onBytes (UInt8.ofNat code) = onChars (Char.ofNat code)
  bytes : ∀ byte : UInt8, 128 ≤ byte.toNat → onBytes byte = other
  chars : ∀ char : Char, 128 ≤ char.toNat → onChars char = other

namespace Agree

/-- Tests that reject everything outside ASCII can be compared code by code. -/
theorem of_ascii {onBytes : UInt8 → Bool} {onChars : Char → Bool}
    (hcodes : ∀ code < 256, onBytes (UInt8.ofNat code) = (decide (code < 128) && onChars (Char.ofNat code)))
    (hchars : ∀ char : Char, 128 ≤ char.toNat → onChars char = false) : Agree onBytes onChars false where
  ascii := by
    intro code hcode
    rw [hcodes code (by omega), decide_eq_true hcode, Bool.true_and]
  bytes := by
    intro byte hbyte
    have hcode := hcodes byte.toNat byte.toNat_lt
    rwa [UInt8.ofNat_toNat, decide_eq_false (Nat.not_lt.mpr hbyte), Bool.false_and] at hcode
  chars := hchars

/-- Looking for one ASCII character. -/
theorem of_char {ascii : Char} (h : ascii.toNat < 128) : Agree (· == UInt8.ofNat ascii.toNat) (· == ascii) false := by
  refine ⟨?_, ?_, fun char hchar => beq_other hchar h⟩
  · intro code hlt
    rw [Bool.eq_iff_iff, beq_iff_eq, beq_iff_eq, ← UInt8.toNat_inj, UInt8.toNat_ofNat', UInt8.toNat_ofNat',
      Nat.mod_eq_of_lt (by omega), Nat.mod_eq_of_lt (by omega), ← Char.toNat_inj, toNat_charOfNat (by omega)]
  · intro byte hbyte
    apply beq_eq_false_iff_ne.mpr
    rintro rfl
    rw [UInt8.toNat_ofNat', Nat.mod_eq_of_lt (by omega)] at hbyte
    omega

variable {onBytes : UInt8 → Bool} {onChars : Char → Bool} {other : Bool}

theorem not (h : Agree onBytes onChars other) :
    Agree (fun byte => !onBytes byte) (fun char => !onChars char) !other where
  ascii := fun code hcode => congrArg Bool.not (h.ascii code hcode)
  bytes := fun byte hbyte => congrArg Bool.not (h.bytes byte hbyte)
  chars := fun char hchar => congrArg Bool.not (h.chars char hchar)

/-- All bytes of a character are classified as the character is. -/
theorem encodeChar (h : Agree onBytes onChars other) (char : Char) :
    ∀ byte ∈ String.utf8EncodeChar char, onBytes byte = onChars char := by
  intro byte hbyte
  rcases Nat.lt_or_ge char.toNat 128 with hascii | hhigh
  · rw [utf8EncodeChar_ascii hascii, List.mem_singleton] at hbyte
    rw [hbyte, h.ascii char.toNat hascii, Char.ofNat_toNat]
  · rw [h.bytes byte (utf8EncodeChar_other hhigh byte hbyte), h.chars char hhigh]

theorem takeWhile_encode (h : Agree onBytes onChars other) (text : List Char) :
    (encode text).takeWhile onBytes = encode (text.takeWhile onChars) := by
  induction text with
  | nil => rfl
  | cons char rest ih =>
      have hall := h.encodeChar char
      rw [encode_cons, List.takeWhile_cons]
      cases htest : onChars char with
      | true =>
          rw [List.takeWhile_append_of_pos fun byte hbyte => by rw [hall byte hbyte, htest], ih, if_pos rfl,
            encode_cons]
      | false =>
          obtain ⟨first, bytes, hbytes⟩ := List.exists_cons_of_ne_nil (String.utf8EncodeChar_ne_nil (c := char))
          have hfirst : onBytes first = false := by
            rw [hall first (by rw [hbytes]; exact List.mem_cons_self), htest]
          rw [hbytes, List.cons_append, List.takeWhile_cons_of_neg (by rw [hfirst]; exact Bool.false_ne_true)]
          rfl

theorem any_head_encode (h : Agree onBytes onChars other) (text : List Char) :
    (encode text).head?.any onBytes = text.head?.any onChars := by
  cases text with
  | nil => rfl
  | cons char rest =>
      obtain ⟨first, bytes, hbytes⟩ := List.exists_cons_of_ne_nil (String.utf8EncodeChar_ne_nil (c := char))
      have hfirst := h.encodeChar char first (by rw [hbytes]; exact List.mem_cons_self)
      rw [encode_cons, hbytes]
      simpa using hfirst

end Agree

end Utf8
