import MistralrsProxy.UsageScan

/-! The sniffer over whole JSON texts and streams of them. Between two values it searches with at most a closing quote
matched, or it awaits a colon behind a string that was no key; the comma or bracket that follows brings it back to the
start. A captured object is skipped as one piece, because its braces outside strings balance. -/

namespace MistralrsProxy

namespace UsageSniffer

open JsonText

/-- The objects that a member gives the sniffer, where `inner` are those of the value: an object behind a key literal
that ends in the field name is taken whole. -/
def memberCaptures (key : List Piece) (value : Value) (inner : List Object) : List Object :=
  match value with
  | .object object => if endsInUsage key then [object] else inner
  | _ => inner

mutual

/-- The objects that the sniffer is to decode, in document order. -/
def valueCaptures : Value → List Object
  | .array elements => elementsCaptures elements
  | .object object => objectCaptures object
  | .null | .boolean _ | .number _ | .string _ | .emptyArray _ => []

def elementsCaptures : Elements → List Object
  | .last _ value _ => valueCaptures value
  | .more _ value _ rest => valueCaptures value ++ elementsCaptures rest

def objectCaptures : Object → List Object
  | .empty _ => []
  | .members members => membersCaptures members

def membersCaptures : Members → List Object
  | .last name _ value _ => memberCaptures name.key value (valueCaptures value)
  | .more name _ value _ rest => memberCaptures name.key value (valueCaptures value) ++ membersCaptures rest

end

section Balance

variable {depth : Nat}

theorem closes_cons {inString escaped inString' escaped' : Bool} {byte : UInt8} {depth' : Nat}
    (hbyte : captureByte byte depth inString escaped = (depth', inString', escaped')) (hdepth : 1 ≤ depth')
    (rest : List UInt8) : closes depth inString escaped (byte :: rest) = closes depth' inString' escaped' rest := by
  simp only [closes, hbyte]
  rw [if_neg (by omega)]

/-- The bytes that change nothing outside strings. -/
def isInert (byte : UInt8) : Bool := byte != 34 && byte != 123 && byte != 125

theorem closes_inert (hdepth : 1 ≤ depth) {bytes : List UInt8} (hbytes : ∀ byte ∈ bytes, isInert byte = true)
    (rest : List UInt8) : closes depth false false (bytes ++ rest) = closes depth false false rest := by
  induction bytes with
  | nil => rfl
  | cons byte bytes ih =>
      have hinert := hbytes byte List.mem_cons_self
      simp only [isInert, Bool.and_eq_true, bne_iff_ne] at hinert
      have hbyte : captureByte byte depth false false = (depth, false, false) := by
        simp [captureByte, hinert.1.1, hinert.1.2, hinert.2]
      rw [List.cons_append, closes_cons hbyte hdepth]
      exact ih fun other h => hbytes other (List.mem_cons_of_mem _ h)

theorem closes_blanks (hdepth : 1 ≤ depth) (blanks : List Blank) (rest : List UInt8) :
    closes depth false false (blankBytes blanks ++ rest) = closes depth false false rest := by
  apply closes_inert hdepth
  intro byte hbyte
  obtain ⟨blank, -, rfl⟩ := List.mem_map.mp hbyte
  cases blank <;> decide

theorem closes_unquoted (hdepth : 1 ≤ depth) {bytes : List UInt8} (hbytes : ∀ byte ∈ bytes, byte ≠ 34 ∧ byte ≠ 92)
    (rest : List UInt8) : closes depth true false (bytes ++ rest) = closes depth true false rest := by
  induction bytes with
  | nil => rfl
  | cons byte bytes ih =>
      obtain ⟨hquote, hbackslash⟩ := hbytes byte List.mem_cons_self
      have hbyte : captureByte byte depth true false = (depth, true, false) := by
        simp [captureByte, hquote, hbackslash]
      rw [List.cons_append, closes_cons hbyte hdepth]
      exact ih fun other h => hbytes other (List.mem_cons_of_mem _ h)

theorem closes_piece (hdepth : 1 ≤ depth) (piece : Piece) (rest : List UInt8) :
    closes depth true false (piece.bytes ++ rest) = closes depth true false rest := by
  have hescape : ∀ byte rest, closes depth true false (92 :: byte :: rest) = closes depth true false rest := by
    intro byte rest
    have hfirst : captureByte 92 depth true false = (depth, true, true) := rfl
    have hsecond : captureByte byte depth true true = (depth, true, false) := rfl
    rw [closes_cons hfirst hdepth, closes_cons hsecond hdepth]
  cases piece with
  | plain byte =>
      have hplain : ∀ other ∈ [byte.val], other ≠ 34 ∧ other ≠ 92 := by
        intro other hother
        obtain rfl := List.mem_singleton.mp hother
        exact isPlain_ne byte.property
      exact closes_unquoted hdepth hplain rest
  | escape byte => exact hescape byte.val rest
  | unicode first second third fourth =>
      have hdigits : ∀ byte ∈ [first.val, second.val, third.val, fourth.val], byte ≠ 34 ∧ byte ≠ 92 := by
        simp only [List.forall_mem_cons]
        exact ⟨isHexDigit_ne first.property, isHexDigit_ne second.property, isHexDigit_ne third.property,
          isHexDigit_ne fourth.property, by simp⟩
      exact (hescape 117 _).trans (closes_unquoted hdepth hdigits rest)

theorem closes_literal (hdepth : 1 ≤ depth) (text : List Piece) (rest : List UInt8) :
    closes depth false false (literal text ++ rest) = closes depth false false rest := by
  have hopening : captureByte 34 depth false false = (depth, true, false) := rfl
  have hclosing : captureByte 34 depth true false = (depth, false, false) := rfl
  have hpieces : closes depth true false (pieceBytes text ++ 34 :: rest) = closes depth true false (34 :: rest) := by
    induction text with
    | nil => rfl
    | cons piece text ih =>
        rw [pieceBytes, List.flatMap_cons, List.append_assoc, closes_piece hdepth]
        exact ih
  rw [literal, List.cons_append, List.append_assoc, List.singleton_append, closes_cons hopening hdepth, hpieces,
    closes_cons hclosing hdepth]

theorem closes_name (hdepth : 1 ≤ depth) (name : Name) (rest : List UInt8) :
    closes depth false false (name.bytes ++ rest) = closes depth false false rest := by
  have hcolon : captureByte 58 depth false false = (depth, false, false) := rfl
  simp only [Name.bytes, List.append_assoc, closes_blanks hdepth, closes_literal hdepth, List.singleton_append]
  exact closes_cons hcolon hdepth rest

/-- An opening and a closing brace around bytes that balance. -/
theorem closes_braces (hdepth : 1 ≤ depth) {inner : List UInt8}
    (hinner : ∀ rest, closes (depth + 1) false false (inner ++ rest) = closes (depth + 1) false false rest)
    (rest : List UInt8) :
    closes depth false false (123 :: (inner ++ [125]) ++ rest) = closes depth false false rest := by
  have hopening : captureByte 123 depth false false = (depth + 1, false, false) := rfl
  have hclosing : captureByte 125 (depth + 1) false false = (depth, false, false) := rfl
  rw [List.cons_append, List.append_assoc, List.singleton_append, closes_cons hopening (by omega), hinner,
    closes_cons hclosing hdepth]

theorem closes_brackets (hdepth : 1 ≤ depth) {inner : List UInt8}
    (hinner : ∀ rest, closes depth false false (inner ++ rest) = closes depth false false rest) (rest : List UInt8) :
    closes depth false false (91 :: (inner ++ [93]) ++ rest) = closes depth false false rest := by
  have hopening : captureByte 91 depth false false = (depth, false, false) := rfl
  have hclosing : captureByte 93 depth false false = (depth, false, false) := rfl
  rw [List.cons_append, List.append_assoc, List.singleton_append, closes_cons hopening hdepth, hinner,
    closes_cons hclosing hdepth]

theorem closes_comma (hdepth : 1 ≤ depth) (rest : List UInt8) :
    closes depth false false (44 :: rest) = closes depth false false rest := by
  have hcomma : captureByte 44 depth false false = (depth, false, false) := rfl
  exact closes_cons hcomma hdepth rest

theorem isInert_of_isNumberByte {byte : UInt8} (h : isNumberByte byte = true) : isInert byte = true := by
  simp only [isInert, Bool.and_eq_true, bne_iff_ne]
  refine ⟨⟨?_, ?_⟩, ?_⟩
  all_goals
    rintro rfl
    exact absurd h (by decide)

/-- A number begins neither an object nor `null`, and not with a blank. -/
theorem isNumberByte_unlike {byte : UInt8} (h : isNumberByte byte = true) :
    byte ≠ 123 ∧ byte ≠ 110 ∧ Bytes.isAsciiWhitespace byte = false := by
  have hall : ∀ code < 256, isNumberByte (UInt8.ofNat code) = true →
      UInt8.ofNat code ≠ 123 ∧ UInt8.ofNat code ≠ 110 ∧ Bytes.isAsciiWhitespace (UInt8.ofNat code) = false := by
    decide +kernel
  have hbyte := hall byte.toNat byte.toNat_lt
  rw [UInt8.ofNat_toNat] at hbyte
  exact hbyte h

mutual

/-- The braces of a value outside its strings balance. -/
theorem closes_value {depth : Nat} (hdepth : 1 ≤ depth) (value : Value) (rest : List UInt8) :
    closes depth false false (value.bytes ++ rest) = closes depth false false rest := by
  cases value with
  | null => exact closes_inert hdepth (List.all_eq_true.mp rfl) rest
  | boolean value =>
      cases value with
      | true => exact closes_inert hdepth (List.all_eq_true.mp rfl) rest
      | false => exact closes_inert hdepth (List.all_eq_true.mp rfl) rest
  | number number =>
      exact closes_inert hdepth (fun _ h => isInert_of_isNumberByte (Number.isNumberByte_of_mem h)) rest
  | string text => exact closes_literal hdepth text rest
  | emptyArray blanks => exact closes_brackets hdepth (closes_blanks hdepth blanks) rest
  | array elements => exact closes_brackets hdepth (closes_elements hdepth elements) rest
  | object object => exact closes_object hdepth object rest

theorem closes_elements {depth : Nat} (hdepth : 1 ≤ depth) (elements : Elements) (rest : List UInt8) :
    closes depth false false (elements.bytes ++ rest) = closes depth false false rest := by
  cases elements with
  | last before value after =>
      simp only [Elements.bytes, List.append_assoc, closes_blanks hdepth, closes_value hdepth value]
  | more before value after others =>
      simp only [Elements.bytes, List.append_assoc, List.cons_append, closes_blanks hdepth, closes_value hdepth value,
        closes_comma hdepth, closes_elements hdepth others]

theorem closes_object {depth : Nat} (hdepth : 1 ≤ depth) (object : Object) (rest : List UInt8) :
    closes depth false false (object.bytes ++ rest) = closes depth false false rest := by
  cases object with
  | empty blanks => exact closes_braces hdepth (closes_blanks (by omega) blanks) rest
  | members members => exact closes_braces hdepth (closes_members (by omega) members) rest

theorem closes_members {depth : Nat} (hdepth : 1 ≤ depth) (members : Members) (rest : List UInt8) :
    closes depth false false (members.bytes ++ rest) = closes depth false false rest := by
  cases members with
  | last name before value after =>
      simp only [Members.bytes, List.append_assoc, closes_name hdepth, closes_blanks hdepth, closes_value hdepth value]
  | more name before value after others =>
      simp only [Members.bytes, List.append_assoc, List.cons_append, closes_name hdepth, closes_blanks hdepth,
        closes_value hdepth value, closes_comma hdepth, closes_members hdepth others]

end

/-- An object of the grammar is an object to the sniffer. -/
theorem isObject_bytes (object : Object) : isObject object.bytes = true := by
  have hlast : closes 1 false false [125] = true := rfl
  cases object with
  | empty blanks =>
      rw [Object.bytes, isObject, closes_blanks (by omega), hlast]
      rfl
  | members members =>
      rw [Object.bytes, isObject, closes_members (by omega), hlast]
      rfl

end Balance

/-- Whatever bytes arrive, in whatever pieces: the bounds hold after each of them, so that what the next byte evaluates
is in range, and an object of up to 4096 bytes that begins where a value is awaited is handed to the decoder, be it JSON
or only balanced like it. -/
theorem sniffer_stays_in_bounds (decode : List UInt8 → Option UsageFields) (chunks : List (List UInt8)) :
    chunks.foldl (fun sniffer chunk => sniffer.feed decode chunk) new = new.feed decode chunks.flatten ∧
      ∀ seen, seen <+: chunks.flatten →
        (new.feed decode seen).InBounds ∧ (∀ byte, (new.feed decode seen).StepInRange byte) ∧
          (∀ object, isObject object = true → object.length ≤ 4096 → (new.feed decode seen).state = .awaitingValue →
            (new.feed decode (seen ++ object)) =
              finishObject decode { new.feed decode seen with object := object }) ∧
          ∀ object : Object, object.bytes.length ≤ 4096 → (new.feed decode seen).state = .awaitingValue →
            (new.feed decode (seen ++ object.bytes)) =
              finishObject decode { new.feed decode seen with object := object.bytes } := by
  refine ⟨feed_flatten chunks new, ?_⟩
  intro seen _
  have hnew : new.InBounds := ⟨by omega, rfl⟩
  have hbounds : (new.feed decode seen).InBounds := feed_inBounds seen hnew
  have hhanded : ∀ object, isObject object = true → object.length ≤ 4096 →
      (new.feed decode seen).state = .awaitingValue →
      (new.feed decode (seen ++ object)) = finishObject decode { new.feed decode seen with object := object } := by
    intro object hobject hfits hstate
    rw [feed_append]
    exact feed_isObject hstate hobject hfits
  exact ⟨hbounds, stepInRange_of_inBounds hbounds, hhanded, fun object => hhanded object.bytes (isObject_bytes object)⟩

/-- An object of exactly 4096 bytes, behind the field name. -/
theorem sniffer_stays_in_bounds_full :
    (new.feed (fun object => some ⟨some object.length, none, none, none, none, none, none⟩)
      (needle ++ [58] ++ (Object.empty (List.replicate 4094 .space)).bytes)).latest =
        some ⟨some 4096, none, none, none⟩ := by
  have hlength : (Object.empty (List.replicate 4094 .space)).bytes.length = 4096 := by
    rw [Object.bytes, blankBytes, List.length_cons, List.length_append, List.length_map, List.length_replicate,
      List.length_singleton]
  obtain ⟨-, hseen⟩ := sniffer_stays_in_bounds
    (fun object => some ⟨some object.length, none, none, none, none, none, none⟩) [needle, [58]]
  have hfed := (hseen (needle ++ [58]) ⟨[], rfl⟩).2.2.2 (.empty (List.replicate 4094 .space)) (Nat.le_of_eq hlength) rfl
  rw [hfed]
  simp only [finishObject, hlength]
  rfl

/-- What decoding one more object makes of the latest counts. -/
def keepLatest (decode : List UInt8 → Option UsageFields) (latest : Option Usage) (object : List UInt8) :
    Option Usage :=
  match decode object with
  | some fields => if fields.usage.isInformative then some fields.usage else latest
  | none => latest

/-- The sniffer in front of anything but the value of the field. -/
def settled (latest : Option Usage) : UsageSniffer := ⟨.searching 0, [], latest⟩

/-- The sniffer behind a value. -/
def Loose (latest : Option Usage) (sniffer : UsageSniffer) : Prop :=
  sniffer = settled latest ∨ sniffer = ⟨.searching 1, [], latest⟩ ∨ sniffer = ⟨.awaitingColon, [], latest⟩

section Feeding

variable (decode : List UInt8 → Option UsageFields) (latest : Option Usage)

theorem finishObject_eq (object : List UInt8) (state : SnifferState) :
    finishObject decode ⟨state, object, latest⟩ = settled (keepLatest decode latest object) := rfl

theorem feed_settled {bytes : List UInt8} (hbytes : ∀ byte ∈ bytes, byte ≠ 34) :
    feed decode bytes (settled latest) = settled latest := by
  induction bytes with
  | nil => rfl
  | cons byte bytes ih =>
      have hquote := hbytes byte List.mem_cons_self
      have hmatch : ¬needle[0]? = some byte := fun h => hquote (Option.some.inj h).symm
      have hfeed : feedByte decode byte (settled latest) = settled latest := by
        simp only [feedByte, settled, if_neg hmatch, if_neg hquote]
      rw [feed_cons, hfeed]
      exact ih fun other h => hbytes other (List.mem_cons_of_mem _ h)

theorem blank_ne_quote {blanks : List Blank} {byte : UInt8} (h : byte ∈ blankBytes blanks) : byte ≠ 34 := by
  obtain ⟨blank, -, rfl⟩ := List.mem_map.mp h
  cases blank <;> decide

/-- The states that wait for a colon or a value pass over blanks. -/
theorem feed_blanks {state : SnifferState} (hstate : state = .awaitingColon ∨ state = .awaitingValue)
    (blanks : List Blank) : feed decode (blankBytes blanks) ⟨state, [], latest⟩ = ⟨state, [], latest⟩ := by
  induction blanks with
  | nil => rfl
  | cons blank blanks ih =>
      have hfeed : feedByte decode blank.byte ⟨state, [], latest⟩ = ⟨state, [], latest⟩ := by
        rcases hstate with rfl | rfl
        · cases blank <;> rfl
        · cases blank <;> rfl
      show feed decode (blankBytes blanks) (feedByte decode blank.byte ⟨state, [], latest⟩) = _
      rw [hfeed]
      exact ih

theorem feed_settled_blanks (blanks : List Blank) :
    feed decode (blankBytes blanks) (settled latest) = settled latest :=
  feed_settled decode latest fun _ => blank_ne_quote

/-- A blank behind a closing quote. -/
theorem feed_quote_blanks (blank : Blank) (blanks : List Blank) :
    feed decode (blankBytes (blank :: blanks)) ⟨.searching 1, [], latest⟩ = settled latest := by
  have hfeed : feedByte decode blank.byte ⟨.searching 1, [], latest⟩ = settled latest := by cases blank <;> rfl
  show feed decode (blankBytes blanks) (feedByte decode blank.byte ⟨.searching 1, [], latest⟩) = _
  rw [hfeed, feed_settled_blanks]

variable {latest}

theorem Loose.blanks {sniffer : UsageSniffer} (h : Loose latest sniffer) (blanks : List Blank) :
    Loose latest (feed decode (blankBytes blanks) sniffer) := by
  rcases h with rfl | rfl | rfl
  · exact .inl (feed_settled_blanks decode latest blanks)
  · cases blanks with
    | nil => exact .inr (.inl rfl)
    | cons blank blanks => exact .inl (feed_quote_blanks decode latest blank blanks)
  · exact .inr (.inr (feed_blanks decode latest (.inl rfl) blanks))

/-- A comma, a closing bracket or a closing brace. -/
theorem Loose.delimiter {sniffer : UsageSniffer} (h : Loose latest sniffer) {byte : UInt8}
    (hbyte : byte ∈ [44, 93, 125]) :
    feedByte decode byte sniffer = settled latest := by
  simp only [List.mem_cons, List.not_mem_nil, or_false] at hbyte
  rcases hbyte with rfl | rfl | rfl
  all_goals
    rcases h with rfl | rfl | rfl
    · rfl
    · rfl
    · rfl

variable (latest)

theorem feed_literal (text : List Piece) :
    feed decode (literal text) (settled latest) = ⟨afterLiteral text, [], latest⟩ := feed_text decode latest text

theorem loose_afterLiteral (text : List Piece) : Loose latest ⟨afterLiteral text, [], latest⟩ := by
  unfold afterLiteral
  split
  · exact .inr (.inr rfl)
  · exact .inr (.inl rfl)

/-- Behind the colon of a member the sniffer awaits the value or it is settled. -/
theorem feed_name (name : Name) :
    feed decode name.bytes (settled latest) =
      if endsInUsage name.key then ⟨.awaitingValue, [], latest⟩ else settled latest := by
  simp only [Name.bytes, feed_append, feed_settled_blanks, feed_literal, feed_cons, feed_nil, afterLiteral]
  cases endsInUsage name.key with
  | true =>
      rw [if_pos rfl, if_pos rfl, feed_blanks decode latest (.inl rfl)]
      rfl
  | false =>
      rw [if_neg (by decide), if_neg (by decide)]
      -- the colon is no part of the needle, whether or not blanks stand in front of it
      cases name.after with
      | nil => rfl
      | cons blank blanks =>
          rw [feed_quote_blanks]
          rfl

/-- Where a value is awaited, anything but an object is read as it is elsewhere. -/
theorem feed_awaited {value : Value} (hvalue : ∀ object, value ≠ .object object) :
    feed decode value.bytes ⟨.awaitingValue, [], latest⟩ = feed decode value.bytes (settled latest) := by
  have hfirst : ∀ byte rest, byte ≠ 123 → byte ≠ 110 → Bytes.isAsciiWhitespace byte = false →
      feed decode (byte :: rest) ⟨.awaitingValue, [], latest⟩ = feed decode (byte :: rest) (settled latest) := by
    intro byte rest hbrace hnull hblank
    rw [feed_cons, feed_cons]
    congr 1
    simp only [feedByte, settled, restart, if_neg hbrace, if_neg hnull, hblank, Bool.false_eq_true, if_false]
    by_cases hquote : byte = 34
    · subst hquote
      rfl
    · have hmatch : ¬needle[0]? = some byte := fun h => hquote (Option.some.inj h).symm
      rw [if_neg hmatch]
  cases value with
  | null => rfl
  | boolean value =>
      cases value with
      | true => exact hfirst _ _ (by decide) (by decide) (by decide)
      | false => exact hfirst _ _ (by decide) (by decide) (by decide)
  | number number =>
      rw [Value.bytes]
      cases hbytes : number.bytes with
      | nil => exact absurd hbytes number.bytes_ne_nil
      | cons byte rest =>
          have hbyte : isNumberByte byte = true :=
            Number.isNumberByte_of_mem (by rw [hbytes]; exact List.mem_cons_self)
          obtain ⟨hbrace, hnull, hblank⟩ := isNumberByte_unlike hbyte
          exact hfirst byte rest hbrace hnull hblank
  | string text => exact hfirst _ _ (by decide) (by decide) (by decide)
  | emptyArray blanks => exact hfirst _ _ (by decide) (by decide) (by decide)
  | array elements => exact hfirst _ _ (by decide) (by decide) (by decide)
  | object object => exact absurd rfl (hvalue object)

end Feeding

section Values

variable (decode : List UInt8 → Option UsageFields)

/-- The latest counts after some more objects. -/
def recordAll (latest : Option Usage) (objects : List Object) : Option Usage :=
  objects.foldl (fun latest object => keepLatest decode latest object.bytes) latest

theorem recordAll_append (latest : Option Usage) (first second : List Object) :
    recordAll decode latest (first ++ second) = recordAll decode (recordAll decode latest first) second :=
  List.foldl_append

/-- Every object fits into the buffer. -/
def Fit (objects : List Object) : Prop := ∀ object ∈ objects, object.bytes.length ≤ maxObjectBytes

theorem Fit.append {first second : List Object} (h : Fit (first ++ second)) : Fit first ∧ Fit second :=
  List.forall_mem_append.mp h

/-- Reading these bytes, from wherever the sniffer is settled, records these objects and leaves it behind a value. -/
def Reads (bytes : List UInt8) (objects : List Object) : Prop :=
  Fit objects → ∀ latest, Loose (recordAll decode latest objects) (feed decode bytes (settled latest))

variable {decode}

theorem Reads.unquoted {bytes : List UInt8} (hbytes : ∀ byte ∈ bytes, byte ≠ 34) : Reads decode bytes [] :=
  fun _ latest => .inl (feed_settled decode latest hbytes)

theorem Reads.inert {bytes : List UInt8} (hbytes : ∀ byte ∈ bytes, isInert byte = true) : Reads decode bytes [] := by
  apply Reads.unquoted
  intro byte hbyte
  have hinert := hbytes byte hbyte
  simp only [isInert, Bool.and_eq_true, bne_iff_ne] at hinert
  exact hinert.1.1

theorem Reads.blanks {bytes : List UInt8} {objects : List Object} (h : Reads decode bytes objects)
    (before after : List Blank) : Reads decode (blankBytes before ++ bytes ++ blankBytes after) objects := by
  intro hfit latest
  rw [feed_append, feed_append, feed_settled_blanks]
  exact (h hfit latest).blanks decode after

theorem Reads.comma {bytes rest : List UInt8} {objects others : List Object} (h : Reads decode bytes objects)
    (hrest : Reads decode rest others) : Reads decode (bytes ++ 44 :: rest) (objects ++ others) := by
  intro hfit latest
  obtain ⟨hobjects, hothers⟩ := hfit.append
  rw [feed_append, feed_cons, (h hobjects latest).delimiter decode (by simp), recordAll_append]
  exact hrest hothers _

/-- An opening byte that is passed over and a closing bracket. -/
theorem feed_enclosed {opening closing : UInt8} (hopening : opening ≠ 34) (hclosing : closing ∈ [44, 93, 125])
    {bytes : List UInt8} {objects : List Object} (h : Reads decode bytes objects) (hfit : Fit objects)
    (latest : Option Usage) :
    feed decode (opening :: (bytes ++ [closing])) (settled latest) = settled (recordAll decode latest objects) := by
  have hfirst : feed decode [opening] (settled latest) = settled latest :=
    feed_settled decode latest fun byte hbyte => by rwa [List.mem_singleton.mp hbyte]
  rw [feed_cons, feed_nil] at hfirst
  rw [feed_cons, hfirst, feed_append, feed_cons, feed_nil]
  exact (h hfit latest).delimiter decode hclosing

theorem Reads.enclosed {opening closing : UInt8} (hopening : opening ≠ 34) (hclosing : closing ∈ [44, 93, 125])
    {bytes : List UInt8} {objects : List Object} (h : Reads decode bytes objects) :
    Reads decode (opening :: (bytes ++ [closing])) objects :=
  fun hfit latest => .inl (feed_enclosed hopening hclosing h hfit latest)

/-- A member, given its value. -/
theorem Reads.member (name : Name) (before : List Blank) {value : Value}
    (hvalue : Reads decode value.bytes (valueCaptures value)) (after : List Blank) :
    Reads decode (name.bytes ++ blankBytes before ++ value.bytes ++ blankBytes after)
      (memberCaptures name.key value (valueCaptures value)) := by
  intro hfit latest
  rw [feed_append, feed_append, feed_append, feed_name]
  apply Loose.blanks
  cases hkey : endsInUsage name.key with
  | false =>
      have hsame : memberCaptures name.key value (valueCaptures value) = valueCaptures value := by
        cases value <;> simp [memberCaptures, hkey]
      rw [hsame] at hfit ⊢
      rw [if_neg (by decide), feed_settled_blanks]
      exact hvalue hfit latest
  | true =>
      rw [if_pos rfl, feed_blanks decode latest (.inr rfl)]
      by_cases hobject : ∃ object, value = .object object
      · obtain ⟨object, rfl⟩ := hobject
        simp only [memberCaptures, hkey, if_true] at hfit ⊢
        rw [Value.bytes, feed_isObject rfl (isObject_bytes object) (hfit _ List.mem_cons_self), finishObject_eq]
        exact .inl rfl
      · have hsame : memberCaptures name.key value (valueCaptures value) = valueCaptures value := by
          cases value with
          | object object => exact absurd ⟨object, rfl⟩ hobject
          | _ => rfl
        rw [hsame] at hfit ⊢
        rw [feed_awaited decode latest fun object h => hobject ⟨object, h⟩]
        exact hvalue hfit latest

variable (decode)

mutual

theorem reads_value (value : Value) : Reads decode value.bytes (valueCaptures value) := by
  cases value with
  | null => exact Reads.inert (List.all_eq_true.mp rfl)
  | boolean value =>
      cases value with
      | true => exact Reads.inert (List.all_eq_true.mp rfl)
      | false => exact Reads.inert (List.all_eq_true.mp rfl)
  | number number => exact Reads.inert fun _ h => isInert_of_isNumberByte (Number.isNumberByte_of_mem h)
  | string text =>
      intro _ latest
      rw [Value.bytes, feed_literal]
      exact loose_afterLiteral latest text
  | emptyArray blanks =>
      exact Reads.enclosed (by decide) (by decide) (Reads.unquoted fun _ => blank_ne_quote)
  | array elements => exact Reads.enclosed (by decide) (by decide) (reads_elements elements)
  | object object => exact reads_object object

theorem reads_elements (elements : Elements) : Reads decode elements.bytes (elementsCaptures elements) := by
  cases elements with
  | last before value after => exact (reads_value value).blanks before after
  | more before value after rest => exact ((reads_value value).blanks before after).comma (reads_elements rest)

theorem reads_object (object : Object) : Reads decode object.bytes (objectCaptures object) := by
  cases object with
  | empty blanks => exact Reads.enclosed (by decide) (by decide) (Reads.unquoted fun _ => blank_ne_quote)
  | members members => exact Reads.enclosed (by decide) (by decide) (reads_members members)

theorem reads_members (members : Members) : Reads decode members.bytes (membersCaptures members) := by
  cases members with
  | last name before value after => exact (reads_value value).member name before after
  | more name before value after rest => exact ((reads_value value).member name before after).comma (reads_members rest)

end

end Values

end UsageSniffer

end MistralrsProxy
