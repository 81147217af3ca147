import MistralrsProxy.UsageBounds
import MistralrsProxy.JsonText

/-! The sniffer inside a JSON string. A quote inside the text of a string has a backslash in front of it, which no match
of the needle runs across, so that the needle can be completed by the closing quote only. -/

namespace MistralrsProxy

namespace UsageSniffer

open JsonText

/-- How much of the needle the bytes seen end with. -/
def Tracks (matched : Nat) (seen : List UInt8) : Prop :=
  matched ≤ 6 ∧ ∀ length, 1 ≤ length → length ≤ 6 → (needle.take length <:+ seen ↔ length = matched)

/-- Only the first and the last byte of the needle are quotes. -/
theorem needle_quote {position : Nat} (h : position ≤ 5) : needle[position]? = some 34 ↔ position = 0 := by
  have hall : ∀ position ≤ 5, needle[position]? = some 34 ↔ position = 0 := by decide
  exact hall position h

theorem take_succ_suffix {position : Nat} (h : position < needle.length) (seen : List UInt8) (byte : UInt8) :
    needle.take (position + 1) <:+ seen ++ [byte] ↔ needle.take position <:+ seen ∧ needle[position]? = some byte := by
  rw [List.take_succ_eq_append_getElem h, List.getElem?_eq_getElem h, List.suffix_concat_iff]
  constructor
  · rintro (hnil | ⟨front, hfront, hsuffix⟩)
    · exact absurd hnil (List.append_ne_nil_of_right_ne_nil _ (List.cons_ne_nil _ _))
    · obtain ⟨rfl, hbyte⟩ := List.append_inj' hfront rfl
      exact ⟨hsuffix, by simpa using hbyte⟩
  · rintro ⟨hsuffix, hbyte⟩
    obtain rfl := Option.some.inj hbyte
    exact .inr ⟨_, rfl, hsuffix⟩

theorem tracks_nil : Tracks 0 [] := by
  refine ⟨by omega, ?_⟩
  intro length hpos hle
  rw [List.suffix_nil]
  constructor
  · intro hnil
    have hlength := congrArg List.length hnil
    rw [List.length_take, List.length_nil, show needle.length = 7 from rfl] at hlength
    omega
  · omega

/-- What one more byte makes of a match. -/
theorem Tracks.concat {matched next : Nat} {seen : List UInt8} {byte : UInt8} (htracks : Tracks matched seen)
    (hle : next ≤ 6) (hfirst : byte = 34 ↔ next = 1)
    (hlater : ∀ position, 1 ≤ position → position ≤ 5 →
      (position = matched ∧ needle[position]? = some byte ↔ position + 1 = next)) :
    Tracks next (seen ++ [byte]) := by
  have hlength : needle.length = 7 := rfl
  refine ⟨hle, ?_⟩
  intro length hpos hbound
  obtain ⟨position, rfl⟩ := Nat.exists_eq_add_of_le' hpos
  rw [take_succ_suffix (by omega)]
  rcases Nat.eq_zero_or_pos position with rfl | hposition
  · have hquote : needle[0]? = some byte ↔ byte = 34 := by
      rw [show needle[0]? = some 34 from rfl, Option.some_inj]
      exact eq_comm
    rw [hquote, hfirst]
    exact ⟨fun h => h.2.symm, fun h => ⟨List.nil_suffix, h.symm⟩⟩
  · rw [htracks.2 position hposition (by omega)]
    exact hlater position hposition (by omega)

section Strings

variable (decode : List UInt8 → Option UsageFields) (latest : Option Usage) {matched : Nat} {seen : List UInt8}

/-- A byte that does not complete the needle. -/
theorem feedByte_tracks (byte : UInt8) (htracks : Tracks matched seen) (hopen : matched = 6 → byte ≠ 34) :
    ∃ next, feedByte decode byte ⟨.searching matched, [], latest⟩ = ⟨.searching next, [], latest⟩ ∧
      Tracks next (seen ++ [byte]) := by
  have hle := htracks.1
  by_cases hmatch : needle[matched]? = some byte
  · have hshort : matched ≤ 5 := by
      by_contra hlong
      obtain rfl : matched = 6 := by omega
      exact hopen rfl (Option.some.inj hmatch).symm
    refine ⟨matched + 1, ?_, htracks.concat (by omega) ?_ ?_⟩
    · simp only [feedByte, if_pos hmatch]
      rw [if_neg (show ¬matched + 1 = needle.length from by rw [show needle.length = 7 from rfl]; omega)]
    · have hquote := needle_quote hshort
      rw [hmatch, Option.some_inj] at hquote
      rw [hquote]
      omega
    · intro position _ _
      constructor
      · omega
      · intro heq
        obtain rfl : position = matched := by omega
        exact ⟨rfl, hmatch⟩
  · refine ⟨if byte = 34 then 1 else 0, ?_, htracks.concat (by split_ifs <;> omega) ?_ ?_⟩
    · simp only [feedByte, if_neg hmatch]
    · by_cases hquote : byte = 34
      · rw [if_pos hquote]
        exact iff_of_true hquote rfl
      · rw [if_neg hquote]
        exact iff_of_false hquote Nat.zero_ne_one
    · intro position hposition _
      constructor
      · rintro ⟨rfl, hbyte⟩
        exact absurd hbyte hmatch
      · intro heq
        split_ifs at heq
        omega

theorem feed_tracks (bytes : List UInt8) (hbytes : ∀ byte ∈ bytes, byte ≠ 34) (htracks : Tracks matched seen) :
    ∃ next, feed decode bytes ⟨.searching matched, [], latest⟩ = ⟨.searching next, [], latest⟩ ∧
      Tracks next (seen ++ bytes) := by
  induction bytes generalizing matched seen with
  | nil => exact ⟨matched, rfl, by rwa [List.append_nil]⟩
  | cons byte bytes ih =>
      obtain ⟨middle, hbyte, hmiddle⟩ :=
        feedByte_tracks decode latest byte htracks fun _ => hbytes byte List.mem_cons_self
      obtain ⟨next, hrest, hnext⟩ := ih (fun other h => hbytes other (List.mem_cons_of_mem _ h)) hmiddle
      refine ⟨next, ?_, ?_⟩
      · rw [feed_cons, hbyte, hrest]
      · rwa [List.append_assoc, List.singleton_append] at hnext

/-- Behind a backslash nothing of the needle is matched. -/
theorem Tracks.backslash (htracks : Tracks matched (seen ++ [92])) : matched ≠ 6 := by
  rintro rfl
  have hsuffix := (htracks.2 6 (by omega) (by omega)).mpr rfl
  rw [take_succ_suffix (by decide)] at hsuffix
  exact absurd hsuffix.2 (by decide)

theorem feed_piece (piece : Piece) (htracks : Tracks matched seen) :
    ∃ next, feed decode piece.bytes ⟨.searching matched, [], latest⟩ = ⟨.searching next, [], latest⟩ ∧
      Tracks next (seen ++ piece.bytes) := by
  cases piece with
  | plain byte =>
      apply feed_tracks decode latest [byte.val] _ htracks
      intro other hother
      obtain rfl := List.mem_singleton.mp hother
      exact (isPlain_ne byte.property).1
  | escape byte =>
      obtain ⟨middle, hfeed, hmiddle⟩ := feedByte_tracks decode latest 92 htracks fun _ => by decide
      obtain ⟨next, hrest, hnext⟩ := feedByte_tracks decode latest byte.val hmiddle fun h => absurd h hmiddle.backslash
      refine ⟨next, ?_, ?_⟩
      · simp only [Piece.bytes, feed_cons, feed_nil, hfeed, hrest]
      · rwa [List.append_assoc, List.singleton_append] at hnext
  | unicode first second third fourth =>
      apply feed_tracks decode latest _ _ htracks
      have hdigit : ∀ digit : HexDigit, digit.val ≠ 34 := fun digit => (isHexDigit_ne digit.property).1
      simp only [Piece.bytes, List.forall_mem_cons]
      exact ⟨by decide, by decide, hdigit first, hdigit second, hdigit third, hdigit fourth, by simp⟩

theorem feed_pieces (text : List Piece) (htracks : Tracks matched seen) :
    ∃ next, feed decode (pieceBytes text) ⟨.searching matched, [], latest⟩ = ⟨.searching next, [], latest⟩ ∧
      Tracks next (seen ++ pieceBytes text) := by
  induction text generalizing matched seen with
  | nil => exact ⟨matched, rfl, by simpa [pieceBytes] using htracks⟩
  | cons piece text ih =>
      obtain ⟨middle, hpiece, hmiddle⟩ := feed_piece decode latest piece htracks
      obtain ⟨next, hrest, hnext⟩ := ih hmiddle
      refine ⟨next, ?_, ?_⟩
      · rw [pieceBytes, List.flatMap_cons, feed_append, hpiece]
        exact hrest
      · rwa [List.append_assoc] at hnext

/-- The key literals that the sniffer takes for the field name. -/
def endsInUsage (text : List Piece) : Bool := needle.isSuffixOf (literal text)

def afterLiteral (text : List Piece) : SnifferState := if endsInUsage text then .awaitingColon else .searching 1

theorem feed_text (text : List Piece) :
    feed decode (pieceBytes text ++ [34]) ⟨.searching 1, [], latest⟩ = ⟨afterLiteral text, [], latest⟩ := by
  have hopening : Tracks 1 [34] := by
    obtain ⟨next, hfeed, hnext⟩ := feedByte_tracks decode latest 34 tracks_nil (by omega)
    have hstate := congrArg UsageSniffer.state hfeed
    obtain rfl : next = 1 := (SnifferState.searching.inj hstate).symm
    exact hnext
  obtain ⟨matched, hfeed, htracks⟩ := feed_pieces decode latest text hopening
  have hliteral : endsInUsage text = true ↔ matched = 6 := by
    have hsplit : literal text = ([34] ++ pieceBytes text) ++ [34] := rfl
    rw [endsInUsage, List.isSuffixOf_iff_suffix, hsplit, show needle = needle.take (6 + 1) from rfl,
      take_succ_suffix (by decide), htracks.2 6 (by omega) (by omega)]
    exact ⟨fun h => h.1.symm, fun h => ⟨h.symm, rfl⟩⟩
  rw [feed_append, hfeed, feed_cons, feed_nil, afterLiteral]
  by_cases hlast : matched = 6
  · rw [if_pos (hliteral.mpr hlast), hlast]
    rfl
  · rw [if_neg (fun h => hlast (hliteral.mp h))]
    obtain ⟨next, hquote, hnext⟩ := feedByte_tracks decode latest 34 htracks fun h => absurd h hlast
    rw [hquote]
    have hone : needle.take 1 <:+ [34] ++ pieceBytes text ++ [34] := (List.suffix_append _ _)
    obtain rfl := (hnext.2 1 (by omega) (by omega)).mp hone
    rfl

end Strings

end UsageSniffer

end MistralrsProxy
