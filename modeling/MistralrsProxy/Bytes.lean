import Mathlib.Data.List.Basic
import Mathlib.Data.List.DropRight

/-! Bytes as the standard library classifies them. Nothing here refers to a particular program. -/

namespace Bytes

/-- `u8::is_ascii_whitespace`: space, tab, line feed, form feed and carriage return. -/
def isAsciiWhitespace (byte : UInt8) : Bool :=
  byte == 32 || byte == 9 || byte == 10 || byte == 12 || byte == 13

/-- `u8::to_ascii_lowercase`. -/
def toAsciiLowercase (byte : UInt8) : UInt8 :=
  if 65 ≤ byte.toNat ∧ byte.toNat ≤ 90 then UInt8.ofNat (byte.toNat + 32) else byte

@[simp] theorem toAsciiLowercase_toAsciiLowercase (byte : UInt8) :
    toAsciiLowercase (toAsciiLowercase byte) = toAsciiLowercase byte := by
  have hidempotent : ∀ code < 256, toAsciiLowercase (toAsciiLowercase (UInt8.ofNat code)) =
      toAsciiLowercase (UInt8.ofNat code) := by
    decide +kernel
  have hbyte := hidempotent byte.toNat byte.toNat_lt
  rwa [UInt8.ofNat_toNat] at hbyte

/-- The bytes between the white space at the two ends. -/
def trimAscii (bytes : List UInt8) : List UInt8 := (bytes.rdropWhile isAsciiWhitespace).dropWhile isAsciiWhitespace

/-- `slice::iter().rposition(..)`. -/
def rposition (test : UInt8 → Bool) (bytes : List UInt8) : Option Nat :=
  (bytes.reverse.findIdx? test).map fun index => bytes.length - 1 - index

/-- The slice from the first byte that is no white space to the last one is the trimmed text. -/
theorem slice_positions {bytes : List UInt8} {first last : Nat}
    (hfirst : bytes.findIdx? (fun byte => !isAsciiWhitespace byte) = some first)
    (hlast : rposition (fun byte => !isAsciiWhitespace byte) bytes = some last) :
    (bytes.take (last + 1)).drop first = trimAscii bytes ∧ first ≤ last ∧ last < bytes.length := by
  obtain ⟨index, hindex, rfl⟩ := Option.map_eq_some_iff.mp hlast
  obtain ⟨hindexLt, hindexEq⟩ := List.findIdx?_eq_some_iff_findIdx_eq.mp hindex
  obtain ⟨hfirstLt, hfirstEq⟩ := List.findIdx?_eq_some_iff_findIdx_eq.mp hfirst
  rw [List.length_reverse] at hindexLt
  have hback : bytes.rdropWhile isAsciiWhitespace = bytes.take (bytes.length - 1 - index + 1) := by
    rw [List.rdropWhile, List.dropWhile_eq_drop_findIdx_not, hindexEq, List.drop_reverse, List.reverse_reverse]
    congr 1
    omega
  have hsome : bytes.rdropWhile isAsciiWhitespace ≠ [] := by
    rw [hback]
    apply List.ne_nil_of_length_pos
    rw [List.length_take]
    omega
  have hkept : (bytes.rdropWhile isAsciiWhitespace).findIdx (fun byte => !isAsciiWhitespace byte) <
      (bytes.rdropWhile isAsciiWhitespace).length := by
    refine List.findIdx_lt_length_of_exists ⟨_, List.getLast_mem hsome, ?_⟩
    simpa using List.rdropWhile_last_not isAsciiWhitespace bytes hsome
  -- What is cut off at the end is white space, so the first position is the same without it.
  have hsame : (bytes.rdropWhile isAsciiWhitespace).findIdx (fun byte => !isAsciiWhitespace byte) = first := by
    have hsplit : bytes.rdropWhile isAsciiWhitespace ++ bytes.rtakeWhile isAsciiWhitespace = bytes :=
      List.rdropWhile_append_rtakeWhile ..
    rw [← hfirstEq]
    conv_rhs => rw [← hsplit, List.findIdx_append, if_pos hkept]
  rw [hsame, hback, List.length_take] at hkept
  refine ⟨?_, by omega, by omega⟩
  rw [trimAscii, List.dropWhile_eq_drop_findIdx_not, hsame, hback]

end Bytes
