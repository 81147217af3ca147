import Mathlib.Data.List.Basic
import Mathlib.Order.Lex
import Mathlib.Tactic.Ring

/-! Numbers printed in decimal with leading zeros. They can be read back, and numbers of one width are ordered as their
texts are. Nothing here refers to a particular program. -/

namespace Decimal

/-- The digits of a number, with zeros in front of them up to a width. -/
def pad (width value : Nat) : List Char :=
  List.replicate (width - (Nat.toDigits 10 value).length) '0' ++ Nat.toDigits 10 value

def read (digits : List Char) : Nat := Nat.ofDigitChars 10 digits 0

section Pad

variable {width value : Nat}

theorem read_pad (width value : Nat) : read (pad width value) = value := by
  rw [read, pad, Nat.ofDigitChars_append, Nat.ofDigitChars_replicate_zero, Nat.mul_zero, Nat.ofDigitChars_ten_toDigits]

theorem isDigit_pad : ∀ char ∈ pad width value, char.isDigit = true := by
  intro char hchar
  rcases List.mem_append.mp hchar with hzero | hdigit
  · rw [List.eq_of_mem_replicate hzero]
    decide
  · exact Nat.isDigit_of_mem_toDigits (by decide) (by decide) hdigit

theorem length_pad (hwidth : 0 < width) (h : value < 10 ^ width) : (pad width value).length = width := by
  have hdigits : (Nat.toDigits 10 value).length ≤ width :=
    (Nat.length_toDigits_le_iff (by decide) hwidth).mpr h
  rw [pad, List.length_append, List.length_replicate]
  omega

end Pad

section Order

variable {left right : List Char}

theorem read_cons (char : Char) (digits : List Char) :
    read (char :: digits) = 10 ^ digits.length * (char.toNat - '0'.toNat) + read digits := by
  rw [read, Nat.ofDigitChars_cons, Nat.ofDigitChars_eq_ofDigitChars_zero, Nat.mul_zero, Nat.zero_add]
  rfl

theorem isDigit_bounds {char : Char} (h : char.isDigit = true) : '0'.toNat ≤ char.toNat ∧ char.toNat ≤ '9'.toNat := by
  simpa [Char.isDigit, UInt32.le_iff_toNat_le] using h

theorem read_lt {digits : List Char} (h : ∀ char ∈ digits, char.isDigit = true) : read digits < 10 ^ digits.length := by
  induction digits with
  | nil => decide
  | cons char digits ih =>
      have hrest := ih fun other hother => h other (List.mem_cons_of_mem _ hother)
      have hbounds := isDigit_bounds (h char List.mem_cons_self)
      have hcodes : '0'.toNat = 48 ∧ '9'.toNat = 57 := by decide
      have hdigit : char.toNat - '0'.toNat ≤ 9 := by omega
      have hscaled := Nat.mul_le_mul_left (10 ^ digits.length) hdigit
      rw [read_cons, List.length_cons, Nat.pow_succ]
      omega

/-- Of two texts of one length the smaller is the smaller number. -/
theorem read_lt_iff (hlength : left.length = right.length) (hleft : ∀ char ∈ left, char.isDigit = true)
    (hright : ∀ char ∈ right, char.isDigit = true) : read left < read right ↔ left < right := by
  induction left generalizing right with
  | nil =>
      obtain rfl : right = [] := List.eq_nil_of_length_eq_zero hlength.symm
      simp
  | cons first left ih =>
      cases right with
      | nil => cases hlength
      | cons second right =>
          have hlengths : left.length = right.length := Nat.succ.inj hlength
          have hleftRest : ∀ char ∈ left, char.isDigit = true :=
            fun char hchar => hleft char (List.mem_cons_of_mem _ hchar)
          have hrightRest : ∀ char ∈ right, char.isDigit = true :=
            fun char hchar => hright char (List.mem_cons_of_mem _ hchar)
          have hrest := ih hlengths hleftRest hrightRest
          have hleftLt := read_lt hleftRest
          have hrightLt := read_lt hrightRest
          have hfirst := isDigit_bounds (hleft first List.mem_cons_self)
          have hsecond := isDigit_bounds (hright second List.mem_cons_self)
          rw [List.cons_lt_cons_iff, ← hrest, read_cons, read_cons, ← hlengths]
          rw [← hlengths] at hrightLt
          rcases Nat.lt_trichotomy first.toNat second.toNat with hlt | heq | hgt
          · have hscaled := Nat.mul_le_mul_left (10 ^ left.length)
              (show first.toNat - '0'.toNat + 1 ≤ second.toNat - '0'.toNat by omega)
            rw [Nat.mul_add, Nat.mul_one] at hscaled
            have hchars : first < second := hlt
            simp only [hchars, true_or, iff_true]
            omega
          · obtain rfl : first = second := Char.toNat_inj.mp heq
            simp
          · have hscaled := Nat.mul_le_mul_left (10 ^ left.length)
              (show second.toNat - '0'.toNat + 1 ≤ first.toNat - '0'.toNat by omega)
            rw [Nat.mul_add, Nat.mul_one] at hscaled
            have hchars : ¬first < second := Nat.lt_asymm hgt
            have hne : first ≠ second := fun heq => Nat.lt_irrefl _ (heq ▸ hgt)
            simp only [hchars, hne, false_and, or_false, iff_false]
            omega

/-- Texts are compared part by part when the first parts have one length. -/
theorem append_lt_append_iff {left' right' : List Char} (hlength : left.length = right.length) :
    left ++ left' < right ++ right' ↔ left < right ∨ left = right ∧ left' < right' := by
  induction left generalizing right with
  | nil =>
      obtain rfl : right = [] := List.eq_nil_of_length_eq_zero hlength.symm
      simp
  | cons first left ih =>
      cases right with
      | nil => cases hlength
      | cons second right =>
          rw [List.cons_append, List.cons_append, List.cons_lt_cons_iff, ih (Nat.succ.inj hlength),
            List.cons_lt_cons_iff, List.cons.injEq]
          tauto

theorem pad_lt_pad_iff {width value value' : Nat} (hwidth : 0 < width) (h : value < 10 ^ width)
    (h' : value' < 10 ^ width) :
    pad width value < pad width value' ↔ value < value' := by
  rw [← read_lt_iff (by rw [length_pad hwidth h, length_pad hwidth h']) isDigit_pad isDigit_pad, read_pad, read_pad]

theorem pad_inj {width value value' : Nat} : pad width value = pad width value' ↔ value = value' := by
  constructor
  · intro h
    rw [← read_pad width value, h, read_pad]
  · intro h
    rw [h]

/-- A padded number decides the order unless it is the same in both texts. -/
theorem pad_append_lt_iff {width value value' : Nat} {left right : List Char} (hwidth : 0 < width)
    (h : value < 10 ^ width)
    (h' : value' < 10 ^ width) (separator : Char) :
    pad width value ++ separator :: left < pad width value' ++ separator :: right ↔
      value < value' ∨ value = value' ∧ left < right := by
  rw [append_lt_append_iff (by rw [length_pad hwidth h, length_pad hwidth h']), pad_lt_pad_iff hwidth h h', pad_inj,
    List.cons_lt_cons_iff]
  have hirrefl : ¬separator < separator := Nat.lt_irrefl _
  simp only [hirrefl, false_or, true_and]

end Order

end Decimal
