import Mathlib.Data.List.Basic

/-! JSON texts as they are written, white space and escapes included. The grammar is a family of types, so that every
value of them is a text and every text is the bytes of one; that the bytes inside strings are UTF-8 is not asked for.
Nothing here refers to a particular program. -/

namespace JsonText

inductive Blank where
  | space
  | tab
  | lineFeed
  | carriageReturn
  deriving DecidableEq, Repr

def Blank.byte : Blank → UInt8
  | .space => 32
  | .tab => 9
  | .lineFeed => 10
  | .carriageReturn => 13

def blankBytes (blanks : List Blank) : List UInt8 := blanks.map Blank.byte

/-- A byte that stands for itself in a string. -/
def isPlain (byte : UInt8) : Bool := decide (32 ≤ byte.toNat) && byte != 34 && byte != 92

/-- A byte that may follow a backslash on its own. -/
def isEscape (byte : UInt8) : Bool := [34, 92, 47, 98, 102, 110, 114, 116].contains byte

def isHexDigit (byte : UInt8) : Bool :=
  (decide (48 ≤ byte.toNat) && decide (byte.toNat ≤ 57)) || (decide (65 ≤ byte.toNat) && decide (byte.toNat ≤ 70)) ||
    (decide (97 ≤ byte.toNat) && decide (byte.toNat ≤ 102))

abbrev HexDigit := { byte : UInt8 // isHexDigit byte = true }

/-- A piece of a string: a byte, an escape such as `\n`, or an escape with four hexadecimal digits. -/
inductive Piece where
  | plain (byte : { byte : UInt8 // isPlain byte = true })
  | escape (byte : { byte : UInt8 // isEscape byte = true })
  | unicode (first second third fourth : HexDigit)
  deriving DecidableEq

def Piece.bytes : Piece → List UInt8
  | .plain byte => [byte]
  | .escape byte => [92, byte]
  | .unicode first second third fourth => [92, 117, first, second, third, fourth]

def pieceBytes (text : List Piece) : List UInt8 := text.flatMap Piece.bytes

/-- A string with its quotes. -/
def literal (text : List Piece) : List UInt8 := 34 :: (pieceBytes text ++ [34])

/-- One digit or more. -/
structure Digits where
  first : Fin 10
  rest : List (Fin 10)
  deriving DecidableEq, Repr

def digitByte (digit : Fin 10) : UInt8 := UInt8.ofNat (48 + digit.val)

def Digits.bytes (digits : Digits) : List UInt8 := digitByte digits.first :: digits.rest.map digitByte

/-- The digits in front of the point, without a leading zero. -/
inductive Whole where
  | zero
  | positive (first : Fin 9) (rest : List (Fin 10))
  deriving DecidableEq, Repr

def Whole.bytes : Whole → List UInt8
  | .zero => [48]
  | .positive first rest => digitByte first.succ :: rest.map digitByte

inductive Sign where
  | none
  | plus
  | minus
  deriving DecidableEq, Repr

def Sign.bytes : Sign → List UInt8
  | .none => []
  | .plus => [43]
  | .minus => [45]

structure Exponent where
  capital : Bool
  sign : Sign
  digits : Digits
  deriving DecidableEq, Repr

def Exponent.bytes (exponent : Exponent) : List UInt8 :=
  (if exponent.capital then 69 else 101) :: (exponent.sign.bytes ++ exponent.digits.bytes)

structure Number where
  negative : Bool
  whole : Whole
  fraction : Option Digits
  exponent : Option Exponent
  deriving DecidableEq, Repr

def Number.bytes (number : Number) : List UInt8 :=
  (if number.negative then [45] else []) ++ number.whole.bytes ++
    (number.fraction.elim [] fun digits => 46 :: digits.bytes) ++ number.exponent.elim [] Exponent.bytes

/-- The key of a member, the blanks around it and the colon. -/
structure Name where
  before : List Blank
  key : List Piece
  after : List Blank
  deriving DecidableEq

def Name.bytes (name : Name) : List UInt8 := blankBytes name.before ++ literal name.key ++ blankBytes name.after ++ [58]

mutual

inductive Value where
  | null
  | boolean (value : Bool)
  | number (number : Number)
  | string (text : List Piece)
  | emptyArray (blanks : List Blank)
  | array (elements : Elements)
  | object (object : Object)

inductive Elements where
  | last (before : List Blank) (value : Value) (after : List Blank)
  | more (before : List Blank) (value : Value) (after : List Blank) (rest : Elements)

inductive Object where
  | empty (blanks : List Blank)
  | members (members : Members)

inductive Members where
  | last (name : Name) (before : List Blank) (value : Value) (after : List Blank)
  | more (name : Name) (before : List Blank) (value : Value) (after : List Blank) (rest : Members)

end

mutual

def Value.bytes : Value → List UInt8
  | .null => [110, 117, 108, 108]
  | .boolean true => [116, 114, 117, 101]
  | .boolean false => [102, 97, 108, 115, 101]
  | .number number => number.bytes
  | .string text => literal text
  | .emptyArray blanks => 91 :: (blankBytes blanks ++ [93])
  | .array elements => 91 :: (elements.bytes ++ [93])
  | .object object => object.bytes

/-- The elements of an array with the commas between them. -/
def Elements.bytes : Elements → List UInt8
  | .last before value after => blankBytes before ++ value.bytes ++ blankBytes after
  | .more before value after rest => blankBytes before ++ value.bytes ++ blankBytes after ++ 44 :: rest.bytes

def Object.bytes : Object → List UInt8
  | .empty blanks => 123 :: (blankBytes blanks ++ [125])
  | .members members => 123 :: (members.bytes ++ [125])

/-- The members of an object with the commas between them. -/
def Members.bytes : Members → List UInt8
  | .last name before value after => name.bytes ++ blankBytes before ++ value.bytes ++ blankBytes after
  | .more name before value after rest =>
      name.bytes ++ blankBytes before ++ value.bytes ++ blankBytes after ++ 44 :: rest.bytes

end

mutual

/-- The same value with nothing inside its strings; keys stay. -/
def Value.withoutText : Value → Value
  | .string _ => .string []
  | .array elements => .array elements.withoutText
  | .object object => .object object.withoutText
  | .null => .null
  | .boolean value => .boolean value
  | .number number => .number number
  | .emptyArray blanks => .emptyArray blanks

def Elements.withoutText : Elements → Elements
  | .last before value after => .last before value.withoutText after
  | .more before value after rest => .more before value.withoutText after rest.withoutText

def Object.withoutText : Object → Object
  | .empty blanks => .empty blanks
  | .members members => .members members.withoutText

def Members.withoutText : Members → Members
  | .last name before value after => .last name before value.withoutText after
  | .more name before value after rest => .more name before value.withoutText after rest.withoutText

end

section Bytes

theorem isPlain_ne {byte : UInt8} (h : isPlain byte = true) : byte ≠ 34 ∧ byte ≠ 92 := by
  simp only [isPlain, Bool.and_eq_true, bne_iff_ne] at h
  exact ⟨h.1.2, h.2⟩

theorem isHexDigit_ne {byte : UInt8} (h : isHexDigit byte = true) : byte ≠ 34 ∧ byte ≠ 92 := by
  constructor
  · rintro rfl
    exact absurd h (by decide)
  · rintro rfl
    exact absurd h (by decide)

/-- The bytes that mean nothing outside strings: no quote, no backslash, no brace, no blank and no letter that begins a
word. -/
def isNumberByte (byte : UInt8) : Bool :=
  (decide (48 ≤ byte.toNat) && decide (byte.toNat ≤ 57)) || [43, 45, 46, 69, 101].contains byte

theorem isNumberByte_digitByte (digit : Fin 10) : isNumberByte (digitByte digit) = true := by
  revert digit
  decide

theorem isNumberByte_map {digits : List (Fin 10)} {byte : UInt8} (h : byte ∈ digits.map digitByte) :
    isNumberByte byte = true := by
  obtain ⟨digit, -, rfl⟩ := List.mem_map.mp h
  exact isNumberByte_digitByte digit

theorem Digits.isNumberByte_of_mem {digits : Digits} {byte : UInt8} (h : byte ∈ digits.bytes) :
    isNumberByte byte = true := by
  rcases List.mem_cons.mp h with rfl | h
  · exact isNumberByte_digitByte _
  · exact isNumberByte_map h

theorem Whole.isNumberByte_of_mem {whole : Whole} {byte : UInt8} (h : byte ∈ whole.bytes) :
    isNumberByte byte = true := by
  cases whole with
  | zero =>
      obtain rfl := List.mem_singleton.mp h
      rfl
  | positive first rest =>
      rcases List.mem_cons.mp h with rfl | h
      · exact isNumberByte_digitByte _
      · exact isNumberByte_map h

theorem Exponent.isNumberByte_of_mem {exponent : Exponent} {byte : UInt8} (h : byte ∈ exponent.bytes) :
    isNumberByte byte = true := by
  rcases List.mem_cons.mp h with rfl | h
  · cases exponent.capital <;> rfl
  · rcases List.mem_append.mp h with h | h
    · cases hsign : exponent.sign <;> rw [hsign] at h <;>
        simp only [Sign.bytes, List.not_mem_nil, List.mem_singleton] at h
      · rw [h]
        rfl
      · rw [h]
        rfl
    · exact Digits.isNumberByte_of_mem h

theorem Number.isNumberByte_of_mem {number : Number} {byte : UInt8} (h : byte ∈ number.bytes) :
    isNumberByte byte = true := by
  simp only [Number.bytes, List.mem_append] at h
  rcases h with ((h | h) | h) | h
  · cases hnegative : number.negative <;> rw [hnegative] at h <;> simp at h
    rw [h]
    rfl
  · exact Whole.isNumberByte_of_mem h
  · cases hfraction : number.fraction with
    | none => simp [hfraction] at h
    | some digits =>
        rw [hfraction] at h
        rcases List.mem_cons.mp h with rfl | h
        · rfl
        · exact Digits.isNumberByte_of_mem h
  · cases hexponent : number.exponent with
    | none => simp [hexponent] at h
    | some exponent =>
        rw [hexponent] at h
        exact Exponent.isNumberByte_of_mem h

theorem Number.bytes_ne_nil (number : Number) : number.bytes ≠ [] := by
  have hwhole : number.whole.bytes ≠ [] := by cases number.whole <;> simp [Whole.bytes]
  simp [Number.bytes, hwhole]

end Bytes

end JsonText
