import MistralrsProxy.Delimited
import Mathlib.Algebra.Group.Int.Defs

/-! The parts of the standard library's text handling that the program relies on. Texts are lists of characters; where
the source works on bytes it only looks for ASCII characters, which no other character has as part of its encoding. -/

namespace MistralrsProxy

/-- The Unicode property `White_Space`. -/
def isWhitespace (char : Char) : Bool :=
  let code := char.toNat
  (9 ≤ code && code ≤ 13) || code == 0x20 || code == 0x85 || code == 0xA0 || code == 0x1680 ||
    (0x2000 ≤ code && code ≤ 0x200A) || code == 0x2028 || code == 0x2029 || code == 0x202F ||
    code == 0x205F || code == 0x3000

/-- The Unicode category `Cc`. -/
def isControl (char : Char) : Bool :=
  let code := char.toNat
  code ≤ 0x1F || (0x7F ≤ code && code ≤ 0x9F)

/-- The characters that `char::escape_debug` leaves as they are: neither control characters nor blanks other than the
space, nor the invisible characters next to the blanks, nor those for private use. The combining marks and unassigned
code points that the library escapes by its own tables are left as they are too. -/
def isPrintable (char : Char) : Bool :=
  let code := char.toNat
  !(isControl char || isWhitespace char && char != ' ' || code == 0xAD || (0x200B ≤ code && code ≤ 0x200F) ||
    (0x202A ≤ code && code ≤ 0x202E) || (0x2060 ≤ code && code ≤ 0x206F) || code == 0xFEFF ||
    (0xE000 ≤ code && code ≤ 0xF8FF) || 0xE0000 ≤ code)

/-- `char::escape_debug`, as a string has it: a single quote needs no escape. -/
def escapeDebug (char : Char) : List Char :=
  match char with
  | '\x00' => ['\\', '0']
  | '\t' => ['\\', 't']
  | '\r' => ['\\', 'r']
  | '\n' => ['\\', 'n']
  | '"' => ['\\', '"']
  | '\\' => ['\\', '\\']
  | char => if isPrintable char then [char] else '\\' :: 'u' :: '\x7b' :: (Nat.toDigits 16 char.toNat ++ ['\x7d'])

/-- A string as `{:?}` shows it. -/
def debugText (text : String) : String := String.ofList ('"' :: (text.toList.flatMap escapeDebug ++ ['"']))

/-- `u8::is_ascii_whitespace`: space, tab, line feed, form feed and carriage return. -/
def isAsciiWhitespace (char : Char) : Bool :=
  char == ' ' || char == '\t' || char == '\n' || char == '\x0c' || char == '\r'

/-- `str::trim`. -/
def trim (text : String) : String :=
  String.ofList ((text.toList.dropWhile isWhitespace).reverse.dropWhile isWhitespace).reverse

/-- `str::trim_start`. -/
def trimStart (text : List Char) : List Char := text.dropWhile isWhitespace

/-- `str::trim`, on characters. -/
def trimText (text : List Char) : List Char := ((trimStart text).reverse.dropWhile isWhitespace).reverse

/-- `str::split_ascii_whitespace`. -/
def splitAsciiWhitespace (text : List Char) : List (List Char) :=
  (text.splitOnP isAsciiWhitespace).filter fun field => !field.isEmpty

def eqIgnoreAsciiCase (left right : List Char) : Bool := left.map Char.toLower == right.map Char.toLower

/-- A line feed ends a line, together with a carriage return in front of it. -/
def stripCarriageReturn (line : List Char) : List Char := if line.getLast? = some '\r' then line.dropLast else line

/-- `str::lines`. -/
def lines (text : List Char) : List (List Char) :=
  (Delimited.split '\n' text).1.map stripCarriageReturn ++
    if (Delimited.split '\n' text).2 = [] then [] else [(Delimited.split '\n' text).2]

/-- `str::parse::<i64>`: an optional sign and at least one digit, in range. -/
def parseI64 (text : List Char) : Option Int :=
  let (negative, digits) := match text with
    | '-' :: rest => (true, rest)
    | '+' :: rest => (false, rest)
    | rest => (false, rest)
  if digits = [] ∨ digits.any (fun char => !char.isDigit) then none
  else
    let magnitude := digits.foldl (fun value char => value * 10 + (char.toNat - '0'.toNat)) 0
    let value : Int := if negative then -magnitude else magnitude
    if -2 ^ 63 ≤ value ∧ value < 2 ^ 63 then some value else none

end MistralrsProxy
