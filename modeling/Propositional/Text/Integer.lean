import Propositional.Text.Blank
import Propositional.Text.Quoted

/-!
# Integers in decimal

A whole number may stand between blanks, carry one sign, use the decimal digits of any script, and
set its digits apart by single underscores. More than 4300 digits are refused before anything
behind them is looked at.

* `decimalDigit?` — the value of one digit of any script.
* `readInteger` — the number a text stands for.
-/

namespace Propositional

/-- Where each run of ten decimal digits starts. -/
def digitZeros : List Nat := [
    0x30, 0x660, 0x6f0, 0x7c0, 0x966, 0x9e6, 0xa66, 0xae6, 0xb66, 0xbe6, 0xc66, 0xce6, 0xd66,
    0xde6, 0xe50, 0xed0, 0xf20, 0x1040, 0x1090, 0x17e0, 0x1810, 0x1946, 0x19d0, 0x1a80, 0x1a90,
    0x1b50, 0x1bb0, 0x1c40, 0x1c50, 0xa620, 0xa8d0, 0xa900, 0xa9d0, 0xa9f0, 0xaa50, 0xabf0,
    0xff10, 0x104a0, 0x10d30, 0x11066, 0x110f0, 0x11136, 0x111d0, 0x112f0, 0x11450, 0x114d0,
    0x11650, 0x116c0, 0x11730, 0x118e0, 0x11950, 0x11c50, 0x11d50, 0x11da0, 0x16a60, 0x16ac0,
    0x16b50, 0x1d7ce, 0x1d7d8, 0x1d7e2, 0x1d7ec, 0x1d7f6, 0x1e140, 0x1e2f0, 0x1e950, 0x1fbf0]

/-- The value of a decimal digit of any script. -/
def decimalDigit? (c : Char) : Option Nat :=
  (digitZeros.find? fun first => first ≤ c.toNat && c.toNat < first + 10).map (c.toNat - ·)

/-- How many digits a number may have. -/
def digitLimit : Nat := 4300

/-- Why a text is no whole number. -/
inductive IntegerError where
  /-- The text does not have the form of a number. -/
  | malformed (text : String)
  /-- The number has more digits than are read. -/
  | tooLong (digits : Nat)
  deriving DecidableEq, Repr

/-- The wording of the error; a malformed text is shown by at most 200 characters. -/
def IntegerError.message : IntegerError → String
  | .malformed text =>
    "invalid literal for int() with base 10: " ++ String.ofList ((quote text).toList.take 200)
  | .tooLong digits =>
    "Exceeds the limit (" ++ toString digitLimit ++
      " digits) for integer string conversion: value has " ++ toString digits ++
      " digits; use sys.set_int_max_str_digits() to increase the limit"

/-- The blanks around a number: the information separators are not among them. -/
def isNumberBlank (c : Char) : Bool :=
  isBlank c && !(28 ≤ c.toNat && c.toNat ≤ 31)

/-- The sign in front of a number, and what follows it. -/
def readSign : List Char → Int × List Char
  | '+' :: rest => (1, rest)
  | '-' :: rest => (-1, rest)
  | rest => (1, rest)

/-- A digit or the underscore that may stand between two digits. -/
def isDigitChar (c : Char) : Bool := c == '_' || (decimalDigit? c).isSome

/-- The underscores stand one at a time, between digits. -/
def underscoresApart : List Char → Bool
  | [] => true
  | ['_'] => false
  | '_' :: '_' :: _ => false
  | _ :: rest => underscoresApart rest

/-- The whole number that a text stands for. -/
def readInteger (text : String) : Except IntegerError Int :=
  let (sign, body) := readSign (text.toList.dropWhile isNumberBlank)
  let marks := body.takeWhile isDigitChar
  let digits := marks.filterMap decimalDigit?
  if marks.head? == some '_' || !underscoresApart marks then .error (.malformed text)
  else if digitLimit < digits.length then .error (.tooLong digits.length)
  else if digits.isEmpty || !(body.dropWhile isDigitChar).all isNumberBlank then
    .error (.malformed text)
  else .ok (sign * (digits.foldl (fun n d => 10 * n + d) 0 : Nat))

end Propositional
