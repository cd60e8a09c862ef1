import TreeLint.Text.Basic

/-!
# Integers written as text

Blanks, an optional sign, decimal digits of any script with single underscores between them, and
blanks again. The separator controls do not count as blanks here. The number of digits is limited,
leading zeros included. Every script that writes decimal digits has its ten in one row, from zero to
nine.
-/

set_option autoImplicit false

namespace TreeLint.Number

inductive IntegerTextError where
  /-- The text is not written as an integer. -/
  | malformed
  /-- The text starts as an integer of more digits than are read. -/
  | tooLong (digits : Nat)
  deriving DecidableEq, Repr

def digitLimit : Nat := 4300

def firstTooLong : Nat := Nat.pow 10 digitLimit

/-- The number of digits of an integer, if they are too many. -/
def excessDigits? (value : Int) : Option Nat :=
  if value.natAbs < firstTooLong then none else some (toString value.natAbs).length

def tooLongMessage (digits : Nat) : String :=
  "Exceeds the limit (" ++ toString digitLimit ++
    " digits) for integer string conversion: value has " ++ toString digits ++
    " digits; use sys.set_int_max_str_digits() to increase the limit"

def isWritable (value : Int) : Bool :=
  (excessDigits? value).isNone

def unwritableMessage : String :=
  "Exceeds the limit (" ++ toString digitLimit ++
    " digits) for integer string conversion; use sys.set_int_max_str_digits() to increase the limit"

/-- The zeros of the digit rows above ASCII, ascending. -/
def digitZeros : List Nat :=
  [0x660, 0x6F0, 0x7C0, 0x966, 0x9E6, 0xA66, 0xAE6, 0xB66, 0xBE6, 0xC66, 0xCE6, 0xD66, 0xDE6,
   0xE50, 0xED0, 0xF20, 0x1040, 0x1090, 0x17E0, 0x1810, 0x1946, 0x19D0, 0x1A80, 0x1A90, 0x1B50,
   0x1BB0, 0x1C40, 0x1C50, 0xA620, 0xA8D0, 0xA900, 0xA9D0, 0xA9F0, 0xAA50, 0xABF0, 0xFF10,
   0x104A0, 0x10D30, 0x11066, 0x110F0, 0x11136, 0x111D0, 0x112F0, 0x11450, 0x114D0, 0x11650,
   0x116C0, 0x11730, 0x118E0, 0x11950, 0x11C50, 0x11D50, 0x11DA0, 0x16A60, 0x16AC0, 0x16B50,
   0x1D7CE, 0x1D7D8, 0x1D7E2, 0x1D7EC, 0x1D7F6, 0x1E140, 0x1E2F0, 0x1E950, 0x1FBF0]

/-- The value of a decimal digit of any script. -/
def digitValue? (c : Char) : Option Nat :=
  if c.isDigit then some (c.toNat - 0x30)
  else if c.toNat < 0x80 then none
  else (digitZeros.find? fun first => first ≤ c.toNat && c.toNat ≤ first + 9).map (c.toNat - ·)

def isIntegerBlank (c : Char) : Bool :=
  if c.toNat < 0x80 then (0x09 ≤ c.toNat && c.toNat ≤ 0x0D) || c == ' ' else Text.isBlank c

/-- The digits at the front of a text: their value, their number and what follows them. There is
none when the text starts with no digit, or when an underscore does not stand between two digits. -/
def digitRun (afterDigit : Bool) (value count : Nat) :
    List Char → Option (Nat × Nat × List Char)
  | [] => if afterDigit then some (value, count, []) else none
  | c :: rest =>
      match digitValue? c with
      | some digit => digitRun true (value * 10 + digit) (count + 1) rest
      | none =>
          if !afterDigit then none
          else if c == '_' then digitRun false value count rest
          else some (value, count, c :: rest)

/-- Reads what follows the sign. The length is judged before the text behind the digits. -/
def readMagnitude (text : List Char) : Except IntegerTextError Nat :=
  match digitRun false 0 0 text with
  | none => .error .malformed
  | some (value, count, rest) =>
      if count > digitLimit then .error (.tooLong count)
      else if rest.all isIntegerBlank then .ok value
      else .error .malformed

def readInteger (text : List Char) : Except IntegerTextError Int :=
  match text.dropWhile isIntegerBlank with
  | '+' :: rest => (readMagnitude rest).map Int.ofNat
  | '-' :: rest => (readMagnitude rest).map fun value => -(Int.ofNat value)
  | rest => (readMagnitude rest).map Int.ofNat

end TreeLint.Number
