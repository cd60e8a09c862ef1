import TreeLint.Number.IntegerText
import TreeLint.Value.Display

/-!
# Positions

A point of a source text: its line, its column and its byte offset. A document gives the three as
the members of an object or as a list. Coordinates that are not integers are read as integers
where that makes sense: numbers are cut towards zero, and texts are read as written integers.
-/

set_option autoImplicit false

namespace TreeLint

inductive CoordinateError where
  | malformed (text : String)
  | tooLong (digits : Nat)
  | infinite
  | nan
  | wrongType (typeName : String)
  deriving DecidableEq, Repr

/-- The wording. A malformed text is shown up to 200 characters of its quoted form. -/
def CoordinateError.message : CoordinateError → String
  | malformed text =>
      "invalid literal for int() with base 10: " ++
        String.ofList ((Text.quoted text).toList.take 200)
  | tooLong digits => Number.tooLongMessage digits
  | infinite => "cannot convert float infinity to integer"
  | nan => "cannot convert float NaN to integer"
  | wrongType typeName =>
      "int() argument must be a string, a bytes-like object or a real number, not '" ++ typeName ++ "'"

def Value.toCoordinate : Value → Except CoordinateError Int
  | .bool value => .ok (if value then 1 else 0)
  | .integer value => .ok value
  | .real (.finite negative mantissa exponent) =>
      .ok (Number.Binary64.truncate negative mantissa exponent)
  | .real (.infinite _) => .error .infinite
  | .real .nan => .error .nan
  | .text value =>
      match Number.readInteger value.toList with
      | .ok found => .ok found
      | .error .malformed => .error (.malformed value)
      | .error (.tooLong digits) => .error (.tooLong digits)
  | other => .error (.wrongType other.typeName)

inductive LocationError where
  /-- An object lacks a member. -/
  | missing (key : String)
  | coordinate (error : CoordinateError)
  | notPosition (given : Value)
  | notSpan (given : Value)
  /-- The end lies in front of the start. -/
  | reversed (start stop : Int)

/-- The wording. A missing member is shown by its quoted key alone. -/
def LocationError.message : LocationError → String
  | missing key => Text.quoted key
  | coordinate error => error.message
  | notPosition given => given.messageOn "cannot read position from "
  | notSpan given => given.messageOn "cannot read span from "
  | reversed start stop =>
      if Number.isWritable start && Number.isWritable stop then
        "span ends before it starts: " ++ toString start ++ " > " ++ toString stop
      else Number.unwritableMessage

/-- A point of a source text. Positions are ordered by line, then column, then offset. -/
structure Position where
  line : Int
  column : Int
  offset : Int
  deriving DecidableEq, Repr, Ord

namespace Position

def coordinate (value : Value) : Except LocationError Int :=
  value.toCoordinate.mapError .coordinate

def coordinateAt (members : Members) (key : String) : Except LocationError Int :=
  match members.get? key with
  | some value => coordinate value
  | none => .error (.missing key)

/-- Reads a position: the first coordinate at fault, in the order line, column, offset, decides
the error. -/
def ofValue : Value → Except LocationError Position
  | .object members => do
      let line ← coordinateAt members "line"
      let column ← coordinateAt members "column"
      let offset ← coordinateAt members "offset"
      return ⟨line, column, offset⟩
  | .list [line, column, offset] => do
      let line ← coordinate line
      let column ← coordinate column
      let offset ← coordinate offset
      return ⟨line, column, offset⟩
  | other => .error (.notPosition other)

def toValue (position : Position) : Value :=
  .object [("line", .integer position.line), ("column", .integer position.column),
    ("offset", .integer position.offset)]

end Position

end TreeLint
