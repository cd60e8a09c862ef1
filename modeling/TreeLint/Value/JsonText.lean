import TreeLint.Number.Shortest
import TreeLint.Text.Basic
import TreeLint.Text.Quoted
import TreeLint.Value.Basic

/-!
# Writing values as JSON

Members and items stand on lines of their own, indented by two spaces a level. The output is ASCII:
every other character is written as one or two escaped UTF-16 units.
-/

set_option autoImplicit false

namespace TreeLint.Value

/-- An escaped UTF-16 unit. -/
def jsonUnit (unit : Nat) : List Char :=
  '\\' :: 'u' :: Text.hexadecimal 4 unit

def jsonChar (c : Char) : List Char :=
  if c == '"' || c == '\\' then ['\\', c]
  else if c == '\n' then ['\\', 'n']
  else if c == '\r' then ['\\', 'r']
  else if c == '\t' then ['\\', 't']
  else if c.toNat == 0x0C then ['\\', 'f']
  else if c.toNat == 0x08 then ['\\', 'b']
  else if 0x20 ≤ c.toNat && c.toNat < 0x7F then [c]
  else if c.toNat < 0x10000 then jsonUnit c.toNat
  else
    let offset := c.toNat - 0x10000
    jsonUnit (0xD800 + offset / 0x400) ++ jsonUnit (0xDC00 + offset % 0x400)

def jsonString (text : String) : String :=
  String.ofList ('"' :: text.toList.flatMap jsonChar ++ ['"'])

/-- A JSON number, with the customary words for what is not finite. -/
def jsonReal : Number.Binary64 → String
  | .nan => "NaN"
  | .infinite negative => if negative then "-Infinity" else "Infinity"
  | number => number.text

/-- Lines between two brackets, separated by commas; nothing between them if there are no lines. -/
def jsonBlock (opening closing : String) (depth : Nat) (lines : List String) : String :=
  if lines.isEmpty then opening ++ closing
  else
    let indent := "\n" ++ Text.row (2 * depth + 2) ' '
    opening ++ indent ++ Text.join ("," ++ indent) lines ++ "\n" ++ Text.row (2 * depth) ' ' ++ closing

mutual

def jsonAt (depth : Nat) : Value → String
  | null => "null"
  | bool value => if value then "true" else "false"
  | integer value => toString value
  | real value => jsonReal value
  | text value => jsonString value
  | list items => jsonBlock "[" "]" depth (jsonItems (depth + 1) items)
  | object members => jsonBlock "\x7b" "\x7d" depth (jsonMembers (depth + 1) members)

def jsonItems (depth : Nat) : List Value → List String
  | [] => []
  | item :: rest => jsonAt depth item :: jsonItems depth rest

def jsonMembers (depth : Nat) : List (String × Value) → List String
  | [] => []
  | (key, value) :: rest => (jsonString key ++ ": " ++ jsonAt depth value) :: jsonMembers depth rest

end

def toJson (value : Value) : String :=
  jsonAt 0 value

end TreeLint.Value
