import TreeLint.Number.IntegerText
import TreeLint.Number.Shortest
import TreeLint.Text.Basic
import TreeLint.Text.Quoted
import TreeLint.Value.Basic

/-!
# Values in messages

`literal` shows a value with its texts in quotes; `display` shows a text as it stands. A value cannot
be shown when an integer in it has more digits than are written.
-/

set_option autoImplicit false

namespace TreeLint.Value

mutual

/-- The value with every text in quotes. -/
def literal : Value → String
  | null => "None"
  | bool value => if value then "True" else "False"
  | integer value => toString value
  | real value => value.text
  | text value => Text.quoted value
  | list items => "[" ++ Text.join ", " (literals items) ++ "]"
  | object members => "\x7b" ++ Text.join ", " (memberLiterals members) ++ "\x7d"

def literals : List Value → List String
  | [] => []
  | item :: rest => item.literal :: literals rest

def memberLiterals : List (String × Value) → List String
  | [] => []
  | (key, value) :: rest => (Text.quoted key ++ ": " ++ value.literal) :: memberLiterals rest

end

/-- A text as it stands, and any other value as its literal. -/
def display : Value → String
  | text value => value
  | other => other.literal

mutual

def isWritable : Value → Bool
  | integer value => Number.isWritable value
  | list items => areWritable items
  | object members => membersAreWritable members
  | _ => true

def areWritable : List Value → Bool
  | [] => true
  | item :: rest => item.isWritable && areWritable rest

def membersAreWritable : List (String × Value) → Bool
  | [] => true
  | (_, value) :: rest => value.isWritable && membersAreWritable rest

end

/-- A message that ends with a value. Where that cannot be shown, this is what is said instead. -/
def messageOn (value : Value) (lead : String) : String :=
  if value.isWritable then lead ++ value.literal else Number.unwritableMessage

end TreeLint.Value
