import TreeLint.Number.Binary64

/-!
# Document values

Serialized trees and configurations are documents made of these values. The members of an object
keep the order in which the document gives them, and a key names the first member that carries it.
-/

set_option autoImplicit false

namespace TreeLint

inductive Value where
  | null
  | bool (value : Bool)
  | integer (value : Int)
  | real (value : Number.Binary64)
  | text (value : String)
  | list (items : List Value)
  | object (members : List (String × Value))
  deriving Inhabited

/-- The members of an object, in document order. -/
abbrev Members := List (String × Value)

namespace Value

/-- Absent-like values: null, false, zeros, and whatever is empty. NaN is not among them. -/
def isFalsy : Value → Bool
  | null => true
  | bool value => !value
  | integer value => value == 0
  | real value => value.isZero
  | text value => value.isEmpty
  | list items => items.isEmpty
  | object members => members.isEmpty

def typeName : Value → String
  | null => "NoneType"
  | bool _ => "bool"
  | integer _ => "int"
  | real _ => "float"
  | text _ => "str"
  | list _ => "list"
  | object _ => "dict"

/-- The name of the type of a value that cannot be looked up: a list or an object. -/
def unhashable? : Value → Option String
  | list items => some (list items).typeName
  | object members => some (object members).typeName
  | _ => none

def unhashableMessage (typeName : String) : String :=
  "unhashable type: '" ++ typeName ++ "'"

def text? : Value → Option String
  | text value => some value
  | _ => none

/-- A value that is absent, or falsy, gives way to a default. -/
def orElse (value : Option Value) (default : Value) : Value :=
  match value with
  | some present => if present.isFalsy then default else present
  | none => default

end Value

/-- The value of the first member with a key. -/
def Members.get? (members : Members) (key : String) : Option Value :=
  members.lookup key

/-- Sets the member with a key: in place if there is one, else at the end. -/
def Members.set (members : Members) (key : String) (value : Value) : Members :=
  match members with
  | [] => [(key, value)]
  | (other, old) :: rest =>
      if other = key then (other, value) :: rest else (other, old) :: Members.set rest key value

end TreeLint
