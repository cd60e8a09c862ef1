import TreeLint.Rule.Basic
import TreeLint.Text.Basic

/-!
# Reading what a rule is given

An attribute may hold any value, and a text may have nothing in it. An operation fails on what it is
not made for, and with it the rule, unless the rule looks first.
-/

set_option autoImplicit false

namespace TreeLint

namespace Failure

def of (kind message : String) : Failure :=
  ⟨kind, .ok message, .ok (kind ++ "(" ++ Text.quoted message ++ ")")⟩

def unhashable (typeName : String) : Failure :=
  of "TypeError" (Value.unhashableMessage typeName)

def noAttribute (typeName wanted : String) : Failure :=
  of "AttributeError" ("'" ++ typeName ++ "' object has no attribute '" ++ wanted ++ "'")

def outOfRange (typeName : String) : Failure :=
  of "IndexError" (typeName ++ " index out of range")

end Failure

namespace Value

/-- Looks a value up among names. Lists and objects cannot be looked up. -/
def isAmong (names : List String) : Value → Except Failure Bool
  | text name => .ok (names.contains name)
  | list items => .error (.unhashable (list items).typeName)
  | object members => .error (.unhashable (object members).typeName)
  | _ => .ok false

/-- A text without the blanks at its ends. Only texts have such a form. -/
def trimmed : Value → Except Failure (List Char)
  | text value => .ok (Text.trimChars value.toList)
  | other => .error (.noAttribute other.typeName "strip")

end Value

namespace Text

/-- The first word of a text, which needs to have one. -/
def firstWord (text : List Char) : Except Failure (List Char) :=
  match (text.dropWhile isBlank).takeWhile fun c => !isBlank c with
  | [] => .error (.outOfRange "list")
  | word => .ok word

def firstCharacter : List Char → Except Failure Char
  | [] => .error (.outOfRange "string")
  | c :: _ => .ok c

end Text

end TreeLint
