import TreeLint.Text.Basic
import TreeLint.Text.LetterCase
import TreeLint.Value.Display

/-!
# Severities

How grave a finding is. A document names a severity in any letter case, with blanks around it.
-/

set_option autoImplicit false

namespace TreeLint

inductive Severity where
  | error
  | warning
  | info
  deriving DecidableEq, Repr

namespace Severity

/-- The severities, gravest first. -/
def all : List Severity := [error, warning, info]

def name : Severity → String
  | error => "ERROR"
  | warning => "WARNING"
  | info => "INFO"

/-- The key under which counts of the severity are reported. -/
def key : Severity → String
  | error => "error"
  | warning => "warning"
  | info => "info"

/-- The rank, which is also the exit status that a finding of the severity asks for. -/
def rank : Severity → Nat
  | error => 2
  | warning => 1
  | info => 0

/-- The severity that a text names, once trimmed and in upper case. -/
def ofText? (text : String) : Option Severity :=
  let spelled := (Text.trimChars text.toList).flatMap Text.upperAscii
  all.find? fun severity => severity.name.toList == spelled

def ofValue? (value : Value) : Option Severity :=
  ofText? value.display

def unknownMessage (given : Value) : String :=
  if given.isWritable then
    "unknown severity " ++ given.literal ++ " (expected one of: " ++
      Text.join ", " (all.map key) ++ ")"
  else Number.unwritableMessage

end Severity

end TreeLint
