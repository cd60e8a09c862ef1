import TreeLint.Text.Basic

/-!
# Usable globs

A pattern is refused when it is blank, when it holds a NUL character, or when its brackets are
nested or left open. A closing bracket that closes nothing is an ordinary character.
-/

set_option autoImplicit false

namespace TreeLint.Glob

inductive Problem where
  | blank
  | nul
  | nested
  | unbalanced
  deriving DecidableEq, Repr

def Problem.message : Problem → String
  | blank => "empty pattern"
  | nul => "contains a NUL byte"
  | nested => "nested '['"
  | unbalanced => "unbalanced '['"

/-- Follows the brackets of a pattern; `inside` says whether one is open. -/
def bracketProblem? (inside : Bool) : List Char → Option Problem
  | [] => if inside then some .unbalanced else none
  | '[' :: rest => if inside then some .nested else bracketProblem? true rest
  | ']' :: rest => bracketProblem? false rest
  | _ :: rest => bracketProblem? inside rest

def problem? (pattern : String) : Option Problem :=
  if Text.isBlankText pattern then some .blank
  else if pattern.toList.contains (Char.ofNat 0) then some .nul
  else bracketProblem? false pattern.toList

end TreeLint.Glob
