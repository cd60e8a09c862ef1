import TreeLint.Text.WordCharacter

/-!
# Directives in comments

A comment asks to be obeyed by the token `convcheck:ignore`, wherever it stands in the comment, as
long as no name goes on from it. Behind the token and a gap, the names of rules may follow, with
commas between them; without names every rule is meant.
-/

set_option autoImplicit false

namespace TreeLint.Directive

def token : String := "convcheck:ignore"

def isNameChar (c : Char) : Bool :=
  Text.isWordCharacter c || c == '.' || c == '-'

def isGap (c : Char) : Bool :=
  c == ' ' || c == '\t'

/-- What follows the first token that no name goes on from. -/
def afterToken? : List Char → Option (List Char)
  | [] => none
  | c :: rest =>
      match token.toList.isPrefixOf? (c :: rest) with
      | some tail => if tail.head?.any isNameChar then afterToken? rest else some tail
      | none => afterToken? rest

inductive Place where
  /-- Inside a name. -/
  | name (read : List Char)
  /-- Behind a name, where a comma may follow. -/
  | between
  /-- In front of a name. -/
  | before

/-- The names from a place on, up to the first character that does not fit. -/
def namesFrom : Place → List Char → List (List Char)
  | .name read, [] => [read]
  | .name read, c :: rest =>
      if isNameChar c then namesFrom (.name (read ++ [c])) rest
      else if isGap c then read :: namesFrom .between rest
      else if c == ',' then read :: namesFrom .before rest
      else [read]
  | .between, c :: rest =>
      if isGap c then namesFrom .between rest
      else if c == ',' then namesFrom .before rest
      else []
  | .before, c :: rest =>
      if isGap c then namesFrom .before rest
      else if isNameChar c then namesFrom (.name [c]) rest
      else []
  | _, [] => []

/-- The names behind a token: they need a gap in front. -/
def names : List Char → List (List Char)
  | c :: rest => if isGap c then namesFrom .before rest else []
  | [] => []

/-- The rules that a comment's directive names, each once; none named means all. There is no
answer for a comment without a directive. -/
def parse? (text : String) : Option (List String) :=
  (afterToken? text.toList).map fun tail => ((names tail).map String.ofList).eraseDups

end TreeLint.Directive
