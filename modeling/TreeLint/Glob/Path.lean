import TreeLint.Glob.Basic

/-!
# Matching paths

A path matches a glob as a whole text, or segment by segment from its end. In the second way, a
glob that starts at the root has to account for the whole path.
-/

set_option autoImplicit false

namespace TreeLint.Glob

/-- The leading slashes that tell where a path starts. Two slashes are a root of their own; more
than two count as one. -/
def rootOf : List Char → List Char
  | '/' :: '/' :: '/' :: _ => ['/']
  | '/' :: '/' :: _ => ['/', '/']
  | '/' :: _ => ['/']
  | _ => []

/-- The segments of a path: what stands between slashes, without the empty ones and the single
dots. -/
def segments (path : List Char) : List (List Char) :=
  (path.splitOn '/').filter fun piece => !piece.isEmpty && piece != ['.']

def parts (path : List Char) : List (List Char) :=
  match rootOf path with
  | [] => segments path
  | root => root :: segments path

/-- Matches two lists from their ends backwards, as far as the shorter goes. -/
def partsAgree (patterns texts : List (List Char)) : Bool :=
  (patterns.reverse.zip texts.reverse).all fun (pattern, text) => covers pattern text

/-- Whether a glob accounts for the last segments of a path, or for all of it when the glob starts
at a root. -/
def matchesEnd (path pattern : List Char) : Bool :=
  match rootOf pattern with
  | [] =>
      !(segments pattern).isEmpty && (segments pattern).length ≤ (parts path).length &&
        partsAgree (segments pattern) (parts path)
  | root =>
      root == rootOf path && (segments pattern).length == (segments path).length &&
        partsAgree (segments pattern) (segments path)

def slashed (path : List Char) : List Char :=
  path.map fun c => if c == '\\' then '/' else c

/-- Whether a path matches a glob. Backslashes of the path count as slashes. -/
def pathMatches (path pattern : String) : Bool :=
  let path := slashed path.toList
  covers pattern.toList path || matchesEnd path pattern.toList

end TreeLint.Glob
