import TreeLint.Rule.Basic

/-!
# A package is imported once

Every import of a path after the first is reported. The rule looks at the whole tree at once.
-/

set_option autoImplicit false

namespace TreeLint.RepeatedImport

def info : RuleInfo where
  family := "DuplicateImportRule"
  id := "imports.duplicate"
  title := "Package imported twice"
  recommendation :=
    "Remove the repeated import and refer to the package through a single name."
  severity := .error
  kinds := [.file]
  scope := .tree

/-- The path that an import names, unless it is empty. -/
def importPath? (node : Node) : Option String :=
  match node.attribute? "path" with
  | some (.text path) => if path.isEmpty then none else some path
  | _ => none

def message (path : String) : String :=
  "package \"" ++ path ++ "\" is imported more than once."

/-- The imports whose path was seen before, with the path. -/
def repeats (seen : List String) : List Cursor → List (Cursor × String)
  | [] => []
  | cursor :: rest =>
      match importPath? cursor.node with
      | none => repeats seen rest
      | some path =>
          if seen.contains path then (cursor, path) :: repeats seen rest
          else repeats (path :: seen) rest

def rule : Rule where
  toRuleInfo := info
  applies _ := .ok true
  evaluate _ tree :=
    .ok ((repeats [] (tree.nodesOfKind .importing)).map fun (cursor, path) =>
      info.finding cursor.node (message path))

end TreeLint.RepeatedImport
