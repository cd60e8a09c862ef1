import TreeLint.Policy.Problem

/-!
# Reading policies from documents

A policy document is an object with four sections, all of them optional. Each section is read on
its own, and all problems of all sections are reported together.
-/

set_option autoImplicit false

namespace TreeLint.Policy

/-- What a section gives, and what is wrong with it. -/
structure Section (α : Type) where
  content : α
  problems : List PolicyProblem

def knownKeys : List String :=
  ["excluded_paths", "disabled_rules", "severity_overrides", "exclusions"]

/-- All unknown keys are one problem. -/
def unknownKeyProblems (members : Members) : List PolicyProblem :=
  match sorted ((members.map (·.1)).filter fun key => !knownKeys.contains key) with
  | [] => []
  | keys => [.unknownKeys keys]

/-- A section of texts: absent or null, a single text, or a list whose items are taken as messages
display them. -/
def readTexts (members : Members) (key : String) : Except PolicyError (Section (List String)) :=
  match members.get? key with
  | none => .ok ⟨[], []⟩
  | some .null => .ok ⟨[], []⟩
  | some (.text text) => .ok ⟨[text], []⟩
  | some (.list items) =>
      if Value.areWritable items then .ok ⟨items.map Value.display, []⟩ else .error .unwritable
  | some _ => .ok ⟨[], [.notTexts key]⟩

def readOverride (read : Section (List (String × Severity))) (entry : String × Value) :
    Section (List (String × Severity)) :=
  match Severity.ofValue? entry.2 with
  | some severity => { read with content := setOverride read.content entry.1 severity }
  | none => { read with problems := read.problems ++ [.unknownSeverity entry.1 entry.2] }

/-- The overridden severities; a falsy section counts as absent. -/
def readOverrides (members : Members) : Section (List (String × Severity)) :=
  match Value.orElse (members.get? "severity_overrides") (.object []) with
  | .object entries => entries.foldl readOverride ⟨[], []⟩
  | _ => ⟨[], [.overridesNotMapping]⟩

/-- One exclusion: an object with a text under `path`. A falsy `rule` counts as absent. -/
def readExclusion : Value → Except PolicyError (Option Exclusion)
  | .object members =>
      match Members.get? members "path" with
      | some (.text pattern) =>
          match Value.orElse (Members.get? members "rule") .null with
          | .null => .ok (some ⟨pattern, none⟩)
          | rule =>
              if rule.isWritable then .ok (some ⟨pattern, some rule.display⟩)
              else .error .unwritable
      | _ => .ok none
  | _ => .ok none

def readExclusionItems (index : Nat) : List Value → Except PolicyError (Section (List Exclusion))
  | [] => .ok ⟨[], []⟩
  | item :: rest => do
      let own ← readExclusion item
      let read ← readExclusionItems (index + 1) rest
      match own with
      | some exclusion => .ok { read with content := exclusion :: read.content }
      | none => .ok { read with problems := .badExclusion index :: read.problems }

def readExclusions (members : Members) : Except PolicyError (Section (List Exclusion)) :=
  match Value.orElse (members.get? "exclusions") (.list []) with
  | .list items => readExclusionItems 0 items
  | _ => .ok ⟨[], [.exclusionsNotList]⟩

/-- Reads a policy, or gives all its problems in the order of the sections. -/
def ofMembers (members : Members) : Except PolicyError Policy := do
  let excluded ← readTexts members "excluded_paths"
  let disabled ← readTexts members "disabled_rules"
  let overrides := readOverrides members
  let exclusions ← readExclusions members
  match unknownKeyProblems members ++ excluded.problems ++ disabled.problems ++
      overrides.problems ++ exclusions.problems with
  | [] =>
      .ok
        { excludedPaths := excluded.content.eraseDups
          disabledRules := disabled.content.eraseDups
          overrides := overrides.content
          exclusions := exclusions.content }
  | problems => .error (.invalid problems)

end TreeLint.Policy
