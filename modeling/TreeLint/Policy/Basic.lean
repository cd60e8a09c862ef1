import TreeLint.Finding.Severity

/-!
# Policies

A policy disables rules, overrides the severities of their findings, and silences findings in
files that match a glob. Its sets are kept as lists in the order in which their members arrived.
-/

set_option autoImplicit false

namespace TreeLint

section Sets

variable {α : Type} [DecidableEq α]

/-- Adds a member at the end, unless it is there. -/
def insertNew (members : List α) (member : α) : List α :=
  if member ∈ members then members else members ++ [member]

def union (members added : List α) : List α :=
  added.foldl insertNew members

end Sets

/-- Texts in ascending order of their characters. -/
def sorted (texts : List String) : List String :=
  texts.mergeSort fun left right => decide (left ≤ right)

/-- Silences the findings of one rule, or of all, in files that match a glob. -/
structure Exclusion where
  pattern : String
  ruleId : Option String
  deriving DecidableEq, Repr

structure Policy where
  /-- Globs of the files in which all findings are silenced, each once. -/
  excludedPaths : List String
  /-- The ids of the disabled rules, each once. -/
  disabledRules : List String
  /-- The severity of each rule that is overridden. -/
  overrides : List (String × Severity)
  exclusions : List Exclusion
  deriving DecidableEq, Repr

namespace Policy

def neutral : Policy := ⟨[], [], [], []⟩

/-- Overrides the severity of a rule, in place of an earlier override. -/
def setOverride (overrides : List (String × Severity)) (ruleId : String) (severity : Severity) :
    List (String × Severity) :=
  match overrides with
  | [] => [(ruleId, severity)]
  | (other, old) :: rest =>
      if other = ruleId then (other, severity) :: rest
      else (other, old) :: setOverride rest ruleId severity

def severityFor (policy : Policy) (ruleId : String) (own : Severity) : Severity :=
  (policy.overrides.lookup ruleId).getD own

def disables (policy : Policy) (ruleId : String) : Bool :=
  policy.disabledRules.contains ruleId

/-- All exclusions: those of the excluded paths in ascending order, then the others. -/
def allExclusions (policy : Policy) : List Exclusion :=
  (sorted policy.excludedPaths).map (fun pattern => ⟨pattern, none⟩) ++ policy.exclusions

/-- Adds a later policy: its overrides win, all else accumulates. -/
def add (policy later : Policy) : Policy :=
  { excludedPaths := union policy.excludedPaths later.excludedPaths
    disabledRules := union policy.disabledRules later.disabledRules
    overrides := later.overrides.foldl
      (fun overrides (ruleId, severity) => setOverride overrides ruleId severity) policy.overrides
    exclusions := union policy.exclusions later.exclusions }

def merge (policies : List Policy) : Policy :=
  policies.foldl add neutral

end Policy

end TreeLint
