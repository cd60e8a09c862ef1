import TreeLint.Finding.Basic
import TreeLint.Glob.Path
import TreeLint.Policy.Basic

/-!
# Waivers

What silences a finding: a directive in a comment, for the span that it covers, or an exclusion of
the policy, for the path of the file. A finding is silenced as soon as one waiver covers it.
-/

set_option autoImplicit false

namespace TreeLint

/-- A directive found in a comment, with the span that it covers. -/
structure InlineWaiver where
  scope : Span
  /-- The rules that it is for; none means all. -/
  ruleIds : List String
  /-- The span of the comment. -/
  comment : Option Span
  deriving DecidableEq

namespace InlineWaiver

def isWildcard (waiver : InlineWaiver) : Bool :=
  waiver.ruleIds.isEmpty

def covers (waiver : InlineWaiver) (finding : Finding) : Bool :=
  waiver.scope.encloses finding.span &&
    (waiver.isWildcard || waiver.ruleIds.contains finding.ruleId)

end InlineWaiver

/-- A path that is not a text cannot be matched. -/
structure PathNotText where
  typeName : String
  deriving DecidableEq, Repr

def PathNotText.message (error : PathNotText) : String :=
  "'" ++ error.typeName ++ "' object has no attribute 'replace'"

/-- Whether an exclusion covers a finding in the file of a path. The path is looked at only when
the exclusion is for the finding's rule. -/
def Exclusion.covers (exclusion : Exclusion) (finding : Finding) (path : Value) :
    Except PathNotText Bool :=
  if exclusion.ruleId.all (· == finding.ruleId) then
    match path with
    | .text path => .ok (Glob.pathMatches path exclusion.pattern)
    | other => .error ⟨other.typeName⟩
  else .ok false

inductive Waiver where
  | inline (waiver : InlineWaiver)
  | exclusion (exclusion : Exclusion)
  deriving DecidableEq

namespace Waiver

def covers (finding : Finding) (path : Value) : Waiver → Except PathNotText Bool
  | .inline waiver => .ok (waiver.covers finding)
  | .exclusion excluded => excluded.covers finding path

/-- Whether one of the waivers covers a finding. The first that does ends the search. -/
def anyCovers (finding : Finding) (path : Value) : List Waiver → Except PathNotText Bool
  | [] => .ok false
  | waiver :: rest =>
      match waiver.covers finding path with
      | .ok true => .ok true
      | .ok false => anyCovers finding path rest
      | .error error => .error error

end Waiver

end TreeLint
