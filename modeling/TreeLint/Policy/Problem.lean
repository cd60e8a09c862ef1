import TreeLint.Glob.Bracket
import TreeLint.Policy.Basic

/-!
# Problems of policies

What is wrong with a document that should be a policy, and what in a policy does not fit the rules
at hand.
-/

set_option autoImplicit false

namespace TreeLint

inductive PolicyProblem where
  | unknownKeys (keys : List String)
  | notTexts (key : String)
  | overridesNotMapping
  | unknownSeverity (ruleId : String) (given : Value)
  | exclusionsNotList
  | badExclusion (index : Nat)
  | badGlob (pattern : String) (problem : Glob.Problem)
  | unknownExcludedRule (pattern ruleId : String)
  | unknownOverriddenRule (ruleId : String)
  /-- A policy file that cannot be read as a document, or is no object. -/
  | unreadable (message : String)

def PolicyProblem.message : PolicyProblem → String
  | unknownKeys keys => "unknown configuration keys: " ++ Text.join ", " keys
  | notTexts key => key ++ " must be a list of strings"
  | overridesNotMapping => "severity_overrides must be a mapping of rule id to severity"
  | unknownSeverity ruleId given =>
      "severity_overrides[" ++ ruleId ++ "]: " ++ Severity.unknownMessage given
  | exclusionsNotList => "exclusions must be a list"
  | badExclusion index =>
      "exclusions[" ++ toString index ++ "] must be a mapping with a 'path' glob"
  | badGlob pattern problem => "malformed glob " ++ Text.quoted pattern ++ ": " ++ problem.message
  | unknownExcludedRule pattern ruleId =>
      "exclusion for " ++ Text.quoted pattern ++ " names unknown rule " ++ Text.quoted ruleId
  | unknownOverriddenRule ruleId => "severity override names unknown rule " ++ Text.quoted ruleId
  | unreadable message => message

namespace Policy

def problemsMessage (problems : List PolicyProblem) : String :=
  Text.join "; " (problems.map PolicyProblem.message)

def exclusionProblems (isRule : String → Bool) (exclusion : Exclusion) : List PolicyProblem :=
  ((Glob.problem? exclusion.pattern).map (PolicyProblem.badGlob exclusion.pattern)).toList ++
    match exclusion.ruleId with
    | some ruleId =>
        if isRule ruleId then [] else [.unknownExcludedRule exclusion.pattern ruleId]
    | none => []

/-- What in the policy does not fit the rules there are: exclusions first, then overrides in
ascending order of their ids. -/
def problems (policy : Policy) (isRule : String → Bool) : List PolicyProblem :=
  policy.allExclusions.flatMap (exclusionProblems isRule) ++
    ((sorted (policy.overrides.map (·.1))).filter fun ruleId => !isRule ruleId).map
      .unknownOverriddenRule

end Policy

inductive PolicyError where
  | invalid (problems : List PolicyProblem)
  /-- An integer has too many digits to be taken as a text. -/
  | unwritable

def PolicyError.message : PolicyError → String
  | invalid problems => Policy.problemsMessage problems
  | unwritable => Number.unwritableMessage

end TreeLint
