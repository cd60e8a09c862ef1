import TreeLint.Policy.Problem
import TreeLint.Rule.Catalogue

/-!
# Engines

An engine holds a closed catalogue and a policy that fits it. Setting one up closes the catalogue.
-/

set_option autoImplicit false

namespace TreeLint

structure Engine where
  catalogue : Catalogue
  policy : Policy
  /-- The number of nodes that are worked on side by side. -/
  workers : Nat

inductive SetupError where
  | noWorkers
  | noRules
  | policy (problems : List PolicyProblem)
  | allDisabled

def SetupError.message : SetupError → String
  | noWorkers => "workers must be at least 1"
  | noRules => "no rules are registered"
  | policy problems => Policy.problemsMessage problems
  | allDisabled => "every registered rule is disabled"

namespace Engine

def source : String := "convcheck.engine"

/-- The note on closing a catalogue, if it is still open. -/
def closingNotes (catalogue : Catalogue) : Journal :=
  if catalogue.isClosed then []
  else [⟨.debug, source, "Freezing registry with " ++ toString catalogue.size ++ " rules"⟩]

def disabledNotes (catalogue : Catalogue) (policy : Policy) : Journal :=
  ((sorted policy.disabledRules).filter fun id => !catalogue.contains id).map fun id =>
    ⟨.warning, source, "Disabled rule " ++ id ++ " is not registered"⟩

/-- Sets up an engine. A disabled rule that is not there is noted and does no harm. -/
def create (catalogue : Catalogue) (policy : Policy) (workers : Int) :
    Except SetupError Engine × Journal :=
  if workers < 1 then (.error .noWorkers, [])
  else
    let closed := if catalogue.isClosed then catalogue else catalogue.close
    let notes := closingNotes catalogue
    if closed.rules.isEmpty then (.error .noRules, notes)
    else
      match policy.problems closed.contains with
      | [] =>
          let notes := notes ++ disabledNotes closed policy
          if closed.rules.all fun rule => policy.disables rule.id then (.error .allDisabled, notes)
          else (.ok ⟨closed, policy, workers.toNat⟩, notes)
      | problems => (.error (.policy problems), notes)

def enables (engine : Engine) (rule : Rule) : Bool :=
  !engine.policy.disables rule.id

def enabledRules (engine : Engine) : List Rule :=
  engine.catalogue.rules.filter engine.enables

end Engine

end TreeLint
