import TreeLint.Inspection.Engine
import TreeLint.Inspection.Screening

/-!
# Dispatching rules on a node

Every rule is asked on its own: a rule that fails, or a candidate that is rejected, becomes a fault
and leaves the other rules and candidates alone. A failure that has no detail to report is not
handled, and no rule is asked after it. The rules for whole trees are asked at the root, after the
rules for nodes and whatever kind the root has.
-/

set_option autoImplicit false

namespace TreeLint

structure Outcome where
  proposals : List Proposal
  faults : List Fault

namespace Outcome

def findings (outcome : Outcome) : List Finding :=
  outcome.proposals.map (·.finding)

def empty : Outcome := ⟨[], []⟩

def append (first second : Outcome) : Outcome :=
  ⟨first.proposals ++ second.proposals, first.faults ++ second.faults⟩

def fault (rule : Rule) (node : Node) (errorType detail : String) : Outcome :=
  ⟨[], [⟨rule.id, node.kind.name, some node.span, errorType, detail⟩]⟩

def concat (outcomes : List Outcome) : Outcome :=
  outcomes.foldr append empty

/-- Outcomes one after the other, up to the first error. -/
def gather : List (Except Escape Outcome) → Except Escape Outcome
  | [] => .ok empty
  | .error escape :: _ => .error escape
  | .ok outcome :: rest => (gather rest).map outcome.append

end Outcome

namespace Engine

/-- A candidate as a finding with the severity that the policy asks for, or as a fault. -/
def judge (engine : Engine) (tree : Tree) (rule : Rule) (node : Node) (candidate : Candidate) :
    Outcome :=
  match candidate.screen rule.id tree.span with
  | .ok proposal =>
      let severity := engine.policy.severityFor rule.id proposal.finding.severity
      ⟨[{ proposal with finding.severity := severity }], []⟩
  | .error rejection => Outcome.fault rule node rejection.errorType rejection.detail

/-- The candidates of a rule at a node; none if it does not apply there. -/
def candidates (tree : Tree) (rule : Rule) (cursor : Cursor) : Except Failure (List Candidate) :=
  match rule.applies cursor with
  | .ok true => rule.evaluate cursor tree
  | .ok false => .ok []
  | .error failure => .error failure

/-- Asks one rule about a node. All candidates are gathered before the first is judged, so a
failure leaves none of them. -/
def invoke (engine : Engine) (tree : Tree) (cursor : Cursor) (rule : Rule) :
    Except Escape Outcome :=
  match candidates tree rule cursor with
  | .error failure => failure.detail.map (Outcome.fault rule cursor.node failure.kind)
  | .ok found => .ok (Outcome.concat (found.map (engine.judge tree rule cursor.node)))

def rulesAt (engine : Engine) (cursor : Cursor) : List Rule :=
  ((engine.catalogue.rulesFor cursor.node.kind).filter fun rule =>
      rule.scope == .node && engine.enables rule) ++
    if cursor.isRoot then engine.enabledRules.filter fun rule => rule.scope == .tree else []

def dispatch (engine : Engine) (tree : Tree) (cursor : Cursor) : Except Escape Outcome :=
  Outcome.gather ((engine.rulesAt cursor).map (engine.invoke tree cursor))

end Engine

end TreeLint
