import TreeLint.Finding.Basic
import TreeLint.Tree.Cursor

/-!
# Rules

A rule decides whether a node concerns it and, if so, proposes findings. What it proposes is not
trusted: a candidate may be no finding at all, or one with unfit parts. A rule may also fail.
-/

set_option autoImplicit false

namespace TreeLint

/-- An error that nothing handles. It ends what is under way. -/
structure Escape where
  /-- The name of the kind of error. -/
  kind : String
  message : String
  deriving DecidableEq, Repr

/-- How a rule fails. The message and the representation of a failure are worked out when they are
asked for, and this may fail in turn. A failure that is not to be handled has an escape in place of
its message. -/
structure Failure where
  kind : String
  message : Except Escape String
  /-- How the failure is shown when it has no message. -/
  representation : Except Escape String

def Failure.detail (failure : Failure) : Except Escape String :=
  match failure.message with
  | .error escape => .error escape
  | .ok message => if message.isEmpty then failure.representation else .ok message

/-- How often a rule is asked about a tree: for each node of its kinds, or once at the root. -/
inductive Scope where
  | node
  | tree
  deriving DecidableEq, Repr

def Scope.name : Scope → String
  | node => "node"
  | tree => "tree"

/-- A value in the place of a line or a column. Of several NaNs, the tag tells which one it is. -/
structure DraftCoordinate where
  value : Value
  tag : Nat

structure DraftPosition where
  line : DraftCoordinate
  column : DraftCoordinate
  offset : Value

inductive DraftSpan where
  /-- A span between two ends, whatever their coordinates are. -/
  | span (start stop : DraftPosition)
  /-- A span without its ends. -/
  | hollow
  /-- A value that is no span. -/
  | other (value : Value)

inductive DraftSeverity where
  | severity (severity : Severity)
  /-- A value that is no severity. -/
  | other (value : Value)

/-- A proposed finding, with parts that may not be fit for a report. -/
structure Draft where
  ruleId : Value
  severity : DraftSeverity
  span : DraftSpan
  message : Value
  title : String
  recommendation : String
  suppressed : Bool

inductive Candidate where
  | draft (draft : Draft)
  /-- A value that is no finding. -/
  | stray (value : Value)

def DraftPosition.ofPosition (position : Position) : DraftPosition :=
  ⟨⟨.integer position.line, 0⟩, ⟨.integer position.column, 0⟩, .integer position.offset⟩

def DraftSpan.ofSpan (span : Span) : DraftSpan :=
  .span (.ofPosition span.start) (.ofPosition span.stop)

/-- What is known of a rule without asking it. -/
structure RuleInfo where
  /-- The name of the family of rules that this one belongs to. -/
  family : String
  id : String
  title : String
  recommendation : String
  /-- The severity of its findings, unless the policy overrides it. -/
  severity : Severity
  /-- The kinds of nodes that concern the rule; none means all. -/
  kinds : List Kind
  scope : Scope

namespace RuleInfo

def label (info : RuleInfo) : String :=
  "<" ++ info.family ++ " " ++ info.id ++ ">"

def isFor (info : RuleInfo) (kind : Kind) : Bool :=
  info.kinds.isEmpty || info.kinds.contains kind

def finding (info : RuleInfo) (node : Node) (message : String) : Candidate :=
  .draft
    { ruleId := .text info.id
      severity := .severity info.severity
      span := .ofSpan node.span
      message := .text message
      title := info.title
      recommendation := info.recommendation
      suppressed := false }

end RuleInfo

structure Rule extends RuleInfo where
  /-- Whether the node is worth a closer look. -/
  applies : Cursor → Except Failure Bool
  /-- The candidates at a node of a tree. -/
  evaluate : Cursor → Tree → Except Failure (List Candidate)

end TreeLint
