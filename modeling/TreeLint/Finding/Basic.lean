import TreeLint.Finding.Severity
import TreeLint.Source.Extent

/-!
# Findings, faults and notes

A finding is a violation of one rule at one place. A fault is a failure of a rule itself. Notes are
what is noted down beside them, in a journal.
-/

set_option autoImplicit false

namespace TreeLint

structure Finding where
  ruleId : String
  severity : Severity
  span : Extent Numeral
  message : String
  title : String
  recommendation : String
  /-- Whether a directive silences the finding. -/
  suppressed : Bool
  deriving DecidableEq

/-- Findings with the same key are repetitions of each other. -/
structure FindingKey where
  ruleId : String
  span : Extent Amount
  message : String
  deriving DecidableEq

namespace Finding

def key (finding : Finding) : FindingKey :=
  ⟨finding.ruleId, finding.span.map Numeral.amount, finding.message⟩

/-- The order of findings in a report: by start, rule, end and message. Severities, lines, columns
and the other texts play no part. -/
def order (left right : Finding) : Ordering :=
  (compare left.span.start.offset.amount right.span.start.offset.amount).then <|
  (compare left.ruleId right.ruleId).then <|
  (compare left.span.stop.offset.amount right.span.stop.offset.amount).then <|
  compare left.message right.message

def inOrder (left right : Finding) : Bool :=
  (left.order right).isLE

def toValue (finding : Finding) : Value :=
  .object [("rule_id", .text finding.ruleId), ("severity", .text finding.severity.name),
    ("span", finding.span.toValue), ("message", .text finding.message),
    ("title", .text finding.title), ("recommendation", .text finding.recommendation),
    ("suppressed", .bool finding.suppressed)]

end Finding

structure Fault where
  ruleId : String
  nodeKind : String
  span : Option Span
  errorType : String
  detail : String
  deriving DecidableEq

namespace Fault

/-- Where the fault is sorted in; faults without a place come first. -/
def offset (fault : Fault) : Int :=
  match fault.span with
  | some span => span.start.offset
  | none => -1

/-- The order of faults in a report: by start, rule, type and detail. -/
def order (left right : Fault) : Ordering :=
  (compare left.offset right.offset).then <|
  (compare left.ruleId right.ruleId).then <|
  (compare left.errorType right.errorType).then <|
  compare left.detail right.detail

def inOrder (left right : Fault) : Bool :=
  (left.order right).isLE

def toValue (fault : Fault) : Value :=
  .object [("rule_id", .text fault.ruleId), ("node_kind", .text fault.nodeKind),
    ("span", (fault.span.map Span.toValue).getD .null), ("error_type", .text fault.errorType),
    ("detail", .text fault.detail)]

end Fault

/-! ## Notes -/

inductive Level where
  | debug
  | info
  | warning
  deriving DecidableEq, Repr

def Level.name : Level → String
  | debug => "DEBUG"
  | info => "INFO"
  | warning => "WARNING"

structure Note where
  level : Level
  source : String
  text : String
  deriving DecidableEq, Repr

def Note.line (note : Note) : String :=
  note.level.name ++ " " ++ note.source ++ ": " ++ note.text

abbrev Journal := List Note

end TreeLint
