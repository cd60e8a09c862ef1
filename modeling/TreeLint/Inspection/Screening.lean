import TreeLint.Rule.Basic
import TreeLint.Text.Basic

/-!
# Screening candidates

A candidate becomes a finding when all its parts are fit: it is a finding with a span and a
severity, it carries the id of the rule that proposes it, its message is not blank, it lies within
the tree, and it is not marked as silenced. The first unfit part, in that order, decides. Whether
the lines and the columns of a finding can be looked up is not asked here.
-/

set_option autoImplicit false

namespace TreeLint

inductive Rejection where
  | notFinding (typeName : String)
  | notSpan (typeName : String)
  | notSeverity (given : Value)
  | foreignRule (given : Value)
  | blankMessage
  /-- The span has no start to compare. -/
  | hollowSpan
  /-- An offset, on one of the two sides, is not a number to compare. -/
  | incomparable (left right : String)
  | outsideTree (start stop : Value)
  | markedSuppressed

namespace Rejection

/-- The values that the wording shows. -/
def shown : Rejection → List Value
  | notSeverity given => [given]
  | foreignRule given => [given]
  | outsideTree start stop => [start, stop]
  | _ => []

/-- Whether the wording can be had: not when it shows an integer of too many digits. -/
def isWritable (rejection : Rejection) : Bool :=
  rejection.shown.all Value.isWritable

def errorType (rejection : Rejection) : String :=
  if rejection.isWritable then
    match rejection with
    | hollowSpan => "AttributeError"
    | incomparable _ _ => "TypeError"
    | _ => "MalformedFinding"
  else "ValueError"

def wording : Rejection → String
  | notFinding typeName => "expected a Finding, got " ++ typeName
  | notSpan typeName => "finding span must be a Span, got " ++ typeName
  | notSeverity given => "finding severity must be a Severity, got " ++ given.literal
  | foreignRule given => "finding carries rule id " ++ given.literal
  | blankMessage => "finding has an empty message"
  | hollowSpan => "'Span' object has no attribute 'start'"
  | incomparable left right =>
      "'<=' not supported between instances of '" ++ left ++ "' and '" ++ right ++ "'"
  | outsideTree start stop =>
      "finding span " ++ start.display ++ "-" ++ stop.display ++ " lies outside the tree"
  | markedSuppressed => "rules must not mark findings as suppressed"

def detail (rejection : Rejection) : String :=
  if rejection.isWritable then rejection.wording else Number.unwritableMessage

end Rejection

/-! ## Places -/

namespace DraftCoordinate

/-- The coordinate. Null stands for a value that cannot be looked up. -/
def coordinate (given : DraftCoordinate) : Coordinate Numeral :=
  match given.value with
  | .text value => .text value
  | .real .nan => .nan given.tag
  | value => (value.numeral?.map .number).getD .null

def obstacle? (given : DraftCoordinate) : Option Escape :=
  given.value.unhashable?.map fun typeName => ⟨"TypeError", Value.unhashableMessage typeName⟩

end DraftCoordinate

def DraftPosition.spot (position : DraftPosition) (offset : Numeral) : Spot Numeral :=
  ⟨position.line.coordinate, position.column.coordinate, offset⟩

namespace DraftSpan

/-- Where a proposed finding lies, given the span of the tree. The two offsets are compared one
after the other, and a comparison needs a number. -/
def locate (within : Span) : DraftSpan → Except Rejection (Extent Numeral)
  | .other value => .error (.notSpan value.typeName)
  | .hollow => .error .hollowSpan
  | .span start stop =>
      if !start.offset.isNumeric then .error (.incomparable "int" start.offset.typeName)
      else
        match start.offset.numeral? with
        | none => .error (.outsideTree start.offset stop.offset)
        | some first =>
            if ¬ .ofInt within.start.offset ≤ first.amount then
              .error (.outsideTree start.offset stop.offset)
            else if !stop.offset.isNumeric then .error (.incomparable stop.offset.typeName "int")
            else
              match stop.offset.numeral? with
              | none => .error (.outsideTree start.offset stop.offset)
              | some last =>
                  if ¬ last.amount ≤ .ofInt within.stop.offset then
                    .error (.outsideTree start.offset stop.offset)
                  else .ok ⟨start.spot first, stop.spot last⟩

/-- The error of looking the span up: that of the first coordinate that has one. -/
def obstacle? : DraftSpan → Option Escape
  | .span start stop =>
      [start.line, start.column, stop.line, stop.column].findSome? DraftCoordinate.obstacle?
  | _ => none

end DraftSpan

/-! ## Candidates -/

structure Proposal where
  finding : Finding
  /-- The error of entering the finding, if its span cannot be looked up. -/
  obstacle : Option Escape

def Draft.message? (draft : Draft) : Option String :=
  match draft.message with
  | .text message => if Text.isBlankText message then none else some message
  | _ => none

/-- Screens a proposed finding with a span and a severity. -/
def Draft.screen (draft : Draft) (ruleId : String) (within : Span) (severity : Severity) :
    Except Rejection Proposal :=
  if draft.ruleId.text? != some ruleId then .error (.foreignRule draft.ruleId)
  else
    match draft.message?, draft.span.locate within with
    | none, _ => .error .blankMessage
    | some _, .error rejection => .error rejection
    | some message, .ok extent =>
        if draft.suppressed then .error .markedSuppressed
        else
          .ok ⟨⟨ruleId, severity, extent, message, draft.title, draft.recommendation, false⟩,
            draft.span.obstacle?⟩

def Candidate.screen (ruleId : String) (within : Span) : Candidate → Except Rejection Proposal
  | .stray value => .error (.notFinding value.typeName)
  | .draft proposed =>
      match proposed.span, proposed.severity with
      | .other value, _ => .error (.notSpan value.typeName)
      | _, .other given => .error (.notSeverity given)
      | _, .severity severity => proposed.screen ruleId within severity

end TreeLint
