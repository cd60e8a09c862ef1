import TreeLint.Report.Basic

/-!
# The report as a table

Counts by severity, the verdict, the first findings with their recommendations, and all faults.
-/

set_option autoImplicit false

namespace TreeLint.Report

/-- The first `bound` items, or, for a negative bound, all but that many at the end. -/
def upTo {α : Type} (bound : Int) (items : List α) : List α :=
  if bound < 0 then items.take (items.length - bound.natAbs) else items.take bound.toNat

def countRow (label count : String) : String :=
  Text.padRight 10 label ++ " | " ++ Text.padLeft 5 count

def findingLines (finding : Finding) : List String :=
  ("[" ++ finding.severity.name ++ "] " ++ finding.span.label ++ " " ++ finding.ruleId ++ ": " ++
      finding.message) ::
    (if finding.recommendation.isEmpty then [] else ["  Fix: " ++ finding.recommendation])

def faultLine (fault : Fault) : String :=
  let place :=
    match fault.span with
    | some span => " at " ++ span.label
    | none => ""
  "[FAULT] " ++ fault.ruleId ++ " on " ++ fault.nodeKind ++ place ++ ": " ++ fault.errorType ++
    ": " ++ fault.detail

def headLines (report : Report) : List String :=
  let header := countRow "Severity" "Count"
  let rule := Text.row header.length '-'
  ["Convention Report: " ++ report.path.display, Text.row 40 '=', header, rule] ++
    (Severity.all.map fun severity =>
      countRow severity.name (toString (report.summary.count severity))) ++
    [rule,
     "Status    : " ++ (if report.passed then "PASS" else "FAIL"),
     "Findings  : " ++ toString report.summary.total,
     "Suppressed: " ++ toString report.suppressedCount] ++
    (if report.faults.isEmpty then [] else ["Faults    : " ++ toString report.faults.length]) ++
    (if report.complete then [] else ["Complete  : no (run cancelled)"])

/-- The findings up to a bound, and how many are left out. -/
def findingsLines (report : Report) (bound : Int) : List String :=
  if report.findings.isEmpty then []
  else
    let remaining : Int := report.findings.length - bound
    ["", "Findings", Text.row 40 '-'] ++ (upTo bound report.findings).flatMap findingLines ++
      (if remaining > 0 then ["... " ++ toString remaining ++ " more"] else [])

/-- The number of findings that a table lists unless told otherwise. -/
def customaryBound : Int := 10

def table (report : Report) (bound : Int) : String :=
  Text.join "\n"
    (report.headLines ++ report.findingsLines bound ++ report.faults.map faultLine)

end TreeLint.Report
