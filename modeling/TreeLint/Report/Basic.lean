import TreeLint.Finding.Basic

/-!
# Reports

The outcome of one analysis.
-/

set_option autoImplicit false

namespace TreeLint

structure Summary where
  error : Nat
  warning : Nat
  info : Nat
  deriving DecidableEq, Repr

namespace Summary

def empty : Summary := ⟨0, 0, 0⟩

def increment (summary : Summary) : Severity → Summary
  | .error => { summary with error := summary.error + 1 }
  | .warning => { summary with warning := summary.warning + 1 }
  | .info => { summary with info := summary.info + 1 }

def count (summary : Summary) : Severity → Nat
  | .error => summary.error
  | .warning => summary.warning
  | .info => summary.info

def total (summary : Summary) : Nat :=
  Severity.all.foldl (fun total severity => total + summary.count severity) 0

def ofFindings (findings : List Finding) : Summary :=
  findings.foldl (fun summary finding => summary.increment finding.severity) empty

def toValue (summary : Summary) : Value :=
  .object (Severity.all.map fun severity => (severity.key, .integer (summary.count severity)))

end Summary

structure Report where
  /-- The path of the analysed tree. -/
  path : Value
  findings : List Finding
  /-- The number of silenced findings, repetitions counted once. -/
  suppressedCount : Nat
  faults : List Fault
  /-- Whether every node was visited. -/
  complete : Bool
  summary : Summary

namespace Report

def passed (report : Report) : Bool :=
  report.complete && report.faults.isEmpty && report.summary.error == 0

/-- The gravest rank among the findings; a fault counts as an error. -/
def exitCode (report : Report) : Nat :=
  if report.faults.isEmpty then
    report.findings.foldl (fun rank finding => max rank finding.severity.rank) 0
  else Severity.error.rank

def toValue (report : Report) : Value :=
  .object [("path", report.path), ("summary", report.summary.toValue),
    ("findings", .list (report.findings.map Finding.toValue)),
    ("suppressed", .integer report.suppressedCount),
    ("faults", .list (report.faults.map Fault.toValue)),
    ("complete", .bool report.complete), ("passed", .bool report.passed)]

end Report

end TreeLint
