import TreeLint.Report.Basic

/-!
# The ledger of a run

Findings and faults are entered as they come and set in order only when a report is drawn up, so
that the report does not hang on the order of the visit. Of findings with the same key the first is
kept. Drawing up a report leaves the ledger as it is.
-/

set_option autoImplicit false

namespace TreeLint

structure Ledger where
  /-- The findings to report, in the order of their entry, one for each key. -/
  kept : List Finding
  /-- The keys of the silenced findings, each once. -/
  silenced : List FindingKey
  faults : List Fault

namespace Ledger

def empty : Ledger := ⟨[], [], []⟩

def add (ledger : Ledger) (finding : Finding) : Ledger :=
  if finding.suppressed then
    if finding.key ∈ ledger.silenced then ledger
    else { ledger with silenced := ledger.silenced ++ [finding.key] }
  else if ledger.kept.any fun earlier => earlier.key == finding.key then ledger
  else { ledger with kept := ledger.kept ++ [finding] }

def addFault (ledger : Ledger) (fault : Fault) : Ledger :=
  { ledger with faults := ledger.faults ++ [fault] }

def report (ledger : Ledger) (path : Value) (complete : Bool) : Report :=
  let findings := ledger.kept.mergeSort Finding.inOrder
  { path
    findings
    suppressedCount := ledger.silenced.length
    faults := ledger.faults.mergeSort Fault.inOrder
    complete
    summary := .ofFindings findings }

end Ledger

end TreeLint
