import Mathlib.Data.List.Forall2
import TreeLint.Proofs.EntryOrder

/-!
# Verdicts

The counts, the exit code and the verdict of a report are worked out apart from each other. They
agree nevertheless, after any entries and however many reports were drawn up in between. From one
report to the next the exit code does not go down.
-/

set_option autoImplicit false

namespace TreeLint

/-! ## Counts -/

namespace Summary

theorem total_increment (summary : Summary) (severity : Severity) :
    (summary.increment severity).total = summary.total + 1 := by
  cases severity <;> simp [increment, total, count, Severity.all] <;> omega

theorem total_ofFindings (findings : List Finding) :
    (ofFindings findings).total = findings.length := by
  unfold ofFindings
  induction findings using List.reverseRecOn with
  | nil => rfl
  | append_singleton findings finding ih =>
      rw [List.foldl_append, List.foldl_cons, List.foldl_nil, total_increment, ih,
        List.length_append, List.length_singleton]

theorem error_ofFindings_eq_zero_iff {findings : List Finding} :
    (ofFindings findings).error = 0 ↔ ∀ finding ∈ findings, finding.severity ≠ .error := by
  have counted := count_ofFindings findings .error
  rw [count] at counted
  rw [counted, List.length_eq_zero_iff, List.filter_eq_nil_iff]
  simp

end Summary

/-! ## Exit codes -/

namespace Report

variable {report : Report}

theorem exitCode_le_two : report.exitCode ≤ 2 :=
  exitCode_le_iff.mpr ⟨fun _ => Nat.le_refl 2, fun finding _ => finding.severity.rank_le_two⟩

theorem exitCode_eq_two_iff :
    report.exitCode = 2 ↔
      report.faults ≠ [] ∨ ∃ finding ∈ report.findings, finding.severity = .error := by
  have bounded := report.exitCode_le_two
  have lower : ¬ report.exitCode ≤ 1 ↔ report.exitCode = 2 := by omega
  have error (severity : Severity) : ¬ severity.rank ≤ 1 ↔ severity = .error := by
    cases severity <;> decide
  rw [← lower, exitCode_le_iff]
  simp only [not_and_or, not_forall, exists_prop, error]
  simp

theorem exitCode_eq_zero_iff :
    report.exitCode = 0 ↔
      report.faults = [] ∧ ∀ finding ∈ report.findings, finding.severity = .info := by
  have info (severity : Severity) : severity.rank ≤ 0 ↔ severity = .info := by
    cases severity <;> decide
  rw [← Nat.le_zero, exitCode_le_iff]
  simp [info]

theorem exitCode_eq_one_iff :
    report.exitCode = 1 ↔
      report.faults = [] ∧ (∀ finding ∈ report.findings, finding.severity ≠ .error) ∧
        ∃ finding ∈ report.findings, finding.severity = .warning := by
  have bounded := report.exitCode_le_two
  have middle : report.exitCode = 1 ↔ ¬ report.exitCode = 2 ∧ ¬ report.exitCode = 0 := by omega
  rw [middle, exitCode_eq_two_iff, exitCode_eq_zero_iff]
  constructor
  · rintro ⟨mild, notable⟩
    obtain ⟨faultless, errorless⟩ := not_or.mp mild
    have clean : report.faults = [] := not_not.mp faultless
    have milder : ∀ finding ∈ report.findings, finding.severity ≠ .error := by
      intro finding member grave
      exact errorless ⟨finding, member, grave⟩
    refine ⟨clean, milder, ?_⟩
    obtain ⟨finding, member, other⟩ : ∃ finding ∈ report.findings, finding.severity ≠ .info := by
      simpa [clean] using notable
    refine ⟨finding, member, ?_⟩
    have own := milder finding member
    cases severity : finding.severity with
    | error => exact absurd severity own
    | warning => rfl
    | info => exact absurd severity other
  · rintro ⟨clean, milder, finding, member, warning⟩
    constructor
    · rintro (faulty | ⟨grave, listed, error⟩)
      · exact faulty clean
      · exact milder grave listed error
    · rintro ⟨_, informative⟩
      rw [informative finding member] at warning
      cases warning

theorem passed_iff (counted : report.summary = .ofFindings report.findings) :
    report.passed = true ↔ report.complete = true ∧ report.exitCode ≠ 2 := by
  rw [ne_eq, exitCode_eq_two_iff, passed, counted]
  simp only [Bool.and_eq_true, List.isEmpty_iff, beq_iff_eq, Summary.error_ofFindings_eq_zero_iff,
    not_or, not_not, not_exists, not_and, and_assoc, ne_eq]

end Report

/-! ## Operations -/

namespace Ledger

inductive Operation where
  | enter (entry : Entry)
  | drawUp (path : Value) (complete : Bool)

/-- Performs an operation on a ledger and the reports drawn up so far. -/
def perform (state : Ledger × List Report) : Operation → Ledger × List Report
  | .enter entry => (state.1.enter entry, state.2)
  | .drawUp path complete => (state.1, state.2 ++ [state.1.report path complete])

def performAll (operations : List Operation) : Ledger × List Report :=
  operations.foldl perform (empty, [])

theorem performAll_append_singleton (operations : List Operation) (operation : Operation) :
    performAll (operations ++ [operation]) = perform (performAll operations) operation := by
  simp [performAll]

/-- A report that is asked for, with the entries in front of it. -/
structure Drawing where
  entries : List Entry
  path : Value
  complete : Bool

def Drawing.report (drawing : Drawing) : Report :=
  (holding drawing.entries).report drawing.path drawing.complete

/-- The reports that are asked for when the given entries have been made before. -/
def drawings (entries : List Entry) : List Operation → List Drawing
  | [] => []
  | .enter entry :: rest => drawings (entries ++ [entry]) rest
  | .drawUp path complete :: rest => ⟨entries, path, complete⟩ :: drawings entries rest

theorem holding_append_singleton (entries : List Entry) (entry : Entry) :
    holding (entries ++ [entry]) = (holding entries).enter entry := by
  simp [holding]

theorem reports_foldl_perform (entries : List Entry) (drawn : List Report)
    (operations : List Operation) :
    (operations.foldl perform (holding entries, drawn)).2 =
      drawn ++ (drawings entries operations).map Drawing.report := by
  induction operations generalizing entries drawn with
  | nil => simp [drawings]
  | cons operation rest ih =>
      cases operation with
      | enter entry =>
          rw [List.foldl_cons, perform, ← holding_append_singleton, ih, drawings]
      | drawUp path complete =>
          -- The ledger is the same after a report, so the entries in front of the next are too.
          rw [List.foldl_cons, perform, ih, drawings, List.map_cons, List.append_assoc,
            List.singleton_append]
          rfl

theorem performAll_reports (operations : List Operation) :
    (performAll operations).2 = (drawings [] operations).map Drawing.report := by
  have run := reports_foldl_perform [] [] operations
  rwa [List.nil_append] at run

/-! ## Exit codes along a run -/

/-- What is entered stays. -/
theorem subset_enter (ledger : Ledger) (entry : Entry) :
    ledger.kept ⊆ (ledger.enter entry).kept ∧ ledger.faults ⊆ (ledger.enter entry).faults := by
  cases entry with
  | finding own =>
      rw [enter, add]
      split
      · split
        · exact ⟨List.Subset.refl _, List.Subset.refl _⟩
        · exact ⟨List.Subset.refl _, List.Subset.refl _⟩
      · split
        · exact ⟨List.Subset.refl _, List.Subset.refl _⟩
        · exact ⟨List.subset_append_left _ _, List.Subset.refl _⟩
  | fault own => exact ⟨List.Subset.refl _, List.subset_append_left _ _⟩

theorem exitCode_report_enter (ledger : Ledger) (entry : Entry) (path other : Value)
    (complete whole : Bool) :
    (ledger.report path complete).exitCode ≤
      ((ledger.enter entry).report other whole).exitCode := by
  obtain ⟨kept, faults⟩ := ledger.subset_enter entry
  refine Report.exitCode_le_of_subset ?_ ?_
  · intro finding member
    exact List.mem_mergeSort.mpr (kept (List.mem_mergeSort.mp member))
  · intro faulty
    obtain ⟨fault, member⟩ := List.exists_mem_of_ne_nil _ faulty
    exact List.ne_nil_of_mem (List.mem_mergeSort.mpr (faults (List.mem_mergeSort.mp member)))

/-- The exit codes of the reports rise, up to that of a report on the ledger as it stands. -/
structure Rising (state : Ledger × List Report) : Prop where
  ordered : state.2.Pairwise fun earlier later => earlier.exitCode ≤ later.exitCode
  bounded : ∀ report ∈ state.2, ∀ path complete,
    report.exitCode ≤ (state.1.report path complete).exitCode

theorem Rising.perform {state : Ledger × List Report} (rising : Rising state)
    (operation : Operation) : Rising (perform state operation) := by
  cases operation with
  | enter entry =>
      refine ⟨rising.ordered, ?_⟩
      intro report drawn path complete
      exact (rising.bounded report drawn path complete).trans
        (exitCode_report_enter state.1 entry path path complete complete)
  | drawUp path complete =>
      refine ⟨List.pairwise_append.mpr ⟨rising.ordered, List.pairwise_singleton _ _, ?_⟩, ?_⟩
      · intro earlier drawn later new
        rw [List.mem_singleton.mp new]
        exact rising.bounded earlier drawn path complete
      · intro report drawn other whole
        rcases List.mem_append.mp drawn with earlier | new
        · exact rising.bounded report earlier other whole
        · -- Exit codes do not look at the path or at completeness.
          rw [List.mem_singleton.mp new]
          exact Nat.le_refl _

theorem rising_performAll (operations : List Operation) : Rising (performAll operations) := by
  induction operations using List.reverseRecOn with
  | nil => exact ⟨.nil, nofun⟩
  | append_singleton operations operation ih =>
      rw [performAll_append_singleton]
      exact ih.perform operation

end Ledger

/-! ## Reports as a whole -/

/-- The parts of a report agree with each other and with what was entered. -/
structure Report.Consistent (report : Report) (entries : List Ledger.Entry) : Prop where
  mem_findings_iff : ∀ finding, finding ∈ report.findings ↔
    ∃ earlier later, Ledger.Entry.unsuppressed entries = earlier ++ finding :: later ∧
      ∀ other ∈ earlier, other.key ≠ finding.key
  keys_nodup : (report.findings.map Finding.key).Nodup
  sorted : report.findings.Pairwise fun left right => left.inOrder right = true
  faults_perm : report.faults.Perm (entries.filterMap Ledger.Entry.fault?)
  counts : ∀ severity, report.summary.count severity =
    (report.findings.filter fun finding => finding.severity = severity).length
  total_eq : report.summary.total = report.findings.length
  exitCode_two : report.exitCode = 2 ↔
    report.faults ≠ [] ∨ ∃ finding ∈ report.findings, finding.severity = .error
  exitCode_one : report.exitCode = 1 ↔
    report.faults = [] ∧ (∀ finding ∈ report.findings, finding.severity ≠ .error) ∧
      ∃ finding ∈ report.findings, finding.severity = .warning
  exitCode_zero : report.exitCode = 0 ↔
    report.faults = [] ∧ ∀ finding ∈ report.findings, finding.severity = .info
  passes : report.passed = true ↔ report.complete = true ∧ report.exitCode ≠ 2
  /-- A further entry does not lower the exit code, however the next report is drawn up. -/
  exitCode_le : ∀ entry path complete, report.exitCode ≤
    ((Ledger.holding (entries ++ [entry])).report path complete).exitCode

namespace Ledger

theorem consistent_report (entries : List Entry) (path : Value) (complete : Bool) :
    ((holding entries).report path complete).Consistent entries := by
  refine {
    mem_findings_iff := ?_, keys_nodup := ?_
    sorted := StableSort.sorted_mergeSort Finding.order _, faults_perm := ?_
    counts := Summary.count_ofFindings _, total_eq := Summary.total_ofFindings _
    exitCode_two := Report.exitCode_eq_two_iff, exitCode_one := Report.exitCode_eq_one_iff
    exitCode_zero := Report.exitCode_eq_zero_iff, passes := Report.passed_iff rfl
    exitCode_le := ?_ }
  · intro finding
    rw [report, kept_holding, List.mem_mergeSort, Finding.mem_firsts, List.find?_eq_some_iff_append]
    simp
  · have sorted := (List.mergeSort_perm (holding entries).kept Finding.inOrder).map Finding.key
    rw [kept_holding] at sorted
    rw [report, kept_holding]
    exact sorted.nodup_iff.mpr (Finding.nodup_map_key_firsts _)
  · rw [← faults_holding]
    exact List.mergeSort_perm _ _
  · intro entry other whole
    rw [holding_append_singleton]
    exact exitCode_report_enter (holding entries) entry path other complete whole

/-- Every report drawn up in a run is consistent with the entries in front of it, and the exit
codes do not go down. -/
theorem performAll_consistent (operations : List Operation) :
    List.Forall₂ (fun drawing report => report.path = drawing.path ∧
        report.complete = drawing.complete ∧ report.Consistent drawing.entries)
        (drawings [] operations) (performAll operations).2 ∧
      (performAll operations).2.Pairwise fun earlier later =>
        earlier.exitCode ≤ later.exitCode := by
  refine ⟨?_, (rising_performAll operations).ordered⟩
  rw [performAll_reports, List.forall₂_map_right_iff, List.forall₂_same]
  intro drawing _
  exact ⟨rfl, rfl, consistent_report drawing.entries drawing.path drawing.complete⟩

end Ledger

end TreeLint
