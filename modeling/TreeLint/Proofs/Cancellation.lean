import TreeLint.Proofs.ReferenceReport

/-!
# Runs that are stopped

A run whose signal lets a number of nodes pass reports on that many nodes from the front of the walk
and on nothing else, whatever the number of workers. What it reports, a run that goes further
reports too, with the same particulars and in the same order.
-/

set_option autoImplicit false

namespace TreeLint

/-! ## Reports on a first part -/

namespace WaiverSheet

variable (sheet : WaiverSheet) {first second : Outcome}

theorem reportOn_append_findings
    (fresh : ∀ finding ∈ (first.append second).findings, finding.suppressed = false)
    (complete whole : Bool) :
    (sheet.reportOn first complete).findings.Sublist
      (sheet.reportOn (first.append second) whole).findings := by
  have firstFresh : ∀ finding ∈ first.findings, finding.suppressed = false :=
    fun finding member => fresh finding (by
      rw [Outcome.findings_append]
      exact List.mem_append_left _ member)
  rw [sheet.reportOn_findings firstFresh, sheet.reportOn_findings fresh, Outcome.findings_append,
    List.filter_append]
  exact @StableSort.sublist_mergeSort _ Finding.order _ _ _ (Finding.firsts_sublist_append _ _)

theorem reportOn_append_faults (complete whole : Bool) :
    (sheet.reportOn first complete).faults.Sublist
      (sheet.reportOn (first.append second) whole).faults := by
  rw [sheet.reportOn_faults, sheet.reportOn_faults]
  exact @StableSort.sublist_mergeSort _ Fault.order _ _ _ (List.sublist_append_left _ _)

theorem reportOn_append_suppressedCount_le
    (fresh : ∀ finding ∈ (first.append second).findings, finding.suppressed = false)
    (complete whole : Bool) :
    (sheet.reportOn first complete).suppressedCount ≤
      (sheet.reportOn (first.append second) whole).suppressedCount := by
  have part : first.findings ⊆ (first.append second).findings := by
    rw [Outcome.findings_append]
    exact List.subset_append_left _ _
  exact sheet.reportOn_suppressedCount_le (fun finding member => fresh finding (part member)) fresh
    part complete whole

end WaiverSheet

namespace Run

/-! ## The nodes that a run takes -/

theorem admitted_after (count asked : Nat) (cursors : List Cursor) :
    admitted (.after count) asked cursors = cursors.take (count - asked) := by
  induction cursors generalizing asked with
  | nil => rw [admitted, List.take_nil]
  | cons cursor rest ih =>
      rw [admitted, ih]
      by_cases stopped : count ≤ asked
      · have none : count - asked = 0 := by omega
        simp [Signal.after, stopped, none]
      · have more : count - asked = count - (asked + 1) + 1 := by omega
        simp [Signal.after, stopped, more]

theorem upTo_after (tree : Tree) (count : Nat) :
    tree.upTo (.after count) = tree.walk.take count :=
  admitted_after count 0 tree.walk

theorem collect_tree (sheet : WaiverSheet) (run : Run) (outcome : Except Escape Outcome) :
    (run.collect sheet outcome).run.tree = run.tree := by
  cases outcome with
  | error escape => rfl
  | ok outcome =>
      simp only [collect]
      split
      · exact enter_tree run .collecting
      · exact enter_tree run .collecting

theorem collectAll_tree (sheet : WaiverSheet) (run : Run)
    (outcomes : List (Except Escape Outcome)) :
    (run.collectAll sheet outcomes).run.tree = run.tree := by
  induction outcomes generalizing run with
  | nil => rfl
  | cons outcome rest ih =>
      have step := collect_tree sheet run outcome
      simp only [collectAll]
      split
      · exact step
      · exact (ih _).trans step

/-- Dispatches nodes, and collects their outcomes one after the other. -/
def visiting (engine : Engine) (tree : Tree) (cursors : List Cursor) : Progress Unit :=
  (start engine tree).collectAll (engine.sheet tree) (cursors.map (engine.dispatch tree))

/-- Whatever its signal and its workers, a run comes to what its nodes come to one by one. -/
theorem execute_visiting (engine : Engine) (tree : Tree) (signal : Signal) :
    ((start engine tree).execute signal).result =
      (visiting engine tree (tree.upTo signal)).result.map (fun _ =>
        (visiting engine tree (tree.upTo signal)).run.ledger.report tree.path
          !decide ((tree.upTo signal).length < tree.size)) := by
  have begun : (start engine tree).Alike ((start engine tree).enter .traversing) :=
    (Alike.refl _).enter_right .traversing
  have inline := traverseAll_alike_traverse (engine.sheet tree) signal
    (Alike.refl ((start engine tree).enter .traversing))
  obtain ⟨answer, alike⟩ := collectAll_admitted (engine.sheet tree) signal 0 begun tree.walk
  have taken := inline.run.trans alike.symm
  have sameTree : (((start engine tree).enter .traversing).traverseAll
      (engine.sheet tree) signal).run.tree = tree :=
    taken.tree.trans (collectAll_tree _ _ _)
  have answered : (((start engine tree).enter .traversing).traverseAll
      (engine.sheet tree) signal).result =
        (visiting engine tree (tree.upTo signal)).result.map fun _ =>
          !decide ((tree.upTo signal).length < tree.size) :=
    inline.result.trans answer
  simp only [(execute_taken engine tree signal).1, sameTree, taken.ledger, answered]
  cases (visiting engine tree (tree.upTo signal)).result with
  | error error => rfl
  | ok done => rfl

theorem execute_visited {engine : Engine} {tree : Tree} {signal : Signal} {report : Report}
    (passed : ((start engine tree).execute signal).result = .ok report) :
    ((start engine tree).execute signal).run.visited = (tree.upTo signal).length := by
  have going : (tree.upTo signal).findSome? (engine.stop? tree (engine.sheet tree)) = none := by
    rw [execute_result] at passed
    split at passed
    next => cases passed
    next going => exact going
  have inline := traverseAll_alike_traverse (engine.sheet tree) signal
    (Alike.refl ((start engine tree).enter .traversing))
  obtain ⟨_, took⟩ := traverse_passed (engine.sheet tree) signal 0
    ((start engine tree).enter .traversing) tree.walk going
  have ended : ((start engine tree).execute signal).run.visited =
      (((start engine tree).enter .traversing).traverseAll
        (engine.sheet tree) signal).run.visited := by
    rw [(execute_taken engine tree signal).2]
    dsimp only
    split
    · exact enter_visited _ .done
    · rfl
  rw [ended, inline.run.visited]
  exact took.visited.trans (Nat.zero_add _)

/-- A run that stops earlier has a report too, and all of it stays in that of the longer run. -/
theorem execute_fewer {engine : Engine} {tree : Tree} {fewer count : Nat} (le : fewer ≤ count)
    {report : Report} (passed : ((start engine tree).execute (.after count)).result = .ok report) :
    ∃ earlier, ((start engine tree).execute (.after fewer)).result = .ok earlier ∧
      earlier.findings.Sublist report.findings ∧ earlier.faults.Sublist report.faults ∧
      earlier.suppressedCount ≤ report.suppressedCount := by
  obtain ⟨whole, free, rfl⟩ := execute_eq_ok_iff.mp passed
  have fresh := engine.outcome_fresh tree (tree.upTo (.after count))
  have parts : tree.upTo (.after count) =
      tree.upTo (.after fewer) ++ (tree.walk.take count).drop fewer := by
    have front : (tree.walk.take count).take fewer = tree.walk.take fewer := by
      rw [List.take_take, Nat.min_eq_left le]
    rw [upTo_after, upTo_after, ← front, List.take_append_drop]
  have shorter : ¬ engine.Breaks tree (tree.upTo (.after fewer)) := by
    rw [Engine.not_breaks_iff] at whole ⊢
    intro cursor member
    exact whole cursor (parts ▸ List.mem_append_left _ member)
  rw [parts, engine.outcome_append] at free fresh ⊢
  rw [Outcome.findings_append, List.any_append, Bool.or_eq_false_iff] at free
  refine ⟨_, execute_eq_ok_iff.mpr ⟨shorter, free.1, rfl⟩, ?_, ?_, ?_⟩
  · exact (engine.sheet tree).reportOn_append_findings fresh _ _
  · exact (engine.sheet tree).reportOn_append_faults _ _
  · exact (engine.sheet tree).reportOn_append_suppressedCount_le fresh _ _

/-- A run that lets a number of nodes pass comes to what as many nodes from the front of the walk
come to, whatever the number of workers. Over a path that is a text it has a report unless a rule
breaks it at one of these nodes. If it has one, it has visited just these nodes, its report is
complete when they are all there are, and runs that stop earlier report parts of it. -/
theorem execute_after (engine : Engine) (tree : Tree) (count : Nat) :
    ((start engine tree).execute (.after count)).result =
        (visiting engine tree (tree.walk.take (min count tree.size))).result.map (fun _ =>
          (visiting engine tree (tree.walk.take (min count tree.size))).run.ledger.report tree.path
            (decide (tree.size ≤ count))) ∧
      (∀ path, tree.path = .text path →
        ((∃ report, ((start engine tree).execute (.after count)).result = .ok report) ↔
          ¬ engine.Breaks tree (tree.walk.take (min count tree.size)))) ∧
      ∀ report, ((start engine tree).execute (.after count)).result = .ok report →
        ((start engine tree).execute (.after count)).run.visited = min count tree.size ∧
        (report.complete = true ↔ tree.size ≤ count) ∧
        ∀ fewer ≤ count, ∃ earlier,
          ((start engine tree).execute (.after fewer)).result = .ok earlier ∧
            earlier.findings.Sublist report.findings ∧ earlier.faults.Sublist report.faults ∧
            earlier.suppressedCount ≤ report.suppressedCount := by
  have nodes : tree.walk.take (min count tree.size) = tree.upTo (.after count) := by
    rw [upTo_after, Tree.size, ← List.take_eq_take_min]
  have length : (tree.upTo (.after count)).length = min count tree.size := by
    rw [upTo_after, List.length_take, Tree.size]
  refine ⟨?_, fun path named => nodes ▸ execute_reports_iff named,
    fun report passed => ⟨?_, ?_, ?_⟩⟩
  · have whole : (!decide (min count tree.size < tree.size)) = decide (tree.size ≤ count) := by
      rw [← decide_not, decide_eq_decide]
      omega
    rw [execute_visiting engine tree (.after count), nodes, length, whole]
  · rw [execute_visited passed, length]
  · obtain ⟨_, _, rfl⟩ := execute_eq_ok_iff.mp passed
    change ((tree.upTo (.after count)).length == tree.size) = true ↔ _
    rw [length, beq_iff_eq]
    omega
  · exact fun fewer le => execute_fewer le passed

theorem execute_after_erratic :
    Tree.declaring.size = 2 ∧
      ∃ report,
        ((start ⟨Catalogue.sealed ⟨[.erratic], none⟩, .neutral, 3⟩ .declaring).execute
            (.after 5)).result = .ok report ∧
          ((start ⟨Catalogue.sealed ⟨[.erratic], none⟩, .neutral, 3⟩ .declaring).execute
            (.after 5)).run.visited = 2 ∧
          report.complete = true ∧
          ∃ earlier,
            ((start ⟨Catalogue.sealed ⟨[.erratic], none⟩, .neutral, 3⟩ .declaring).execute
                (.after 1)).result = .ok earlier ∧
              earlier.findings.Sublist report.findings ∧ earlier.faults.Sublist report.faults ∧
              earlier.suppressedCount ≤ report.suppressedCount := by
  have size : Tree.declaring.size = 2 := by
    simp [Tree.size, Tree.walk, Tree.walkFrom, Tree.cursor, Cursor.children, Tree.declaring]
  obtain ⟨_, reports, further⟩ :=
    execute_after ⟨Catalogue.sealed ⟨[.erratic], none⟩, .neutral, 3⟩ .declaring 5
  obtain ⟨report, passed⟩ := (reports "a.go" rfl).mpr
    (Engine.not_breaks_of_singleton (by decide) (Rule.erratic_not_breaksWith .declaring) _ _ _)
  obtain ⟨visited, complete, parts⟩ := further report passed
  rw [size] at visited complete
  exact ⟨size, report, passed, visited, complete.mpr (by decide), parts 1 (by decide)⟩

end Run

end TreeLint
