import TreeLint.Proofs.DispatchProperties
import TreeLint.Proofs.TraversalProperties
import TreeLint.Proofs.WaiverProperties

/-!
# The result of a run

A run dispatches the nodes in front of the first at which its signal stops it. Its report is a
function of what the rules bring to these nodes, in the order of the walk, whatever the number of
workers. A run fails only over a path that is not a text, or over a rule that ends with an error
that nothing handles.
-/

set_option autoImplicit false

namespace TreeLint

/-- What the rules bring to nodes, one node after the other. -/
def Engine.outcome (engine : Engine) (tree : Tree) (cursors : List Cursor) : Outcome :=
  Outcome.concat (cursors.map (engine.brought tree))

theorem Engine.outcome_nil (engine : Engine) (tree : Tree) : engine.outcome tree [] = .empty := rfl

theorem Engine.outcome_cons (engine : Engine) (tree : Tree) (cursor : Cursor)
    (rest : List Cursor) :
    engine.outcome tree (cursor :: rest) =
      (engine.brought tree cursor).append (engine.outcome tree rest) := rfl

theorem Engine.outcome_append (engine : Engine) (tree : Tree) (front back : List Cursor) :
    engine.outcome tree (front ++ back) =
      (engine.outcome tree front).append (engine.outcome tree back) := by
  induction front with
  | nil => rfl
  | cons cursor rest ih =>
      rw [List.cons_append, outcome_cons, outcome_cons, ih]
      simp only [Outcome.append, List.append_assoc]

theorem Engine.outcome_fresh (engine : Engine) (tree : Tree) (cursors : List Cursor) :
    ∀ finding ∈ (engine.outcome tree cursors).findings, finding.suppressed = false := by
  intro finding member
  rw [Engine.outcome, Outcome.findings_concat] at member
  obtain ⟨outcome, listed, own⟩ := List.mem_flatMap.mp member
  obtain ⟨cursor, _, rfl⟩ := List.mem_map.mp listed
  exact engine.brought_fresh tree cursor finding own

theorem Engine.restrict_outcome_congr {left right : Engine} (leftSound : left.catalogue.Sound)
    (rightSound : right.catalogue.Sound) (policy : left.policy = right.policy)
    {keep : String → Bool}
    (shared : (left.catalogue.rules.filter fun rule => keep rule.id) =
      right.catalogue.rules.filter fun rule => keep rule.id) (tree : Tree)
    (cursors : List Cursor) :
    (left.outcome tree cursors).restrict keep = (right.outcome tree cursors).restrict keep := by
  rw [Engine.outcome, Engine.outcome, Outcome.restrict_concat, Outcome.restrict_concat,
    List.map_map, List.map_map]
  refine congrArg _ (List.map_congr_left fun cursor _ => ?_)
  exact restrict_brought_congr leftSound rightSound policy shared tree cursor

/-- Engines that ask the same rules and give the same severities find the same. -/
theorem Engine.outcome_congr {left right : Engine} (rulesAt : left.rulesAt = right.rulesAt)
    (severityFor : ∀ id own, left.policy.severityFor id own = right.policy.severityFor id own)
    (tree : Tree) : left.outcome tree = right.outcome tree := by
  funext cursors
  refine congrArg Outcome.concat (List.map_congr_left fun cursor _ => ?_)
  rw [brought, brought, rulesAt, bring_congr severityFor]

/-- The waivers in force when an engine inspects a tree. -/
def Engine.sheet (engine : Engine) (tree : Tree) : WaiverSheet :=
  (WaiverSheet.ofTree tree engine.policy).1

theorem Engine.sheet_congr {left right : Engine} (policy : left.policy = right.policy)
    (tree : Tree) : left.sheet tree = right.sheet tree := by
  rw [Engine.sheet, Engine.sheet, policy]

theorem Engine.sheet_path (engine : Engine) (tree : Tree) : (engine.sheet tree).path = tree.path :=
  rfl

theorem Engine.mem_waivers_sheet {engine : Engine} {tree : Tree} {waiver : Waiver} :
    waiver ∈ (engine.sheet tree).waivers ↔
      (∃ inline ∈ (WaiverSheet.inlineWaivers tree).1, .inline inline = waiver) ∨
        ∃ exclusion ∈ engine.policy.allExclusions, .exclusion exclusion = waiver := by
  rw [WaiverSheet.waivers, List.mem_append, List.mem_map, List.mem_map]
  rfl

theorem Engine.waivers_sheet_subset {engine wider : Engine}
    (more : engine.policy.allExclusions ⊆ wider.policy.allExclusions) (tree : Tree) :
    (engine.sheet tree).waivers ⊆ (wider.sheet tree).waivers := by
  intro waiver listed
  refine mem_waivers_sheet.mpr ((mem_waivers_sheet.mp listed).imp_right ?_)
  rintro ⟨exclusion, excluded, rfl⟩
  exact ⟨exclusion, more excluded, rfl⟩

/-- The nodes in front of the first at which a signal stops a run. -/
def Tree.upTo (tree : Tree) (signal : Signal) : List Cursor :=
  Run.admitted signal 0 tree.walk

/-- The report on an outcome under waivers. -/
def WaiverSheet.reportOn (sheet : WaiverSheet) (outcome : Outcome) (complete : Bool) : Report :=
  (Ledger.recording (outcome.findings.map sheet.mark) outcome.faults).report sheet.path complete

namespace WaiverSheet

variable (sheet : WaiverSheet) {outcome : Outcome}

theorem reportOn_findings (fresh : ∀ finding ∈ outcome.findings, finding.suppressed = false)
    (complete : Bool) :
    (sheet.reportOn outcome complete).findings =
      (Finding.firsts (outcome.findings.filter fun finding => !sheet.silences finding)).mergeSort
        Finding.inOrder := by
  rw [← sheet.filter_map_mark_kept fresh]
  rfl

theorem reportOn_suppressedCount
    (fresh : ∀ finding ∈ outcome.findings, finding.suppressed = false) (complete : Bool) :
    (sheet.reportOn outcome complete).suppressedCount =
      ((outcome.findings.filter sheet.silences).map Finding.key).toFinset.card := by
  rw [← sheet.filter_map_mark_silenced fresh]
  exact length_eraseDups _

/-- More findings have no fewer suppressed keys among them. -/
theorem reportOn_suppressedCount_le {left right : Outcome}
    (leftFresh : ∀ finding ∈ left.findings, finding.suppressed = false)
    (rightFresh : ∀ finding ∈ right.findings, finding.suppressed = false)
    (subset : left.findings ⊆ right.findings) (leftComplete rightComplete : Bool) :
    (sheet.reportOn left leftComplete).suppressedCount ≤
      (sheet.reportOn right rightComplete).suppressedCount := by
  rw [sheet.reportOn_suppressedCount leftFresh, sheet.reportOn_suppressedCount rightFresh]
  refine Finset.card_le_card fun key member => ?_
  rw [List.mem_toFinset] at member ⊢
  exact List.map_subset Finding.key (List.filter_subset sheet.silences subset) member

theorem reportOn_faults (complete : Bool) :
    (sheet.reportOn outcome complete).faults = outcome.faults.mergeSort Fault.inOrder := rfl

theorem reportOn_ext {sheet : WaiverSheet} {left right : Outcome} {complete : Bool}
    (findings : (sheet.reportOn left complete).findings = (sheet.reportOn right complete).findings)
    (suppressed : (sheet.reportOn left complete).suppressedCount =
      (sheet.reportOn right complete).suppressedCount)
    (faults : (sheet.reportOn left complete).faults = (sheet.reportOn right complete).faults) :
    sheet.reportOn left complete = sheet.reportOn right complete := by
  have assembled (outcome : Outcome) : sheet.reportOn outcome complete =
      ⟨sheet.path, (sheet.reportOn outcome complete).findings,
        (sheet.reportOn outcome complete).suppressedCount,
        (sheet.reportOn outcome complete).faults, complete,
        .ofFindings (sheet.reportOn outcome complete).findings⟩ := rfl
  rw [assembled left, assembled right, findings, suppressed, faults]

/-- Among the findings of rules with certain ids, those that remain are found by leaving the others
out from the start. -/
theorem filter_firsts_not_silenced (keep : String → Bool) (findings : List Finding) :
    (Finding.firsts (findings.filter fun finding => !sheet.silences finding)).filter
        (fun finding => keep finding.ruleId) =
      Finding.firsts ((findings.filter fun finding => keep finding.ruleId).filter
        fun finding => !sheet.silences finding) := by
  rw [Finding.filter_firsts, List.filter_comm]
  intro left right sameKey
  rw [(FindingKey.mk.inj sameKey).1]

end WaiverSheet

/-! ## Where a run ends early -/

namespace Engine

/-- A rule that is asked about one of the nodes ends with an error that nothing handles. -/
def Breaks (engine : Engine) (tree : Tree) (cursors : List Cursor) : Prop :=
  ∃ cursor ∈ cursors, ∃ rule ∈ engine.rulesAt cursor, ∃ escape, rule.BreaksWith tree cursor escape

/-- Why a run does not get past a node, if it does not. -/
def stop? (engine : Engine) (tree : Tree) (sheet : WaiverSheet) (cursor : Cursor) :
    Option RunError :=
  match (engine.rulesAt cursor).findSome? (Rule.escape? tree cursor) with
  | some escape => some (.escaped escape)
  | none => (engine.brought tree cursor).proposals.findSome? sheet.refusal?

variable {engine : Engine} {tree : Tree} {sheet : WaiverSheet}

theorem not_breaks_iff {cursors : List Cursor} :
    ¬ engine.Breaks tree cursors ↔ ∀ cursor ∈ cursors, engine.breach? tree cursor = none := by
  simp only [Breaks, breach?_eq_none_iff, not_exists, not_and]

theorem dispatch_of_not_breaks {cursors : List Cursor} (whole : ¬ engine.Breaks tree cursors)
    {cursor : Cursor} (visited : cursor ∈ cursors) :
    engine.dispatch tree cursor = .ok (engine.brought tree cursor) := by
  have told := (Option.or_eq_none_iff.mp (not_breaks_iff.mp whole cursor visited)).1
  rw [dispatch_eq, told]

theorem not_breaks_of_rules (sound : engine.catalogue.Sound) {cursors : List Cursor}
    (whole : ∀ rule ∈ engine.catalogue.rules, ∀ cursor ∈ cursors, ∀ escape,
      ¬ rule.BreaksWith tree cursor escape) : ¬ engine.Breaks tree cursors := by
  rintro ⟨cursor, visited, rule, asked, escape, breaks⟩
  exact whole rule ((mem_rulesAt sound).mp asked).1 cursor visited escape breaks

theorem breaks_congr {left right : Engine} (rulesAt : left.rulesAt = right.rulesAt) (tree : Tree)
    (cursors : List Cursor) : left.Breaks tree cursors ↔ right.Breaks tree cursors := by
  rw [Breaks, Breaks, rulesAt]

theorem stop?_congr {left right : Engine} (rulesAt : left.rulesAt = right.rulesAt)
    (severityFor : ∀ id own, left.policy.severityFor id own = right.policy.severityFor id own)
    (tree : Tree) (sheet : WaiverSheet) : left.stop? tree sheet = right.stop? tree sheet := by
  funext cursor
  rw [stop?, stop?, brought, brought, rulesAt, bring_congr severityFor]

theorem stop?_eq_none_iff {cursor : Cursor} :
    engine.stop? tree sheet cursor = none ↔
      engine.breach? tree cursor = none ∧
        (engine.brought tree cursor).findings.any sheet.stuckOn = false := by
  unfold stop? breach?
  cases (engine.rulesAt cursor).findSome? (Rule.escape? tree cursor) with
  | some escape => simp
  | none =>
      rw [Option.none_or, ← findSome?_obstacle_brought]
      simp only [Outcome.findings, List.any_map, List.findSome?_eq_none_iff, List.any_eq_false,
        Function.comp_apply, ← forall_and]
      refine forall₂_congr fun proposal _ => ?_
      cases stuck : sheet.stuckOn proposal.finding <;> simp [WaiverSheet.refusal?, stuck]

theorem stop?_eq_path {cursor : Cursor} {error : RunError}
    (whole : engine.breach? tree cursor = none)
    (stopped : engine.stop? tree sheet cursor = some error) :
    error = .path ⟨sheet.path.typeName⟩ := by
  obtain ⟨told, seen⟩ := Option.or_eq_none_iff.mp whole
  rw [← findSome?_obstacle_brought] at seen
  rw [stop?, told] at stopped
  obtain ⟨proposal, proposed, refused⟩ := List.exists_of_findSome?_eq_some stopped
  rw [WaiverSheet.refusal?, List.findSome?_eq_none_iff.mp seen proposal proposed] at refused
  split at refused
  · exact (Option.some.inj refused).symm
  · cases refused

/-- With a path that is a text, the path is never at fault. -/
theorem stop?_text {path : String} (named : sheet.path = .text path) (cursor : Cursor) :
    engine.stop? tree sheet cursor = (engine.breach? tree cursor).map .escaped := by
  have refused : sheet.refusal? = fun proposal => proposal.obstacle.map .escaped := by
    funext proposal
    rw [WaiverSheet.refusal?, WaiverSheet.stuckOn_text named, if_neg Bool.false_ne_true]
  unfold stop? breach?
  cases (engine.rulesAt cursor).findSome? (Rule.escape? tree cursor) with
  | some escape => rfl
  | none =>
      rw [Option.none_or, ← findSome?_obstacle_brought, refused, List.map_findSome?]
      rfl

theorem any_findings_outcome (test : Finding → Bool) (cursors : List Cursor) :
    (engine.outcome tree cursors).findings.any test =
      cursors.any fun cursor => (engine.brought tree cursor).findings.any test := by
  rw [outcome, Outcome.findings_concat, List.flatMap_map, List.any_flatMap]

end Engine

namespace Run

/-! ## What a part of a run takes in -/

/-- Between two points a run has taken in the outcome of a number of nodes, and nothing else. -/
structure Took (sheet : WaiverSheet) (outcome : Outcome) (count : Nat) (before after : Run) :
    Prop where
  engine : after.engine = before.engine
  tree : after.tree = before.tree
  visited : after.visited = before.visited + count
  ledger : ∀ findings faults, before.ledger = .recording findings faults →
    after.ledger = .recording (findings ++ outcome.findings.map sheet.mark)
      (faults ++ outcome.faults)

namespace Took

variable {sheet : WaiverSheet}

theorem refl (sheet : WaiverSheet) (run : Run) : Took sheet .empty 0 run run :=
  ⟨rfl, rfl, rfl, fun findings faults recorded => by
    rw [Outcome.findings_empty, List.map_nil, List.append_nil, recorded]
    simp [Outcome.empty]⟩

theorem of_enter {outcome : Outcome} {count : Nat} {before after : Run} {phase : Phase}
    (took : Took sheet outcome count (before.enter phase) after) :
    Took sheet outcome count before after :=
  ⟨by simpa using took.engine, by simpa using took.tree, by simpa using took.visited,
    fun findings faults recorded => took.ledger findings faults (by simpa using recorded)⟩

theorem then_enter {outcome : Outcome} {count : Nat} {before after : Run}
    (took : Took sheet outcome count before after) (phase : Phase) :
    Took sheet outcome count before (after.enter phase) :=
  ⟨by simpa using took.engine, by simpa using took.tree, by simpa using took.visited,
    fun findings faults recorded => by simpa using took.ledger findings faults recorded⟩

theorem trans {first second : Outcome} {count more : Nat} {before middle after : Run}
    (left : Took sheet first count before middle) (right : Took sheet second more middle after) :
    Took sheet (first.append second) (count + more) before after := by
  refine ⟨right.engine.trans left.engine, right.tree.trans left.tree, ?_, ?_⟩
  · rw [right.visited, left.visited, Nat.add_assoc]
  · intro findings faults recorded
    rw [right.ledger _ _ (left.ledger findings faults recorded), Outcome.findings_append,
      List.map_append, List.append_assoc, List.append_assoc]
    rfl

end Took

section Node

variable {engine : Engine} {tree : Tree} {sheet : WaiverSheet} {cursor : Cursor}

theorem collect_passed (going : engine.stop? tree sheet cursor = none) (run : Run) :
    (run.collect sheet (engine.dispatch tree cursor)).result = .ok () ∧
      Took sheet (engine.brought tree cursor) 1 run
        (run.collect sheet (engine.dispatch tree cursor)).run := by
  unfold Engine.stop? at going
  rw [engine.dispatch_eq]
  cases untold : (engine.rulesAt cursor).findSome? (Rule.escape? tree cursor) with
  | some escape => simp [untold] at going
  | none =>
      rw [untold] at going
      simp only [collect, WaiverSheet.enterProposals_eq, going, true_and]
      refine ⟨enter_engine run _, enter_tree run _, ?_, ?_⟩
      · rw [enter_visited]
      · intro findings faults recorded
        rw [enter_ledger, recorded, Ledger.foldl_addFault_recording, Ledger.foldl_add_recording]
        rfl

theorem collect_stopped {error : RunError} (stopped : engine.stop? tree sheet cursor = some error)
    (run : Run) : (run.collect sheet (engine.dispatch tree cursor)).result = .error error := by
  unfold Engine.stop? at stopped
  rw [engine.dispatch_eq]
  cases untold : (engine.rulesAt cursor).findSome? (Rule.escape? tree cursor) with
  | some escape =>
      rw [untold] at stopped
      cases stopped
      rfl
  | none =>
      rw [untold] at stopped
      simp only [collect, WaiverSheet.enterProposals_eq, stopped]

end Node

/-! ## One node after the other -/

/-- As long as it gets past each node, a run takes in the nodes up to the one that stops it. -/
theorem traverse_passed (sheet : WaiverSheet) (signal : Signal) (asked : Nat) (run : Run)
    (cursors : List Cursor)
    (going : (admitted signal asked cursors).findSome? (run.engine.stop? run.tree sheet) = none) :
    (run.traverse sheet signal asked cursors).result =
        .ok ((admitted signal asked cursors).length == cursors.length) ∧
      Took sheet (run.engine.outcome run.tree (admitted signal asked cursors))
        (admitted signal asked cursors).length run
        (run.traverse sheet signal asked cursors).run := by
  induction cursors generalizing asked run with
  | nil => exact ⟨rfl, .refl sheet run⟩
  | cons cursor rest ih =>
      by_cases stopped : signal asked = true
      · simp only [traverse, admitted, stopped, ↓reduceIte]
        exact ⟨rfl, .refl sheet run⟩
      · simp only [admitted, stopped, Bool.false_eq_true, ↓reduceIte] at going ⊢
        rw [List.findSome?_cons] at going
        cases here : run.engine.stop? run.tree sheet cursor with
        | some error => simp [here] at going
        | none =>
            rw [here] at going
            obtain ⟨collected, step⟩ := collect_passed here (run.enter .dispatching)
            have taken := step.of_enter.then_enter .traversing
            have sameDispatch : (run.enter .dispatching).dispatch cursor =
                run.engine.dispatch run.tree cursor := congrFun (enter_dispatch run _) cursor
            simp only [traverse, stopped, Bool.false_eq_true, ↓reduceIte, sameDispatch, collected]
            -- Of the run after this node only what it took matters for the rest.
            generalize (Run.collect sheet (run.enter .dispatching)
              (run.engine.dispatch run.tree cursor)).run.enter .traversing = middle at taken ⊢
            have later := ih (asked + 1) middle
            rw [taken.engine, taken.tree] at later
            obtain ⟨result, later⟩ := later going
            refine ⟨?_, ?_⟩
            · rw [result]
              simp
            · have whole := taken.trans later
              rwa [Nat.add_comm 1] at whole

theorem traverse_stopped (sheet : WaiverSheet) (signal : Signal) (asked : Nat) (run : Run)
    (cursors : List Cursor) {error : RunError}
    (ended : (admitted signal asked cursors).findSome? (run.engine.stop? run.tree sheet) =
      some error) :
    (run.traverse sheet signal asked cursors).result = .error error := by
  induction cursors generalizing asked run with
  | nil => cases ended
  | cons cursor rest ih =>
      by_cases stopped : signal asked = true
      · simp only [admitted, stopped, ↓reduceIte] at ended
        cases ended
      · simp only [admitted, stopped, Bool.false_eq_true, ↓reduceIte] at ended
        rw [List.findSome?_cons] at ended
        have sameDispatch : (run.enter .dispatching).dispatch cursor =
            run.engine.dispatch run.tree cursor := congrFun (enter_dispatch run _) cursor
        cases here : run.engine.stop? run.tree sheet cursor with
        | some own =>
            rw [here] at ended
            cases ended
            have failed := collect_stopped here (run.enter .dispatching)
            simp only [traverse, stopped, Bool.false_eq_true, ↓reduceIte, sameDispatch, failed]
        | none =>
            -- The node is collected, and the one that ends the run lies further on.
            rw [here] at ended
            obtain ⟨collected, step⟩ := collect_passed here (run.enter .dispatching)
            have taken := step.of_enter.then_enter .traversing
            simp only [traverse, stopped, Bool.false_eq_true, ↓reduceIte, sameDispatch, collected]
            generalize (Run.collect sheet (run.enter .dispatching)
              (run.engine.dispatch run.tree cursor)).run.enter .traversing = middle at taken ⊢
            have later := ih (asked + 1) middle
            rw [taken.engine, taken.tree] at later
            exact later ended

/-! ## Whole runs -/

/-- A run that has not begun reports what its ledger holds once it has taken its nodes, and is done
then. -/
theorem execute_taken (engine : Engine) (tree : Tree) (signal : Signal) :
    ((start engine tree).execute signal).result =
        (((start engine tree).enter .traversing).traverseAll (engine.sheet tree) signal).result.map
          (fun complete =>
            let taken :=
              ((start engine tree).enter .traversing).traverseAll (engine.sheet tree) signal
            taken.run.ledger.report taken.run.tree.path complete) ∧
      ((start engine tree).execute signal).run =
        let taken := ((start engine tree).enter .traversing).traverseAll (engine.sheet tree) signal
        match taken.result with
        | .ok _ => taken.run.enter .done
        | .error _ => taken.run := by
  have sheet_eq : engine.sheet tree =
      (WaiverSheet.ofTree (start engine tree).tree (start engine tree).engine.policy).1 := rfl
  rw [execute, if_neg (by simp [start]), sheet_eq]
  generalize WaiverSheet.ofTree (start engine tree).tree (start engine tree).engine.policy = opened
  obtain ⟨sheet, journal⟩ := opened
  dsimp only
  split
  next error failed =>
    rw [failed]
    exact ⟨rfl, rfl⟩
  next complete passed =>
    rw [passed]
    simp [finish, Except.map]

/-- The result of a run, for any number of workers and any signal. -/
theorem execute_result (engine : Engine) (tree : Tree) (signal : Signal) :
    ((start engine tree).execute signal).result =
      match (tree.upTo signal).findSome? (engine.stop? tree (engine.sheet tree)) with
      | some error => .error error
      | none =>
          .ok ((engine.sheet tree).reportOn (engine.outcome tree (tree.upTo signal))
            ((tree.upTo signal).length == tree.walk.length)) := by
  have inline := traverseAll_alike_traverse (engine.sheet tree) signal
    (Alike.refl ((start engine tree).enter .traversing))
  have opened : (start engine tree).enter .traversing =
      ⟨engine, tree, .traversing, [.idle, .traversing], 0, .empty⟩ := rfl
  rw [(execute_taken engine tree signal).1]
  rw [opened] at inline ⊢
  split
  next error ended =>
    rw [inline.result, traverse_stopped _ _ _ _ _ ended]
    rfl
  next going =>
    obtain ⟨result, took⟩ := traverse_passed (engine.sheet tree) signal 0
      ⟨engine, tree, .traversing, [.idle, .traversing], 0, .empty⟩ tree.walk going
    rw [inline.result, result]
    simp only [Except.map, inline.run.ledger, inline.run.tree, took.ledger [] [] rfl, took.tree,
      List.nil_append]
    rfl

/-- A run has a report exactly when no rule breaks it and the waivers can decide on all findings. -/
theorem execute_eq_ok_iff {engine : Engine} {tree : Tree} {signal : Signal} {report : Report} :
    ((start engine tree).execute signal).result = .ok report ↔
      ¬ engine.Breaks tree (tree.upTo signal) ∧
        (engine.outcome tree (tree.upTo signal)).findings.any (engine.sheet tree).stuckOn = false ∧
        (engine.sheet tree).reportOn (engine.outcome tree (tree.upTo signal))
          ((tree.upTo signal).length == tree.walk.length) = report := by
  have going : (tree.upTo signal).findSome? (engine.stop? tree (engine.sheet tree)) = none ↔
      ¬ engine.Breaks tree (tree.upTo signal) ∧
        (engine.outcome tree (tree.upTo signal)).findings.any
          (engine.sheet tree).stuckOn = false := by
    simp only [List.findSome?_eq_none_iff, Engine.stop?_eq_none_iff, Engine.not_breaks_iff,
      Engine.any_findings_outcome, List.any_eq_false, Bool.not_eq_true, forall_and]
  rw [execute_result, ← and_assoc, ← going]
  cases (tree.upTo signal).findSome? (engine.stop? tree (engine.sheet tree)) with
  | some error => simp
  | none => simp

/-- Without a rule that breaks a run, the path alone can keep it from a report. -/
theorem execute_unbroken {engine : Engine} {tree : Tree} {signal : Signal}
    (whole : ¬ engine.Breaks tree (tree.upTo signal)) :
    ((start engine tree).execute signal).result =
      if (engine.outcome tree (tree.upTo signal)).findings.any (engine.sheet tree).stuckOn then
        .error (.path ⟨tree.path.typeName⟩)
      else
        .ok ((engine.sheet tree).reportOn (engine.outcome tree (tree.upTo signal))
          ((tree.upTo signal).length == tree.walk.length)) := by
  cases ended : (tree.upTo signal).findSome? (engine.stop? tree (engine.sheet tree)) with
  | some error =>
      obtain ⟨cursor, visited, stopped⟩ := List.exists_of_findSome?_eq_some ended
      have sound := Engine.not_breaks_iff.mp whole cursor visited
      have failed : ((start engine tree).execute signal).result = .error error := by
        rw [execute_result, ended]
      have stuck : (engine.outcome tree (tree.upTo signal)).findings.any
          (engine.sheet tree).stuckOn = true := by
        by_contra free
        have reported := execute_eq_ok_iff.mpr ⟨whole, Bool.eq_false_of_not_eq_true free, rfl⟩
        rw [failed] at reported
        cases reported
      rw [failed, if_pos stuck, Engine.stop?_eq_path sound stopped, Engine.sheet_path]
  | none =>
      have reported := execute_result engine tree signal
      rw [ended] at reported
      obtain ⟨_, free, _⟩ := execute_eq_ok_iff.mp reported
      rw [reported, free, if_neg Bool.false_ne_true]

theorem execute_unbroken_text {engine : Engine} {tree : Tree} {path : String}
    (named : tree.path = .text path) {signal : Signal}
    (whole : ¬ engine.Breaks tree (tree.upTo signal)) :
    ((start engine tree).execute signal).result =
      .ok ((engine.sheet tree).reportOn (engine.outcome tree (tree.upTo signal))
        ((tree.upTo signal).length == tree.walk.length)) := by
  refine execute_eq_ok_iff.mpr ⟨whole, List.any_eq_false.mpr fun finding _ => ?_, rfl⟩
  rw [WaiverSheet.stuckOn_text ((engine.sheet_path tree).trans named)]
  exact Bool.false_ne_true

theorem execute_reports_iff {engine : Engine} {tree : Tree} {path : String}
    (named : tree.path = .text path) {signal : Signal} :
    (∃ report, ((start engine tree).execute signal).result = .ok report) ↔
      ¬ engine.Breaks tree (tree.upTo signal) := by
  constructor
  · rintro ⟨report, passed⟩
    exact (execute_eq_ok_iff.mp passed).1
  · intro whole
    exact ⟨_, execute_unbroken_text named whole⟩

/-- Over a path that is a text, a run fails with the first breach there is. -/
theorem execute_text {engine : Engine} {tree : Tree} {path : String}
    (named : tree.path = .text path) (signal : Signal) :
    ((start engine tree).execute signal).result =
      match (tree.upTo signal).findSome? (engine.breach? tree) with
      | some escape => .error (.escaped escape)
      | none =>
          .ok ((engine.sheet tree).reportOn (engine.outcome tree (tree.upTo signal))
            ((tree.upTo signal).length == tree.walk.length)) := by
  have stops : engine.stop? tree (engine.sheet tree) =
      fun cursor => (engine.breach? tree cursor).map .escaped :=
    funext (Engine.stop?_text ((engine.sheet_path tree).trans named))
  have first : (tree.upTo signal).findSome? (engine.stop? tree (engine.sheet tree)) =
      ((tree.upTo signal).findSome? (engine.breach? tree)).map .escaped := by
    rw [stops, List.map_findSome?]
    rfl
  rw [execute_result, first]
  cases (tree.upTo signal).findSome? (engine.breach? tree) <;> rfl

theorem execute_broken {engine : Engine} {tree : Tree} {path : String}
    (named : tree.path = .text path) {signal : Signal}
    (broken : engine.Breaks tree (tree.upTo signal)) :
    ∃ cursor ∈ tree.upTo signal, ∃ rule ∈ engine.rulesAt cursor, ∃ escape,
      rule.BreaksWith tree cursor escape ∧
        ((start engine tree).execute signal).result = .error (.escaped escape) := by
  have result := @execute_text engine tree path named signal
  cases first : (tree.upTo signal).findSome? (engine.breach? tree) with
  | none =>
      exact absurd broken (Engine.not_breaks_iff.mpr (List.findSome?_eq_none_iff.mp first))
  | some escape =>
      rw [first] at result
      obtain ⟨cursor, visited, breach⟩ := List.exists_of_findSome?_eq_some first
      obtain ⟨rule, asked, own⟩ := Engine.breaksWith_of_breach? breach
      exact ⟨cursor, visited, rule, asked, escape, own, result⟩

/-- What breaks a run is a matter of the rules that are asked. -/
theorem execute_broken_congr {left right : Engine} (rulesAt : right.rulesAt = left.rulesAt)
    {tree : Tree} {path : String} (named : tree.path = .text path) {signal : Signal}
    (broken : left.Breaks tree (tree.upTo signal)) :
    ∃ escape, ((start left tree).execute signal).result = .error (.escaped escape) ∧
      ((start right tree).execute signal).result = .error (.escaped escape) := by
  obtain ⟨_, _, _, _, escape, _, failed⟩ := execute_broken named broken
  refine ⟨escape, failed, ?_⟩
  rw [execute_text named] at failed ⊢
  rw [Engine.breach?_congr rulesAt]
  split at failed
  · exact failed
  · cases failed

/-! ## The number of workers -/

/-- However many workers there are, a run ends with the result of a single one and has visited as
many nodes, whatever its signal answers. Over a path that is a text, the result is a report exactly
when no rule breaks the run. -/
theorem execute_workers {catalogue : Catalogue} {policy : Policy} {single : Engine}
    (created : (Engine.create catalogue policy 1).1 = .ok single) {workers : Int}
    (several : 2 ≤ workers) :
    ∃ parallel : Engine, (Engine.create catalogue policy workers).1 = .ok parallel ∧
      parallel.workers = workers.toNat ∧
      ∀ (tree : Tree) (signal : Signal),
        ((start parallel tree).execute signal).result =
            ((start single tree).execute signal).result ∧
          ((start parallel tree).execute signal).run.visited =
            ((start single tree).execute signal).run.visited ∧
          ∀ path, tree.path = .text path →
            ((∃ report, ((start parallel tree).execute signal).result = .ok report) ↔
              ¬ parallel.Breaks tree (tree.upTo signal)) := by
  obtain ⟨_, fits, enabled, rfl⟩ := Engine.create_eq_ok_iff.mp created
  refine ⟨⟨catalogue.sealed, policy, workers.toNat⟩,
    Engine.create_eq_ok_iff.mpr ⟨by omega, fits, enabled, rfl⟩, rfl, fun tree signal => ?_⟩
  have begun : Alike (start ⟨catalogue.sealed, policy, workers.toNat⟩ tree)
      (start ⟨catalogue.sealed, policy, (1 : Int).toNat⟩ tree) := ⟨rfl, rfl, rfl, rfl, rfl⟩
  have ended := begun.execute rfl signal
  exact ⟨ended.result, ended.run.visited, fun path named => execute_reports_iff named⟩

theorem execute_workers_standard :
    (Engine.create Catalogue.standard .neutral 1).1 = .ok ⟨Catalogue.standard, .neutral, 1⟩ ∧
      ∃ parallel : Engine, (Engine.create Catalogue.standard .neutral 3).1 = .ok parallel ∧
        parallel.workers = 3 ∧
        ∀ (tree : Tree) (signal : Signal),
          ((start parallel tree).execute signal).result =
              ((start ⟨Catalogue.standard, .neutral, 1⟩ tree).execute signal).result ∧
            ((start parallel tree).execute signal).run.visited =
              ((start ⟨Catalogue.standard, .neutral, 1⟩ tree).execute signal).run.visited ∧
            ∀ path, tree.path = .text path →
              ((∃ report, ((start parallel tree).execute signal).result = .ok report) ↔
                ¬ parallel.Breaks tree (tree.upTo signal)) :=
  ⟨Engine.create_standard, execute_workers Engine.create_standard (by decide)⟩

end Run

end TreeLint
