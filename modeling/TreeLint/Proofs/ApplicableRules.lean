import TreeLint.Proofs.CatalogueHistory
import TreeLint.Proofs.DispatchProperties
import TreeLint.Proofs.RuleFailures

/-!
# Which rules are evaluated at a node

What is evaluated at a node shows when the rules are given other evaluations: the outcome of
dispatch is then made up of these, one after the other, and of nothing else. The rules for nodes
that are evaluated are those that the catalogue calls applicable. The rules for whole trees are
evaluated at the root even when it is not of their kinds, and then the catalogue does not list them.
-/

set_option autoImplicit false

namespace TreeLint

/-! ## Rules that concern a node -/

namespace Rule

/-- Whether the rule answers that a node concerns it. -/
def concernedBy (cursor : Cursor) (rule : Rule) : Bool :=
  match rule.applies cursor with
  | .ok concerned => concerned
  | .error _ => false

theorem concernedBy_iff {cursor : Cursor} {rule : Rule} :
    rule.concernedBy cursor = true ↔ rule.applies cursor = .ok true := by
  unfold concernedBy
  cases rule.applies cursor with
  | error failure => simp
  | ok concerned => simp

theorem applies_eq_concernedBy {cursor : Cursor} {rule : Rule}
    (answers : ∃ concerned, rule.applies cursor = .ok concerned) :
    rule.applies cursor = .ok (rule.concernedBy cursor) := by
  obtain ⟨concerned, answer⟩ := answers
  rw [concernedBy, answer]

end Rule

/-- Where every rule answers, the applicable rules of a scope are those that answer yes. -/
theorem Catalogue.Sound.applicable_eq_ok {catalogue : Catalogue} (sound : catalogue.Sound)
    {cursor : Cursor}
    (answers : ∀ rule ∈ catalogue.rules, ∃ concerned, rule.applies cursor = .ok concerned)
    (scope : Scope) :
    catalogue.applicable cursor (some scope) =
      .ok (catalogue.rules.filter fun rule =>
        rule.concernedBy cursor && (rule.scope == scope && rule.isFor cursor.node.kind)) := by
  rw [applicable, sound.rulesFor, List.filter_filter]
  refine (filterM_eq_ok fun rule member =>
    Rule.applies_eq_concernedBy (answers rule (List.mem_of_mem_filter member))).trans ?_
  rw [List.filter_filter]
  rfl

/-! ## Rules with other evaluations -/

/-- What rules do when they are evaluated. -/
abbrev Evaluation := Rule → Cursor → Tree → Except Failure (List Candidate)

def Rule.evaluatedBy (evaluation : Evaluation) (rule : Rule) : Rule :=
  { rule with evaluate := evaluation rule }

def Catalogue.evaluatedBy (evaluation : Evaluation) (catalogue : Catalogue) : Catalogue :=
  close ⟨catalogue.rules.map (Rule.evaluatedBy evaluation), none⟩

theorem Catalogue.sealed_isClosed (catalogue : Catalogue) : catalogue.sealed.isClosed = true := by
  unfold Catalogue.sealed
  split
  next closed => exact closed
  next => rfl

theorem Catalogue.Sound.evaluatedBy {catalogue : Catalogue} (sound : catalogue.Sound)
    (evaluation : Evaluation) : (catalogue.evaluatedBy evaluation).Sound := by
  have ids : (catalogue.evaluatedBy evaluation).ids = catalogue.ids := by
    rw [Catalogue.ids, Catalogue.evaluatedBy, Catalogue.close, List.map_map]
    rfl
  refine ⟨?_, ?_, .inr rfl⟩
  · rw [ids]
    exact sound.unique
  · rw [ids]
    exact sound.named

namespace Engine

def evaluatedBy (evaluation : Evaluation) (engine : Engine) : Engine :=
  { engine with catalogue := engine.catalogue.evaluatedBy evaluation }

theorem evaluatedBy_own {engine : Engine} (sound : engine.catalogue.Sound)
    (closed : engine.catalogue.isClosed = true) :
    engine.evaluatedBy (fun rule => rule.evaluate) = engine := by
  have own : engine.catalogue.evaluatedBy (fun rule => rule.evaluate) = engine.catalogue := by
    have same : engine.catalogue.rules.map (Rule.evaluatedBy fun rule => rule.evaluate) =
        engine.catalogue.rules := List.map_id _
    rw [Catalogue.evaluatedBy, same]
    exact sound.close_eq closed
  rw [evaluatedBy, own]

/-- What comes of an evaluation of a rule at a node. -/
def settle (engine : Engine) (tree : Tree) (cursor : Cursor) (rule : Rule) :
    Except Failure (List Candidate) → Except Escape Outcome
  | .error failure => failure.detail.map (Outcome.fault rule cursor.node failure.kind)
  | .ok found => .ok (Outcome.concat (found.map (engine.judge tree rule cursor.node)))

/-- Just these rules are evaluated at a node, in this order: whatever evaluations do, the outcome is
what comes of those of these rules. -/
def Evaluates (engine : Engine) (tree : Tree) (cursor : Cursor) (rules : List Rule) : Prop :=
  ∀ evaluation : Evaluation,
    (engine.evaluatedBy evaluation).dispatch tree cursor =
      Outcome.gather (rules.map fun rule =>
        engine.settle tree cursor rule (evaluation rule cursor tree))

theorem rulesAt_evaluatedBy {engine : Engine} (sound : engine.catalogue.Sound)
    (evaluation : Evaluation) (cursor : Cursor) :
    (engine.evaluatedBy evaluation).rulesAt cursor =
      (engine.rulesAt cursor).map (Rule.evaluatedBy evaluation) := by
  have otherSound : (engine.evaluatedBy evaluation).catalogue.Sound := sound.evaluatedBy evaluation
  have rules : (engine.evaluatedBy evaluation).catalogue.rules =
      engine.catalogue.rules.map (Rule.evaluatedBy evaluation) := rfl
  rw [rulesAt_eq otherSound, rulesAt_eq sound, rules, List.filter_map, List.map_append]
  refine congrArg _ ?_
  split
  · rw [List.filter_map]
    rfl
  · rfl

theorem invoke_evaluatedBy (engine : Engine) (evaluation : Evaluation) (tree : Tree)
    {cursor : Cursor} {rule : Rule} (answers : ∃ concerned, rule.applies cursor = .ok concerned) :
    (engine.evaluatedBy evaluation).invoke tree cursor (rule.evaluatedBy evaluation) =
      if rule.concernedBy cursor then
        engine.settle tree cursor rule (evaluation rule cursor tree)
      else .ok .empty := by
  have answer : (rule.evaluatedBy evaluation).applies cursor = .ok (rule.concernedBy cursor) :=
    Rule.applies_eq_concernedBy answers
  have evaluate : (rule.evaluatedBy evaluation).evaluate = evaluation rule := rfl
  rw [invoke, candidates, answer, evaluate]
  cases rule.concernedBy cursor with
  | false => rfl
  | true => cases evaluation rule cursor tree <;> rfl

end Engine

theorem Outcome.gather_map_ite {α : Type} (test : α → Bool) (outcome : α → Except Escape Outcome)
    (items : List α) :
    gather (items.map fun item => if test item then outcome item else .ok empty) =
      gather ((items.filter test).map outcome) := by
  induction items with
  | nil => rfl
  | cons item rest ih =>
      by_cases taken : test item = true
      · rw [List.map_cons, if_pos taken, List.filter_cons_of_pos taken, List.map_cons]
        cases outcome item with
        | error escape => rfl
        | ok own => rw [gather, gather, ih]
      · rw [List.map_cons, if_neg taken, List.filter_cons_of_neg taken, ← ih, gather]
        cases gather (rest.map fun item => if test item then outcome item else .ok empty) <;> rfl

namespace Engine

/-! ## The rules that are evaluated -/

/-- Of the rules that are asked about a node, those that it concerns are evaluated. -/
theorem evaluates_rulesAt {engine : Engine} (sound : engine.catalogue.Sound) (tree : Tree)
    {cursor : Cursor}
    (answers : ∀ rule ∈ engine.catalogue.rules, ∃ concerned, rule.applies cursor = .ok concerned) :
    engine.Evaluates tree cursor ((engine.rulesAt cursor).filter (Rule.concernedBy cursor)) := by
  intro evaluation
  rw [dispatch, rulesAt_evaluatedBy sound, List.map_map, ← Outcome.gather_map_ite]
  refine congrArg _ (List.map_congr_left fun rule asked => ?_)
  exact engine.invoke_evaluatedBy evaluation tree (answers rule ((mem_rulesAt sound).mp asked).1)

theorem errorTypes_settle (engine : Engine) (tree : Tree) (cursor : Cursor) (mark : Rule → String)
    (rules : List Rule) :
    ∃ outcome, Outcome.gather (rules.map fun rule =>
        engine.settle tree cursor rule (.error ⟨mark rule, .ok "", .ok ""⟩)) = .ok outcome ∧
      outcome.faults.map Fault.errorType = rules.map mark := by
  induction rules with
  | nil => exact ⟨.empty, rfl, rfl⟩
  | cons rule rest ih =>
      obtain ⟨outcome, gathered, marks⟩ := ih
      refine ⟨(Outcome.fault rule cursor.node (mark rule) "").append outcome, ?_, ?_⟩
      · have told : engine.settle tree cursor rule (.error ⟨mark rule, .ok "", .ok ""⟩) =
            .ok (Outcome.fault rule cursor.node (mark rule) "") := rfl
        rw [List.map_cons, told, Outcome.gather, gathered]
        rfl
      · rw [List.map_cons, ← marks]
        rfl

/-- Evaluations that fail, each in a way of its own, tell which rules are evaluated. -/
theorem Evaluates.unique {engine : Engine} {tree : Tree} {cursor : Cursor} {left right : List Rule}
    (leftEvaluated : engine.Evaluates tree cursor left)
    (rightEvaluated : engine.Evaluates tree cursor right) : left = right := by
  have marked : ∀ mark : Rule → String, left.map mark = right.map mark := by
    intro mark
    have same := (leftEvaluated fun rule _ _ => .error ⟨mark rule, .ok "", .ok ""⟩).symm.trans
      (rightEvaluated fun rule _ _ => .error ⟨mark rule, .ok "", .ok ""⟩)
    obtain ⟨leftOutcome, leftGathered, leftMarks⟩ :=
      engine.errorTypes_settle tree cursor mark left
    obtain ⟨rightOutcome, rightGathered, rightMarks⟩ :=
      engine.errorTypes_settle tree cursor mark right
    rw [leftGathered, rightGathered] at same
    rw [← leftMarks, ← rightMarks, Except.ok.inj same]
  clear leftEvaluated rightEvaluated
  induction left generalizing right with
  | nil => exact (List.map_eq_nil_iff.mp (marked (·.id)).symm).symm
  | cons rule rest ih =>
      cases right with
      | nil => cases marked (·.id)
      | cons other others =>
          have heads : other = rule := by
            classical
            have told := (List.cons.inj (marked fun asked =>
              if asked = rule then "first" else "another")).1
            by_contra different
            simp [different] at told
          rw [heads, ih fun mark => (List.cons.inj (marked mark)).2]

theorem filter_concernedBy_rulesAt {engine : Engine} (sound : engine.catalogue.Sound)
    (cursor : Cursor) :
    (engine.rulesAt cursor).filter (Rule.concernedBy cursor) =
      (engine.catalogue.rules.filter fun rule =>
          rule.concernedBy cursor && (rule.scope == .node && rule.isFor cursor.node.kind)).filter
        engine.enables ++
        if cursor.isRoot then
          engine.enabledRules.filter fun rule => rule.scope == .tree && rule.concernedBy cursor
        else [] := by
  rw [filter_rulesAt sound, enabledRules]
  refine congrArg₂ _ ?_ ?_
  · rw [List.filter_filter, List.filter_filter]
    refine List.filter_congr fun rule _ => ?_
    rw [asksOfNode]
    ac_rfl
  · split
    · rw [List.filter_filter, List.filter_filter]
      refine List.filter_congr fun rule _ => ?_
      rw [asksOfTree]
      ac_rfl
    · rfl

/-- The catalogue calls applicable at the root those of its evaluated tree rules that are for the
kind of the root. -/
theorem filter_enables_applicable (engine : Engine) (cursor : Cursor) :
    (engine.catalogue.rules.filter fun rule =>
        rule.concernedBy cursor && (rule.scope == .tree && rule.isFor cursor.node.kind)).filter
        engine.enables =
      (engine.enabledRules.filter fun rule =>
        rule.scope == .tree && rule.concernedBy cursor).filter
          fun rule => rule.isFor cursor.node.kind := by
  rw [enabledRules, List.filter_filter, List.filter_filter, List.filter_filter]
  refine List.filter_congr fun rule _ => ?_
  ac_rfl

/-- The evaluated rules are the applicable ones that are enabled, except that the rules for whole
trees are evaluated at the root whatever kind it has. So the catalogue and the engine agree about a
node exactly unless it is a root outside the kinds of such a rule. -/
theorem evaluates_applicable_iff {catalogue : Catalogue} {policy : Policy} {workers : Int}
    {engine : Engine} (reachable : catalogue.Reachable)
    (created : (create catalogue policy workers).1 = .ok engine) (tree : Tree) {cursor : Cursor}
    (answers : ∀ rule ∈ catalogue.rules, ∃ concerned, rule.applies cursor = .ok concerned) :
    ∃ ofNode ofTree, engine.catalogue.applicable cursor (some .node) = .ok ofNode ∧
      engine.catalogue.applicable cursor (some .tree) = .ok ofTree ∧
      engine.Evaluates tree cursor (ofNode.filter engine.enables ++
        if cursor.isRoot then
          engine.enabledRules.filter fun rule => rule.scope == .tree && rule.concernedBy cursor
        else []) ∧
      engine.evaluatedBy (fun rule => rule.evaluate) = engine ∧
      (engine.Evaluates tree cursor (ofNode.filter engine.enables ++
          if cursor.isRoot then ofTree.filter engine.enables else []) ↔
        (cursor.isRoot = true → ∀ rule ∈ engine.enabledRules, rule.scope = .tree →
          rule.applies cursor = .ok true → rule.isFor cursor.node.kind = true)) ∧
      ∀ evaluated, engine.Evaluates tree cursor evaluated → ∀ rule ∈ evaluated,
        rule.isFor cursor.node.kind = true ∨ cursor.isRoot = true ∧ rule.scope = .tree := by
  obtain ⟨_, _, _, setUp⟩ := create_eq_ok_iff.mp created
  have rules : engine.catalogue.rules = catalogue.rules := by rw [setUp, Catalogue.sealed_rules]
  have sound : engine.catalogue.Sound := by
    rw [setUp]
    exact reachable.sound.sealed
  have closed : engine.catalogue.isClosed = true := by
    rw [setUp]
    exact catalogue.sealed_isClosed
  rw [← rules] at answers
  have evaluated := evaluates_rulesAt sound tree answers
  rw [filter_concernedBy_rulesAt sound] at evaluated
  refine ⟨_, _, sound.applicable_eq_ok answers .node, sound.applicable_eq_ok answers .tree,
    evaluated, evaluatedBy_own sound closed, ?_, ?_⟩
  · -- Only one list is evaluated, so agreement is equality of the two lists.
    have agree_iff {claimed actual : List Rule} (actually : engine.Evaluates tree cursor actual) :
        engine.Evaluates tree cursor claimed ↔ claimed = actual :=
      ⟨fun evaluates => evaluates.unique actually, fun same => same ▸ actually⟩
    rw [agree_iff evaluated, List.append_cancel_left_eq, filter_enables_applicable]
    cases cursor.isRoot with
    | false => simp
    | true =>
        rw [if_pos rfl, if_pos rfl, List.filter_eq_self]
        simp [Rule.concernedBy_iff]
  · intro others evaluates rule member
    rw [evaluates.unique evaluated, List.mem_append] at member
    rcases member with ofNode | ofTree
    · have fits := (List.mem_filter.mp (List.mem_of_mem_filter ofNode)).2
      simp only [Bool.and_eq_true] at fits
      exact .inl fits.2.2
    · split at ofTree
      next root =>
        have fits := (List.mem_filter.mp ofTree).2
        simp only [Bool.and_eq_true, beq_iff_eq] at fits
        exact .inr ⟨root, fits.1⟩
      next => cases ofTree

end Engine

/-! ## Roots that are files, and others -/

/-- A root of a kind, over two imports of one package. -/
def Tree.importing (kind : Kind) : Tree :=
  ⟨⟨kind, ⟨⟨1, 0, 0⟩, ⟨1, 9, 9⟩, by decide⟩, [],
    [⟨.importing, ⟨⟨1, 0, 0⟩, ⟨1, 3, 3⟩, by decide⟩, [("path", .text "fmt")], []⟩,
      ⟨.importing, ⟨⟨1, 5, 5⟩, ⟨1, 9, 9⟩, by decide⟩, [("path", .text "fmt")], []⟩]⟩,
    .text "a.go"⟩

theorem Catalogue.standard_answers_importing (kind : Kind) :
    ∀ rule ∈ standard.rules,
      ∃ concerned, rule.applies (Tree.importing kind).cursor = .ok concerned := by
  intro rule member
  simp only [standard, close, standardRules, List.mem_cons, List.not_mem_nil, or_false] at member
  rcases member with rfl | rfl | rfl | rfl | rfl <;> exact ⟨_, rfl⟩

namespace Engine

theorem evaluates_applicable_file :
    (create .standard .neutral 1).1 = .ok ⟨.standard, .neutral, 1⟩ ∧
      (∀ rule ∈ Catalogue.standard.rules,
        ∃ concerned, rule.applies (Tree.importing .file).cursor = .ok concerned) ∧
      ∃ ofNode ofTree,
        Catalogue.standard.applicable (Tree.importing .file).cursor (some .node) = .ok ofNode ∧
        Catalogue.standard.applicable (Tree.importing .file).cursor (some .tree) = .ok ofTree ∧
        Evaluates ⟨.standard, .neutral, 1⟩ (.importing .file) (Tree.importing .file).cursor
          (ofNode.filter (enables ⟨.standard, .neutral, 1⟩) ++
            ofTree.filter (enables ⟨.standard, .neutral, 1⟩)) := by
  have answers := Catalogue.standard_answers_importing .file
  obtain ⟨ofNode, ofTree, nodeListed, treeListed, _, _, agree, _⟩ :=
    evaluates_applicable_iff Catalogue.reachable_standard create_standard (.importing .file) answers
  refine ⟨create_standard, answers, ofNode, ofTree, nodeListed, treeListed, agree.mpr ?_⟩
  intro _ rule member whole _
  have standing : rule ∈ Catalogue.standardRules := List.mem_of_mem_filter member
  simp only [Catalogue.standardRules, List.mem_cons, List.not_mem_nil, or_false] at standing
  rcases standing with rfl | rfl | rfl | rfl | rfl
  · cases whole
  · cases whole
  · cases whole
  · cases whole
  · rfl

/-- At a root that is no file the rule on imports is evaluated, though it is for files only and the
catalogue calls no rule applicable. -/
theorem evaluates_repeatedImport_block :
    (create .standard .neutral 1).1 = .ok ⟨.standard, .neutral, 1⟩ ∧
      Catalogue.standard.applicable (Tree.importing .block).cursor (some .node) = .ok [] ∧
      Catalogue.standard.applicable (Tree.importing .block).cursor (some .tree) = .ok [] ∧
      RepeatedImport.rule.kinds = [.file] ∧
      Evaluates ⟨.standard, .neutral, 1⟩ (.importing .block) (Tree.importing .block).cursor
        [RepeatedImport.rule] ∧
      ¬ Evaluates ⟨.standard, .neutral, 1⟩ (.importing .block) (Tree.importing .block).cursor [] := by
  have evaluated : Evaluates ⟨.standard, .neutral, 1⟩ (.importing .block)
      (Tree.importing .block).cursor [RepeatedImport.rule] :=
    evaluates_rulesAt Catalogue.reachable_standard.sound (.importing .block)
      (Catalogue.standard_answers_importing .block)
  refine ⟨create_standard, rfl, rfl, rfl, evaluated, fun none => ?_⟩
  cases none.unique evaluated

end Engine

end TreeLint
