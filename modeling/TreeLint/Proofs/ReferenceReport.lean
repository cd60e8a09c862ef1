import TreeLint.Proofs.RunProperties
import TreeLint.Proofs.StableSort

/-!
# The report that a tree deserves

The report on a tree is described here without runs, ledgers and dispatch: by the invocations that
rules and nodes give rise to, by what each of them yields or how it fails, and by the waivers in
force. A run that nothing stops ends with the report so described, unless an invocation ends with an
error that nothing handles.
-/

set_option autoImplicit false

namespace TreeLint

/-! ## Invocations -/

/-- A rule asked about a node. -/
structure Invocation where
  rule : Rule
  cursor : Cursor

namespace Invocation

/-- The invocation goes through and has a candidate among what it gives. -/
def Yields (tree : Tree) (invocation : Invocation) (candidate : Candidate) : Prop :=
  invocation.rule.applies invocation.cursor = .ok true ∧
    ∃ candidates, invocation.rule.evaluate invocation.cursor tree = .ok candidates ∧
      candidate ∈ candidates

/-- The candidates of an invocation that goes through. -/
def candidates (tree : Tree) (invocation : Invocation) : List Candidate :=
  match invocation.rule.applies invocation.cursor, invocation.rule.evaluate invocation.cursor tree with
  | .ok true, .ok candidates => candidates
  | _, _ => []

/-- How an invocation fails, if it does. A rule that does not apply is not asked to evaluate. -/
def failure? (tree : Tree) (invocation : Invocation) : Option Failure :=
  match invocation.rule.applies invocation.cursor, invocation.rule.evaluate invocation.cursor tree with
  | .error failure, _ => some failure
  | .ok true, .error failure => some failure
  | _, _ => none

/-- A candidate that passes every check, as a finding of the severity that the policy asks for. -/
def accepted? (policy : Policy) (tree : Tree) (invocation : Invocation) (candidate : Candidate) :
    Option Finding :=
  (candidate.finding? invocation.rule.id tree.span).map fun finding =>
    { finding with
      severity := (policy.overrides.lookup invocation.rule.id).getD finding.severity }

def findings (policy : Policy) (tree : Tree) (invocation : Invocation) : List Finding :=
  (invocation.candidates tree).filterMap (invocation.accepted? policy tree)

def fault (invocation : Invocation) (errorType detail : String) : Fault :=
  ⟨invocation.rule.id, invocation.cursor.node.kind.name, some invocation.cursor.node.span,
    errorType, detail⟩

/-- The fault of a candidate, for the first check that it does not pass. -/
def rejected? (tree : Tree) (invocation : Invocation) (candidate : Candidate) : Option Fault :=
  (candidate.defects invocation.rule.id tree.span).head?.map fun rejection =>
    invocation.fault rejection.errorType rejection.detail

/-- One fault for a failure, else one for each candidate that is not accepted. -/
def faults (tree : Tree) (invocation : Invocation) : List Fault :=
  (invocation.failure? tree).toList.filterMap (fun failure =>
      failure.detail.toOption.map (invocation.fault failure.kind)) ++
    (invocation.candidates tree).filterMap (invocation.rejected? tree)

/-- The invocation ends with an error that nothing handles. -/
def BreaksWith (tree : Tree) (invocation : Invocation) (escape : Escape) : Prop :=
  invocation.rule.BreaksWith tree invocation.cursor escape

theorem candidates_of_failure? {tree : Tree} {invocation : Invocation} {failure : Failure}
    (failed : invocation.failure? tree = some failure) :
    Engine.candidates tree invocation.rule invocation.cursor = .error failure ∧
      invocation.candidates tree = [] := by
  unfold failure? at failed
  unfold Engine.candidates candidates
  split at failed <;> simp_all

theorem candidates_of_none {tree : Tree} {invocation : Invocation}
    (passed : invocation.failure? tree = none) :
    Engine.candidates tree invocation.rule invocation.cursor =
      .ok (invocation.candidates tree) := by
  unfold failure? at passed
  unfold Engine.candidates candidates
  cases applied : invocation.rule.applies invocation.cursor with
  | error failure => simp [applied] at passed
  | ok concerned =>
      cases concerned with
      | false => rfl
      | true =>
          cases evaluated : invocation.rule.evaluate invocation.cursor tree with
          | error failure => simp [applied, evaluated] at passed
          | ok found => rfl

theorem mem_candidates {tree : Tree} {invocation : Invocation} {candidate : Candidate} :
    candidate ∈ invocation.candidates tree ↔ invocation.Yields tree candidate := by
  unfold candidates Yields
  split
  next given applied evaluated => simp [applied, evaluated]
  next other =>
    simp only [List.not_mem_nil, false_iff, not_and, not_exists]
    intro applied found evaluated
    exact (other found applied evaluated).elim

end Invocation

namespace Reference

variable (rules : List Rule) (policy : Policy) (tree : Tree)

/-- The rules for nodes are asked about the nodes of their kinds; no kinds means all. -/
def nodeInvocations (cursor : Cursor) : List Invocation :=
  (rules.filter fun rule => rule.id ∉ policy.disabledRules ∧ rule.scope = .node ∧
    (rule.kinds = [] ∨ cursor.node.kind ∈ rule.kinds)).map fun rule => ⟨rule, cursor⟩

/-- The rules for whole trees are asked once, about the root. -/
def treeInvocations : List Invocation :=
  (rules.filter fun rule => rule.id ∉ policy.disabledRules ∧ rule.scope = .tree).map
    fun rule => ⟨rule, tree.cursor⟩

/-- All invocations, in the order in which they are dispatched. -/
def invocations : List Invocation :=
  nodeInvocations rules policy tree.cursor ++ treeInvocations rules policy tree ++
    tree.walk.tail.flatMap (nodeInvocations rules policy)

/-- Some invocation ends with an error that nothing handles. -/
def Breaks : Prop :=
  ∃ invocation ∈ invocations rules policy tree, ∃ escape, invocation.BreaksWith tree escape

def proposals : List Finding :=
  (invocations rules policy tree).flatMap (Invocation.findings policy tree)

def failings : List Fault :=
  (invocations rules policy tree).flatMap (Invocation.faults tree)

/-- A directive or an exclusion in force covers the findings of a key. -/
def Waived (path : String) (key : FindingKey) : Prop :=
  ∃ waiver ∈ (WaiverSheet.ofTree tree policy).1.waivers, waiver.Covers path key

instance (path : String) : DecidablePred (Waived policy tree path) := fun _ =>
  inferInstanceAs (Decidable (∃ waiver ∈ _, _))

/-- The findings that are not waived, the first of each key, in the order of dispatch. -/
def remaining (path : String) : List Finding :=
  Finding.firsts ((proposals rules policy tree).filter fun finding =>
    ¬ Waived policy tree path finding.key)

/-- What a report on all nodes of a tree in the file of a path has to say. -/
structure Describes (path : String) (report : Report) : Prop where
  file : report.path = .text path
  complete : report.complete = true
  /-- A key is reported exactly when an invocation yields a fit candidate with it and it is not
  waived. -/
  reported : ∀ key, key ∈ report.findings.map Finding.key ↔
    (∃ invocation ∈ invocations rules policy tree, ∃ candidate, invocation.Yields tree candidate ∧
      ∃ finding, candidate.finding? invocation.rule.id tree.span = some finding ∧
        finding.key = key) ∧ ¬ Waived policy tree path key
  once : (report.findings.map Finding.key).Nodup
  /-- Of the findings with one key the first in the order of dispatch is reported. -/
  first : ∀ finding ∈ report.findings,
    (proposals rules policy tree).find? (fun other => other.key = finding.key) = some finding
  /-- The findings stand in their order, and those that tie in the order of dispatch. -/
  findings : report.findings = (remaining rules policy tree path).mergeSort Finding.inOrder
  ordered : report.findings.Pairwise fun left right => left.inOrder right = true
  /-- Each waived key counts once. -/
  suppressed : report.suppressedCount =
    (((proposals rules policy tree).map Finding.key).toFinset.filter
      (Waived policy tree path)).card
  unsuppressed : ∀ finding ∈ report.findings, ¬ Waived policy tree path finding.key ∧
    finding.suppressed = false
  /-- The faults stand in their order, and those that tie in the order of dispatch. -/
  faults : report.faults = (failings rules policy tree).mergeSort Fault.inOrder
  summary : ∀ severity, report.summary.count severity =
    (report.findings.filter fun finding => finding.severity = severity).length

variable {rules policy tree} in
theorem rule_mem_of_mem_invocations {invocation : Invocation}
    (asked : invocation ∈ invocations rules policy tree) : invocation.rule ∈ rules := by
  rcases List.mem_append.mp asked with atRoot | below
  · rcases List.mem_append.mp atRoot with ofNode | ofTree
    · obtain ⟨rule, chosen, rfl⟩ := List.mem_map.mp ofNode
      exact List.mem_of_mem_filter chosen
    · obtain ⟨rule, chosen, rfl⟩ := List.mem_map.mp ofTree
      exact List.mem_of_mem_filter chosen
  · obtain ⟨cursor, _, ofNode⟩ := List.mem_flatMap.mp below
    obtain ⟨rule, chosen, rfl⟩ := List.mem_map.mp ofNode
    exact List.mem_of_mem_filter chosen

theorem mem_map_key_proposals {key : FindingKey} :
    key ∈ (proposals rules policy tree).map Finding.key ↔
      ∃ invocation ∈ invocations rules policy tree, ∃ candidate,
        invocation.Yields tree candidate ∧
          ∃ finding, candidate.finding? invocation.rule.id tree.span = some finding ∧
            finding.key = key := by
  constructor
  · intro member
    obtain ⟨proposed, listed, sameKey⟩ := List.mem_map.mp member
    obtain ⟨invocation, asked, own⟩ := List.mem_flatMap.mp listed
    obtain ⟨candidate, given, fit⟩ := List.mem_filterMap.mp own
    obtain ⟨finding, stands, rfl⟩ := Option.map_eq_some_iff.mp fit
    exact ⟨invocation, asked, candidate, Invocation.mem_candidates.mp given, finding, stands,
      sameKey⟩
  · rintro ⟨invocation, asked, candidate, yielded, finding, stands, rfl⟩
    have given := Invocation.mem_candidates.mpr yielded
    have fit : invocation.accepted? policy tree candidate = some { finding with
        severity := (policy.overrides.lookup invocation.rule.id).getD finding.severity } := by
      rw [Invocation.accepted?, stands]
      rfl
    exact List.mem_map.mpr ⟨_,
      List.mem_flatMap.mpr ⟨invocation, asked, List.mem_filterMap.mpr ⟨candidate, given, fit⟩⟩, rfl⟩

end Reference

/-! ## Dispatch in terms of invocations -/

namespace Engine

variable (engine : Engine) (tree : Tree)

theorem findings_judge (rule : Rule) (cursor : Cursor) (candidate : Candidate) :
    (engine.judge tree rule cursor.node candidate).findings =
      (Invocation.accepted? engine.policy tree ⟨rule, cursor⟩ candidate).toList := by
  unfold judge Invocation.accepted?
  cases screened : candidate.screen rule.id tree.span with
  | ok proposal =>
      rw [(Candidate.screen_eq_ok_iff.mp screened).1]
      rfl
  | error rejection =>
      rw [Candidate.finding?_of_screen_error screened]
      rfl

theorem faults_judge (rule : Rule) (cursor : Cursor) (candidate : Candidate) :
    (engine.judge tree rule cursor.node candidate).faults =
      (Invocation.rejected? tree ⟨rule, cursor⟩ candidate).toList := by
  unfold judge Invocation.rejected?
  cases screened : candidate.screen rule.id tree.span with
  | ok proposal =>
      have sound : (candidate.defects rule.id tree.span).head? = none := by
        cases head : (candidate.defects rule.id tree.span).head? with
        | none => rfl
        | some rejection =>
            rw [Candidate.screen_eq_error_iff.mpr head] at screened
            cases screened
      rw [sound]
      rfl
  | error rejection =>
      rw [Candidate.screen_eq_error_iff.mp screened]
      rfl

theorem findings_bring (cursor : Cursor) (rule : Rule) :
    (engine.bring tree cursor rule).findings =
      Invocation.findings engine.policy tree ⟨rule, cursor⟩ := by
  rw [Invocation.findings]
  cases failed : Invocation.failure? tree ⟨rule, cursor⟩ with
  | some failure =>
      rw [engine.bring_of_error tree cursor (Invocation.candidates_of_failure? failed).1,
        (Invocation.candidates_of_failure? failed).2]
      cases failure.detail <;> rfl
  | none =>
      rw [engine.bring_of_ok tree cursor (Invocation.candidates_of_none failed)]
      simp only [Outcome.findings_concat, List.flatMap_map, findings_judge]
      rw [List.filterMap_eq_flatMap_toList]

theorem faults_bring (cursor : Cursor) (rule : Rule) :
    (engine.bring tree cursor rule).faults = Invocation.faults tree ⟨rule, cursor⟩ := by
  rw [Invocation.faults]
  cases failed : Invocation.failure? tree ⟨rule, cursor⟩ with
  | some failure =>
      rw [engine.bring_of_error tree cursor (Invocation.candidates_of_failure? failed).1,
        (Invocation.candidates_of_failure? failed).2]
      cases told : failure.detail <;> simp [told, Except.toOption] <;> rfl
  | none =>
      rw [engine.bring_of_ok tree cursor (Invocation.candidates_of_none failed)]
      simp only [Outcome.faults_concat, List.flatMap_map, faults_judge]
      rw [← List.filterMap_eq_flatMap_toList]
      rfl

def invocationsAt (cursor : Cursor) : List Invocation :=
  (engine.rulesAt cursor).map fun rule => ⟨rule, cursor⟩

theorem findings_outcome (cursors : List Cursor) :
    (engine.outcome tree cursors).findings =
      (cursors.flatMap engine.invocationsAt).flatMap (Invocation.findings engine.policy tree) := by
  simp only [outcome, brought, invocationsAt, Outcome.findings_concat, List.flatMap_map,
    findings_bring, List.flatMap_assoc]

theorem faults_outcome (cursors : List Cursor) :
    (engine.outcome tree cursors).faults =
      (cursors.flatMap engine.invocationsAt).flatMap (Invocation.faults tree) := by
  simp only [outcome, brought, invocationsAt, Outcome.faults_concat, List.flatMap_map,
    faults_bring, List.flatMap_assoc]

end Engine

/-! ## The nodes below the root -/

theorem Cursor.isRoot_of_mem_children {cursor child : Cursor} (member : child ∈ cursor.children) :
    child.isRoot = false := by
  obtain ⟨index, _, rfl⟩ := List.mem_mapIdx.mp member
  rfl

/-- No walk that starts below the root comes to it. -/
theorem Tree.isRoot_of_mem_walkFrom {stack : List Cursor}
    (below : ∀ cursor ∈ stack, cursor.isRoot = false) :
    ∀ cursor ∈ walkFrom stack, cursor.isRoot = false := by
  induction stack using walkFrom.induct with
  | case1 =>
      intro cursor member
      rw [walkFrom] at member
      cases member
  | case2 top stack ih =>
      intro cursor member
      rw [walkFrom] at member
      rcases List.mem_cons.mp member with rfl | later
      · exact below _ List.mem_cons_self
      · refine ih (fun other stacked => ?_) cursor later
        rcases List.mem_append.mp stacked with child | waiting
        · exact Cursor.isRoot_of_mem_children child
        · exact below other (List.mem_cons_of_mem top waiting)

theorem Tree.walk_eq_cons (tree : Tree) : tree.walk = tree.cursor :: tree.walk.tail := by
  rw [walk, walkFrom]
  rfl

theorem Tree.isRoot_of_mem_tail_walk {tree : Tree} {cursor : Cursor}
    (member : cursor ∈ tree.walk.tail) : cursor.isRoot = false := by
  rw [walk, walkFrom, List.tail_cons, List.append_nil] at member
  exact isRoot_of_mem_walkFrom (fun _ child => Cursor.isRoot_of_mem_children child) cursor member

/-! ## The engine asks what the reference asks -/

namespace Engine

variable {engine : Engine}

theorem asksOfNode_eq (engine : Engine) (cursor : Cursor) (rule : Rule) :
    engine.asksOfNode cursor rule = decide (rule.id ∉ engine.policy.disabledRules ∧
      rule.scope = .node ∧ (rule.kinds = [] ∨ cursor.node.kind ∈ rule.kinds)) := by
  rw [Bool.eq_iff_iff, decide_eq_true_iff]
  simp [asksOfNode, enables, Policy.disables, RuleInfo.isFor, and_assoc]

theorem asksOfTree_eq (engine : Engine) (rule : Rule) :
    engine.asksOfTree rule =
      decide (rule.id ∉ engine.policy.disabledRules ∧ rule.scope = .tree) := by
  rw [Bool.eq_iff_iff, decide_eq_true_iff]
  simp [asksOfTree, enables, Policy.disables]

theorem invocationsAt_of_not_isRoot (sound : engine.catalogue.Sound) {cursor : Cursor}
    (inner : cursor.isRoot = false) :
    engine.invocationsAt cursor =
      Reference.nodeInvocations engine.catalogue.rules engine.policy cursor := by
  rw [invocationsAt, rulesAt_eq sound, inner, if_neg Bool.false_ne_true, List.append_nil,
    Reference.nodeInvocations]
  exact congrArg _ (List.filter_congr fun rule _ => engine.asksOfNode_eq cursor rule)

theorem invocationsAt_cursor (sound : engine.catalogue.Sound) (tree : Tree) :
    engine.invocationsAt tree.cursor =
      Reference.nodeInvocations engine.catalogue.rules engine.policy tree.cursor ++
        Reference.treeInvocations engine.catalogue.rules engine.policy tree := by
  have root : tree.cursor.isRoot = true := rfl
  rw [invocationsAt, rulesAt_eq sound, if_pos root, List.map_append, Reference.nodeInvocations,
    Reference.treeInvocations]
  refine congrArg₂ _ (congrArg _ ?_) (congrArg _ ?_)
  · exact List.filter_congr fun rule _ => engine.asksOfNode_eq tree.cursor rule
  · exact List.filter_congr fun rule _ => engine.asksOfTree_eq rule

theorem flatMap_invocationsAt_walk (sound : engine.catalogue.Sound) (tree : Tree) :
    tree.walk.flatMap engine.invocationsAt =
      Reference.invocations engine.catalogue.rules engine.policy tree := by
  have below : tree.walk.tail.flatMap engine.invocationsAt =
      tree.walk.tail.flatMap
        (Reference.nodeInvocations engine.catalogue.rules engine.policy) :=
    List.flatMap_congr fun cursor member =>
      invocationsAt_of_not_isRoot sound (Tree.isRoot_of_mem_tail_walk member)
  rw [tree.walk_eq_cons, List.flatMap_cons, invocationsAt_cursor sound, below]
  rfl

theorem findings_outcome_walk (sound : engine.catalogue.Sound) (tree : Tree) :
    (engine.outcome tree tree.walk).findings =
      Reference.proposals engine.catalogue.rules engine.policy tree := by
  rw [findings_outcome, flatMap_invocationsAt_walk sound]
  rfl

theorem faults_outcome_walk (sound : engine.catalogue.Sound) (tree : Tree) :
    (engine.outcome tree tree.walk).faults =
      Reference.failings engine.catalogue.rules engine.policy tree := by
  rw [faults_outcome, flatMap_invocationsAt_walk sound]
  rfl

theorem breaks_walk_iff (sound : engine.catalogue.Sound) (tree : Tree) :
    engine.Breaks tree tree.walk ↔
      Reference.Breaks engine.catalogue.rules engine.policy tree := by
  rw [Reference.Breaks, ← flatMap_invocationsAt_walk sound]
  simp only [Breaks, invocationsAt, List.mem_flatMap, List.mem_map]
  constructor
  · rintro ⟨cursor, walked, rule, asked, escape, broken⟩
    exact ⟨⟨rule, cursor⟩, ⟨cursor, walked, rule, asked, rfl⟩, escape, broken⟩
  · rintro ⟨_, ⟨cursor, walked, rule, asked, rfl⟩, escape, broken⟩
    exact ⟨cursor, walked, rule, asked, escape, broken⟩

end Engine

/-! ## The report of a run -/

namespace Reference

theorem silences_eq {engine : Engine} {tree : Tree} {path : String}
    (named : tree.path = .text path) (finding : Finding) :
    (engine.sheet tree).silences finding =
      decide (Waived engine.policy tree path finding.key) := by
  rw [Bool.eq_iff_iff, decide_eq_true_iff,
    WaiverSheet.silences_text ((engine.sheet_path tree).trans named)]
  rfl

/-- Of the findings with one key the first proposal remains, if any does. -/
theorem mem_remaining {rules : List Rule} {policy : Policy} {tree : Tree} {path : String}
    {finding : Finding} :
    finding ∈ remaining rules policy tree path ↔
      (proposals rules policy tree).find? (fun other => other.key = finding.key) = some finding ∧
        ¬ Waived policy tree path finding.key := by
  have byKey (left right : Finding) (sameKey : left.key = right.key) :
      decide (¬ Waived policy tree path left.key) =
        decide (¬ Waived policy tree path right.key) := by
    rw [sameKey]
  rw [remaining, Finding.mem_firsts_filter byKey, decide_eq_true_iff]

theorem mem_map_key_remaining {rules : List Rule} {policy : Policy} {tree : Tree} {path : String}
    {key : FindingKey} :
    key ∈ (remaining rules policy tree path).map Finding.key ↔
      key ∈ (proposals rules policy tree).map Finding.key ∧ ¬ Waived policy tree path key := by
  rw [remaining, Finding.mem_map_key_firsts]
  constructor
  · intro member
    obtain ⟨finding, kept, rfl⟩ := List.mem_map.mp member
    obtain ⟨proposed, unwaived⟩ := List.mem_filter.mp kept
    exact ⟨List.mem_map_of_mem proposed, by simpa using unwaived⟩
  · rintro ⟨member, unwaived⟩
    obtain ⟨finding, proposed, rfl⟩ := List.mem_map.mp member
    exact List.mem_map_of_mem (List.mem_filter.mpr ⟨proposed, by simpa using unwaived⟩)

/-- The report on what an engine finds along the whole walk is the one described. -/
theorem describes_reportOn {engine : Engine} (sound : engine.catalogue.Sound) {tree : Tree}
    {path : String} (named : tree.path = .text path) :
    Describes engine.catalogue.rules engine.policy tree path
      ((engine.sheet tree).reportOn (engine.outcome tree tree.walk) true) := by
  have fresh := engine.outcome_fresh tree tree.walk
  generalize report_eq : (engine.sheet tree).reportOn (engine.outcome tree tree.walk) true = report
  have findings : report.findings =
      (remaining engine.catalogue.rules engine.policy tree path).mergeSort Finding.inOrder := by
    rw [← report_eq, WaiverSheet.reportOn_findings _ fresh, Engine.findings_outcome_walk sound]
    simp only [silences_eq named, remaining, decide_not]
  have mem_findings (finding : Finding) : finding ∈ report.findings ↔
      finding ∈ remaining engine.catalogue.rules engine.policy tree path := by
    rw [findings, List.mem_mergeSort]
  -- Sorting moves findings about, so what is said of keys is said of the remaining findings.
  have sameKeys : (report.findings.map Finding.key).Perm
      ((remaining engine.catalogue.rules engine.policy tree path).map Finding.key) := by
    rw [findings]
    exact (List.mergeSort_perm _ _).map Finding.key
  refine {
    file := ?file, complete := ?complete, reported := ?reported, once := ?once, first := ?first,
    findings := findings, ordered := ?ordered, suppressed := ?suppressed,
    unsuppressed := ?unsuppressed, faults := ?faults, summary := ?summary }
  case file =>
      rw [← report_eq]
      exact named
  case complete =>
      rw [← report_eq]
      rfl
  case reported =>
      intro key
      rw [sameKeys.mem_iff, mem_map_key_remaining, mem_map_key_proposals]
  case once => exact sameKeys.nodup_iff.mpr (Finding.nodup_map_key_firsts _)
  case first =>
      intro finding member
      exact (mem_remaining.mp ((mem_findings finding).mp member)).1
  case ordered =>
      rw [findings]
      exact StableSort.sorted_mergeSort Finding.order _
  case suppressed =>
      rw [← report_eq, WaiverSheet.reportOn_suppressedCount _ fresh,
        Engine.findings_outcome_walk sound]
      congr 1
      ext key
      simp only [List.mem_toFinset, Finset.mem_filter, List.mem_map, List.mem_filter,
        silences_eq named, decide_eq_true_eq]
      constructor
      · rintro ⟨finding, ⟨proposed, waived⟩, rfl⟩
        exact ⟨⟨finding, proposed, rfl⟩, waived⟩
      · rintro ⟨⟨finding, proposed, rfl⟩, waived⟩
        exact ⟨finding, ⟨proposed, waived⟩, rfl⟩
  case unsuppressed =>
      intro finding member
      obtain ⟨found, unwaived⟩ := mem_remaining.mp ((mem_findings finding).mp member)
      rw [Engine.findings_outcome_walk sound] at fresh
      exact ⟨unwaived, fresh finding (List.mem_of_find?_eq_some found)⟩
  case faults => rw [← report_eq, WaiverSheet.reportOn_faults, Engine.faults_outcome_walk sound]
  case summary =>
      intro severity
      rw [← Summary.count_ofFindings, ← report_eq]
      rfl

end Reference

theorem Run.admitted_eq_self {signal : Signal} {asked : Nat} {cursors : List Cursor}
    (uncancelled : ∀ poll < cursors.length, signal (asked + poll) = false) :
    admitted signal asked cursors = cursors := by
  induction cursors generalizing asked with
  | nil => rfl
  | cons cursor rest ih =>
      have here : signal asked = false := uncancelled 0 (Nat.zero_lt_succ _)
      rw [admitted, here, if_neg Bool.false_ne_true]
      refine congrArg _ (ih fun poll bound => ?_)
      have later := uncancelled (poll + 1) (Nat.succ_lt_succ bound)
      rwa [Nat.add_comm poll, ← Nat.add_assoc] at later

/-- A run that is not cancelled has a report exactly when none of the invocations breaks it, and
then the report is the one described by them. Else the run ends with the error of one that does. -/
theorem Run.execute_describes_unless {catalogue : Catalogue} {policy : Policy} {workers : Int}
    {engine : Engine} (reachable : catalogue.Reachable)
    (created : (Engine.create catalogue policy workers).1 = .ok engine)
    {tree : Tree} {path : String} (named : tree.path = .text path) {signal : Signal}
    (uncancelled : ∀ poll < tree.size, signal poll = false) :
    (¬ Reference.Breaks catalogue.rules policy tree →
      ∃ report, ((start engine tree).execute signal).result = .ok report ∧
        Reference.Describes catalogue.rules policy tree path report) ∧
    (Reference.Breaks catalogue.rules policy tree →
      ∃ invocation ∈ Reference.invocations catalogue.rules policy tree, ∃ escape,
        invocation.BreaksWith tree escape ∧
          ((start engine tree).execute signal).result = .error (.escaped escape)) := by
  obtain ⟨_, _, _, rfl⟩ := Engine.create_eq_ok_iff.mp created
  have sound := reachable.sound.sealed
  have whole : tree.upTo signal = tree.walk :=
    admitted_eq_self fun poll bound => by simpa using uncancelled poll bound
  have breaks := @Engine.breaks_walk_iff ⟨catalogue.sealed, policy, workers.toNat⟩ sound tree
  have asked := @Engine.flatMap_invocationsAt_walk ⟨catalogue.sealed, policy, workers.toNat⟩ sound
    tree
  rw [Catalogue.sealed_rules] at breaks asked
  refine ⟨fun unbroken => ?_, fun broken => ?_⟩
  · refine ⟨_, execute_unbroken_text named (by rwa [whole, breaks]), ?_⟩
    rw [whole, beq_self_eq_true]
    have described := @Reference.describes_reportOn ⟨catalogue.sealed, policy, workers.toNat⟩
      sound tree path named
    rwa [Catalogue.sealed_rules] at described
  · obtain ⟨cursor, visited, rule, chosen, escape, own, failed⟩ :=
      @execute_broken ⟨catalogue.sealed, policy, workers.toNat⟩ tree path named signal
        (by rwa [whole, breaks])
    refine ⟨⟨rule, cursor⟩, ?_, escape, own, failed⟩
    rw [← asked, List.mem_flatMap]
    exact ⟨cursor, whole ▸ visited, List.mem_map_of_mem chosen⟩

/-- A rule that fails at the root and elsewhere proposes a stray value and one finding twice. -/
def Rule.erratic : Rule :=
  let info : RuleInfo := ⟨"Erratic", "erratic", "Erratic", "Drop it", .warning, [], .node⟩
  { info with
    applies := fun cursor =>
      if cursor.isRoot then .error (.of "ValueError" "no root") else .ok true
    evaluate := fun cursor _ =>
      .ok [.stray .null, info.finding cursor.node "odd", info.finding cursor.node "odd"] }

theorem Rule.erratic_not_breaksWith (tree : Tree) (cursor : Cursor) (escape : Escape) :
    ¬ Rule.erratic.BreaksWith tree cursor escape := by
  have asked : Engine.candidates tree .erratic cursor =
      if cursor.isRoot then .error (.of "ValueError" "no root")
      else Rule.erratic.evaluate cursor tree := by
    cases root : cursor.isRoot <;> simp [Engine.candidates, erratic, root]
  refine not_breaksWith ?_ ?_ escape
  · intro failure failed
    rw [asked] at failed
    split at failed
    · cases failed
      exact Failure.detail_of _ _
    · cases failed
  · intro found given
    rw [asked] at given
    split at given
    · cases given
    · cases given
      intro candidate listed
      simp only [List.mem_cons, List.not_mem_nil, or_false] at listed
      rcases listed with rfl | rfl | rfl
      · rfl
      · exact RuleInfo.obstacle?_finding _ _ _
      · exact RuleInfo.obstacle?_finding _ _ _

theorem Engine.not_breaks_of_singleton {rule : Rule} (named : rule.id ≠ "")
    {tree : Tree} (whole : ∀ cursor escape, ¬ rule.BreaksWith tree cursor escape) (policy : Policy)
    (workers : Nat) (cursors : List Cursor) :
    ¬ Engine.Breaks ⟨Catalogue.sealed ⟨[rule], none⟩, policy, workers⟩ tree cursors := by
  have registered : Catalogue.empty.register rule = .ok ⟨[rule], none⟩ :=
    Catalogue.register_eq_ok_iff.mpr ⟨rfl, named, List.not_mem_nil, rfl⟩
  refine not_breaks_of_rules (Catalogue.Reachable.empty.register registered).sound.sealed ?_
  intro other member cursor _ escape
  rw [Catalogue.sealed_rules, List.mem_singleton] at member
  exact member ▸ whole cursor escape

/-- A file with one declaration. -/
def Tree.declaring : Tree :=
  ⟨⟨.file, ⟨⟨1, 1, 0⟩, ⟨1, 9, 8⟩, by decide⟩, [],
    [⟨.declaration, ⟨⟨1, 1, 0⟩, ⟨1, 5, 4⟩, by decide⟩, [], []⟩]⟩, .text "a.go"⟩

theorem Run.execute_describes_unless_erratic :
    (Engine.create ⟨[.erratic], none⟩ ⟨[], [], [("erratic", .error)], []⟩ 1).1 =
        .ok ⟨Catalogue.sealed ⟨[.erratic], none⟩, ⟨[], [], [("erratic", .error)], []⟩, 1⟩ ∧
      ¬ Reference.Breaks [.erratic] ⟨[], [], [("erratic", .error)], []⟩ .declaring ∧
      ∃ report, ((start ⟨Catalogue.sealed ⟨[.erratic], none⟩,
          ⟨[], [], [("erratic", .error)], []⟩, 1⟩ .declaring).execute .never).result =
            .ok report ∧
        Reference.Describes [.erratic] ⟨[], [], [("erratic", .error)], []⟩ .declaring "a.go"
          report := by
  have registered : Catalogue.empty.register .erratic = .ok ⟨[.erratic], none⟩ :=
    Catalogue.register_eq_ok_iff.mpr ⟨rfl, by decide, List.not_mem_nil, rfl⟩
  have created : (Engine.create ⟨[.erratic], none⟩ ⟨[], [], [("erratic", .error)], []⟩ 1).1 =
      .ok ⟨Catalogue.sealed ⟨[.erratic], none⟩, ⟨[], [], [("erratic", .error)], []⟩, 1⟩ :=
    Engine.create_eq_ok_iff.mpr ⟨by decide,
      Policy.problems_eq_nil_iff.mpr ⟨by simp [Policy.allExclusions, sorted], by
        simp only [List.mem_singleton, forall_eq]
        rfl⟩,
      ⟨.erratic, List.mem_singleton_self _, rfl⟩, rfl⟩
  have unbroken : ¬ Reference.Breaks [.erratic] ⟨[], [], [("erratic", .error)], []⟩
      .declaring := by
    rintro ⟨invocation, asked, escape, breaks⟩
    have rule : invocation.rule = .erratic :=
      List.mem_singleton.mp (Reference.rule_mem_of_mem_invocations asked)
    rw [Invocation.BreaksWith, rule] at breaks
    exact Rule.erratic_not_breaksWith _ _ _ breaks
  exact ⟨created, unbroken,
    (execute_describes_unless (.register .empty registered) created rfl fun _ _ => rfl).1 unbroken⟩

theorem Run.execute_breach_at_root {engine : Engine} {tree : Tree} {path : String}
    (named : tree.path = .text path) {signal : Signal} (going : signal 0 = false) {escape : Escape}
    (breach : engine.breach? tree tree.cursor = some escape) :
    ((start engine tree).execute signal).result = .error (.escaped escape) := by
  have first : (tree.upTo signal).findSome? (engine.breach? tree) = some escape := by
    rw [Tree.upTo, Tree.walk_eq_cons, admitted, going, if_neg Bool.false_ne_true,
      List.findSome?_cons, breach]
  rw [execute_text named, first]

/-- A rule that fails everywhere. Of its failure the representation can be had, but not the
message. -/
def Rule.untold : Rule :=
  let info : RuleInfo := ⟨"Untold", "untold", "Untold", "Drop it", .warning, [], .node⟩
  { info with
    applies := fun _ => .ok true
    evaluate := fun _ _ => .error ⟨"UnicodeEncodeError",
      .error ⟨"SystemError", "<class 'str'> returned a result with an exception set"⟩,
      .ok "UnicodeEncodeError('utf-8', 'abc', -1, 0, 'r')"⟩ }

/-- A rule that proposes findings in a line that is a list. -/
def Rule.unplaced : Rule :=
  let info : RuleInfo := ⟨"Unplaced", "unplaced", "Unplaced", "Drop it", .warning, [], .node⟩
  { info with
    applies := fun _ => .ok true
    evaluate := fun _ _ => .ok [.draft
      { ruleId := .text info.id
        severity := .severity info.severity
        span := .span ⟨⟨.list [], 0⟩, ⟨.integer 1, 0⟩, .integer 0⟩
          ⟨⟨.integer 1, 0⟩, ⟨.integer 1, 0⟩, .integer 0⟩
        message := .text "odd"
        title := info.title
        recommendation := info.recommendation
        suppressed := false }] }

/-- Neither the failure without a message nor the finding without a place becomes part of a report:
they take the report away. -/
theorem Run.execute_without_report :
    ((Engine.create ⟨[.untold], none⟩ .neutral 1).1 =
        .ok ⟨Catalogue.sealed ⟨[.untold], none⟩, .neutral, 1⟩ ∧
      ((start ⟨Catalogue.sealed ⟨[.untold], none⟩, .neutral, 1⟩ .declaring).execute .never).result =
        .error (.escaped
          ⟨"SystemError", "<class 'str'> returned a result with an exception set"⟩)) ∧
      (Engine.create ⟨[.unplaced], none⟩ .neutral 1).1 =
          .ok ⟨Catalogue.sealed ⟨[.unplaced], none⟩, .neutral, 1⟩ ∧
        ((start ⟨Catalogue.sealed ⟨[.unplaced], none⟩, .neutral, 1⟩ .declaring).execute
          .never).result = .error (.escaped ⟨"TypeError", "unhashable type: 'list'"⟩) :=
  ⟨⟨Engine.create_neutral (by decide) (List.cons_ne_nil _ _), execute_breach_at_root rfl rfl rfl⟩,
    Engine.create_neutral (by decide) (List.cons_ne_nil _ _), execute_breach_at_root rfl rfl rfl⟩

end TreeLint
