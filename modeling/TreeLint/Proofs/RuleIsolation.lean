import TreeLint.Proofs.ReferenceReport

/-!
# What one more rule changes

A further rule adds findings and faults under its own id and nothing else: the findings and the
faults of the other rules are reported as if it were not there, in the same order. A rule that ends
with an error that nothing handles takes the whole report away.
-/

set_option autoImplicit false

namespace TreeLint

/-! ## Reports on a part of an outcome -/

namespace WaiverSheet

variable (sheet : WaiverSheet) (keep : String → Bool) {outcome : Outcome}

theorem reportOn_restrict_findings
    (fresh : ∀ finding ∈ outcome.findings, finding.suppressed = false) (complete : Bool) :
    (sheet.reportOn (outcome.restrict keep) complete).findings =
      (sheet.reportOn outcome complete).findings.filter fun finding => keep finding.ruleId := by
  have sorted := @StableSort.filter_mergeSort _ Finding.order _ (fun finding => keep finding.ruleId)
    (Finding.firsts (outcome.findings.filter fun finding => !sheet.silences finding))
  rw [sheet.filter_firsts_not_silenced] at sorted
  rw [sheet.reportOn_findings (Outcome.restrict_fresh fresh keep), sheet.reportOn_findings fresh,
    Outcome.findings_restrict]
  exact sorted.symm

theorem reportOn_restrict_faults (complete : Bool) :
    (sheet.reportOn (outcome.restrict keep) complete).faults =
      (sheet.reportOn outcome complete).faults.filter fun fault => keep fault.ruleId := by
  rw [sheet.reportOn_faults, sheet.reportOn_faults]
  exact (@StableSort.filter_mergeSort _ Fault.order _ (fun fault => keep fault.ruleId)
    outcome.faults).symm

theorem reportOn_restrict_suppressedCount_le
    (fresh : ∀ finding ∈ outcome.findings, finding.suppressed = false) (complete : Bool) :
    (sheet.reportOn (outcome.restrict keep) complete).suppressedCount ≤
      (sheet.reportOn outcome complete).suppressedCount := by
  refine sheet.reportOn_suppressedCount_le (Outcome.restrict_fresh fresh keep) fresh ?_ complete
    complete
  rw [Outcome.findings_restrict]
  exact List.filter_sublist.subset

end WaiverSheet

/-! ## A catalogue with one more rule -/

/-- All that an engine finds comes from rules of its catalogue. -/
theorem Engine.restrict_outcome_eq_self {engine : Engine} (sound : engine.catalogue.Sound)
    {keep : String → Bool} (kept : ∀ rule ∈ engine.catalogue.rules, keep rule.id = true)
    (tree : Tree) (cursors : List Cursor) :
    (engine.outcome tree cursors).restrict keep = engine.outcome tree cursors := by
  rw [Engine.outcome, Outcome.restrict_concat, List.map_map]
  refine congrArg _ (List.map_congr_left fun cursor _ => ?_)
  rw [Function.comp_apply, restrict_brought, filter_rulesAt sound,
    List.filter_eq_self.mpr kept, ← rulesAt_eq sound]
  rfl

theorem Engine.outcome_eq_restrict {narrow wide : Engine} (narrowSound : narrow.catalogue.Sound)
    (wideSound : wide.catalogue.Sound) (policy : wide.policy = narrow.policy)
    {keep : String → Bool} (kept : ∀ rule ∈ narrow.catalogue.rules, keep rule.id = true)
    (shared : (wide.catalogue.rules.filter fun rule => keep rule.id) = narrow.catalogue.rules)
    (tree : Tree) (cursors : List Cursor) :
    narrow.outcome tree cursors = (wide.outcome tree cursors).restrict keep := by
  have all : (narrow.catalogue.rules.filter fun rule => keep rule.id) = narrow.catalogue.rules :=
    List.filter_eq_self.mpr kept
  rw [restrict_outcome_congr wideSound narrowSound policy (shared.trans all.symm) tree cursors,
    restrict_outcome_eq_self narrowSound kept tree cursors]

/-- What the rules that two engines share bring to a report is the same in both reports. -/
theorem WaiverSheet.reportOn_outcome_restrict (narrow wide : Engine) (keep : String → Bool)
    (narrowSound : narrow.catalogue.Sound) (wideSound : wide.catalogue.Sound)
    (policy : wide.policy = narrow.policy)
    (kept : ∀ rule ∈ narrow.catalogue.rules, keep rule.id = true)
    (shared : (wide.catalogue.rules.filter fun rule => keep rule.id) = narrow.catalogue.rules)
    (tree : Tree) (cursors : List Cursor) (complete : Bool) :
    let report := (narrow.sheet tree).reportOn (narrow.outcome tree cursors) complete
    let full := (wide.sheet tree).reportOn (wide.outcome tree cursors) complete
    (full.findings.filter fun finding => keep finding.ruleId) = report.findings ∧
      (full.faults.filter fun fault => keep fault.ruleId) = report.faults ∧
      report.suppressedCount ≤ full.suppressedCount := by
  intro report full
  have fresh := wide.outcome_fresh tree cursors
  have part : report = (wide.sheet tree).reportOn ((wide.outcome tree cursors).restrict keep)
      complete := by
    rw [← Engine.outcome_eq_restrict narrowSound wideSound policy kept shared,
      Engine.sheet_congr policy]
  rw [part]
  exact ⟨((wide.sheet tree).reportOn_restrict_findings keep fresh _).symm,
    ((wide.sheet tree).reportOn_restrict_faults keep _).symm,
    (wide.sheet tree).reportOn_restrict_suppressedCount_le keep fresh _⟩

theorem Catalogue.registerAll_insert {front back : List Rule} {catalogue : Catalogue}
    (registered : (empty.registerAll (front ++ back)).1 = .ok catalogue) {added : Rule}
    (named : added.id ≠ "") (fresh : added.id ∉ catalogue.ids) :
    (empty.registerAll (front ++ added :: back)).1 = .ok ⟨front ++ added :: back, none⟩ := by
  have rules : catalogue.rules = front ++ back := registerAll_rules registered
  have sound := (Reachable.empty.registerAll registered).sound
  have ids : catalogue.ids = front.map (·.id) ++ back.map (·.id) := by
    rw [Catalogue.ids, rules, List.map_append]
  refine registerAll_eq_ok rfl ?_ ?_
  · rw [List.map_append, List.map_cons]
    refine List.nodup_middle.mpr (List.nodup_cons.mpr ?_)
    rw [← ids]
    exact ⟨fresh, sound.unique⟩
  · intro rule member empty
    rcases List.mem_cons.mp (List.perm_middle.mem_iff.mp member) with rfl | other
    · exact named empty
    · refine sound.named ?_
      rw [Catalogue.ids, rules, ← empty]
      exact List.mem_map_of_mem other

/-- The rule is asked about one of the nodes and ends with an error that nothing handles. -/
def Engine.BrokenBy (engine : Engine) (rule : Rule) (tree : Tree) (cursors : List Cursor) : Prop :=
  ∃ cursor ∈ cursors, rule ∈ engine.rulesAt cursor ∧
    ∃ escape, rule.BreaksWith tree cursor escape

/-- How a run ends with and without one of the rules. -/
structure Run.Widens (engine wider : Engine) (added : Rule) (tree : Tree) (signal : Signal) :
    Prop where
  /-- Without the rule there is a report, unless another rule breaks the run. -/
  reported : ¬ engine.Breaks tree (tree.upTo signal) →
    ∃ report, ((start engine tree).execute signal).result = .ok report
  /-- A run that breaks without the rule also breaks with it. -/
  broken : engine.Breaks tree (tree.upTo signal) →
    (∃ escape, ((start engine tree).execute signal).result = .error (.escaped escape)) ∧
      ∃ escape, ((start wider tree).execute signal).result = .error (.escaped escape)
  /-- The rule adds to the report, as long as it does not break the run. -/
  kept : ∀ report, ((start engine tree).execute signal).result = .ok report →
    ¬ wider.BrokenBy added tree (tree.upTo signal) →
      ∃ wide, ((start wider tree).execute signal).result = .ok wide ∧
        (wide.findings.filter fun finding => finding.ruleId ≠ added.id) = report.findings ∧
        (wide.faults.filter fun fault => fault.ruleId ≠ added.id) = report.faults ∧
        report.suppressedCount ≤ wide.suppressedCount
  /-- If it does break the run, nothing is left of the report. -/
  lost : ∀ report, ((start engine tree).execute signal).result = .ok report →
    wider.BrokenBy added tree (tree.upTo signal) →
      ∃ cursor ∈ tree.upTo signal, ∃ escape, added.BreaksWith tree cursor escape ∧
        ((start wider tree).execute signal).result = .error (.escaped escape)

section OneMoreRule

variable {engine wider : Engine} {added : Rule} (sound : engine.catalogue.Sound)
  (widerSound : wider.catalogue.Sound) (policy : wider.policy = engine.policy)
  (members : ∀ rule, rule ∈ wider.catalogue.rules ↔ rule = added ∨ rule ∈ engine.catalogue.rules)

include sound widerSound policy members

theorem Engine.mem_rulesAt_insert {cursor : Cursor} {rule : Rule} :
    rule ∈ wider.rulesAt cursor ↔
      rule = added ∧ added ∈ wider.rulesAt cursor ∨ rule ∈ engine.rulesAt cursor := by
  rw [mem_rulesAt widerSound, mem_rulesAt widerSound, mem_rulesAt sound, asks_congr policy, members,
    members]
  constructor
  · rintro ⟨rfl | old, asked⟩
    · exact .inl ⟨rfl, .inl rfl, asked⟩
    · exact .inr ⟨old, asked⟩
  · rintro (⟨rfl, _, asked⟩ | ⟨old, asked⟩)
    · exact ⟨.inl rfl, asked⟩
    · exact ⟨.inr old, asked⟩

theorem Engine.breaks_insert_iff {tree : Tree} {cursors : List Cursor} :
    wider.Breaks tree cursors ↔
      wider.BrokenBy added tree cursors ∨ engine.Breaks tree cursors := by
  constructor
  · rintro ⟨cursor, visited, rule, asked, escape, own⟩
    rcases (mem_rulesAt_insert sound widerSound policy members).mp asked with ⟨rfl, new⟩ | old
    · exact .inl ⟨cursor, visited, new, escape, own⟩
    · exact .inr ⟨cursor, visited, rule, old, escape, own⟩
  · rintro (⟨cursor, visited, new, escape, own⟩ | ⟨cursor, visited, rule, old, escape, own⟩)
    · exact ⟨cursor, visited, added, new, escape, own⟩
    · exact ⟨cursor, visited, rule,
        (mem_rulesAt_insert sound widerSound policy members).mpr (.inr old), escape, own⟩

theorem Run.widens_of_members (fresh : ∀ rule ∈ engine.catalogue.rules, rule.id ≠ added.id)
    (shared : (wider.catalogue.rules.filter fun rule => rule.id ≠ added.id) =
      engine.catalogue.rules)
    {tree : Tree} {path : String} (named : tree.path = .text path) (signal : Signal) :
    Widens engine wider added tree signal := by
  have breaks := @Engine.breaks_insert_iff engine wider added sound widerSound policy members tree
    (tree.upTo signal)
  refine { reported := ?reported, broken := ?broken, kept := ?kept, lost := ?lost }
  case reported => exact fun whole => ⟨_, execute_unbroken_text named whole⟩
  case broken =>
    intro broken
    obtain ⟨_, _, _, _, escape, _, failed⟩ := execute_broken named broken
    obtain ⟨_, _, _, _, wideEscape, _, wideFailed⟩ :=
      execute_broken named (breaks.mpr (.inr broken))
    exact ⟨⟨escape, failed⟩, wideEscape, wideFailed⟩
  case kept =>
    intro report passed unbroken
    obtain ⟨whole, _, rfl⟩ := execute_eq_ok_iff.mp passed
    have widerWhole : ¬ wider.Breaks tree (tree.upTo signal) := by
      rw [breaks]
      exact not_or.mpr ⟨unbroken, whole⟩
    refine ⟨_, execute_unbroken_text named widerWhole, ?_⟩
    exact WaiverSheet.reportOn_outcome_restrict engine wider (fun id => decide (id ≠ added.id))
      sound widerSound policy (fun rule member => decide_eq_true (fresh rule member)) shared tree
      (tree.upTo signal) _
  case lost =>
    intro report passed breaking
    obtain ⟨whole, _, _⟩ := execute_eq_ok_iff.mp passed
    obtain ⟨cursor, visited, rule, asked, escape, own, failed⟩ :=
      execute_broken named (breaks.mpr (.inl breaking))
    -- No other rule breaks the run, so the error is that of the added rule.
    rcases (Engine.mem_rulesAt_insert sound widerSound policy members).mp asked with ⟨rfl, _⟩ | old
    · exact ⟨cursor, visited, escape, own, failed⟩
    · exact absurd ⟨cursor, visited, rule, old, escape, own⟩ whole

end OneMoreRule

/-- One more rule, wherever it is registered, leaves the findings and the faults of the others as
they are and may only add to the number of suppressed findings, unless it breaks the run. -/
theorem Run.execute_insert {front back : List Rule} {catalogue : Catalogue}
    (registered : (Catalogue.empty.registerAll (front ++ back)).1 = .ok catalogue) {added : Rule}
    (named : added.id ≠ "") (fresh : added.id ∉ catalogue.ids) {policy : Policy} {workers : Int}
    {engine : Engine} (created : (Engine.create catalogue policy workers).1 = .ok engine) :
    ∃ extended wider,
      (Catalogue.empty.registerAll (front ++ added :: back)).1 = .ok extended ∧
      (Engine.create extended policy workers).1 = .ok wider ∧
      ∀ (tree : Tree) (path : String), tree.path = .text path → ∀ signal : Signal,
        Widens engine wider added tree signal := by
  have inserted := Catalogue.registerAll_insert registered named fresh
  have rules : catalogue.rules = front ++ back := Catalogue.registerAll_rules registered
  obtain ⟨enough, fits, ⟨rule, member, enabled⟩, rfl⟩ := Engine.create_eq_ok_iff.mp created
  have known : ∀ id, catalogue.contains id = true →
      Catalogue.contains ⟨front ++ added :: back, none⟩ id = true := by
    intro id known
    rw [Catalogue.contains_iff, Catalogue.ids, rules] at known
    rw [Catalogue.contains_iff]
    exact ((List.perm_middle.map _).mem_iff).mpr (List.mem_cons_of_mem added.id known)
  have remains : rule ∈ front ++ added :: back :=
    List.perm_middle.mem_iff.mpr (List.mem_cons_of_mem added (rules ▸ member))
  refine ⟨_, _, inserted, Engine.create_eq_ok_iff.mpr ⟨enough,
    Policy.problems_eq_nil_of_le known fits, ⟨rule, remains, enabled⟩, rfl⟩,
    fun tree path text signal => ?_⟩
  have others : ∀ rule ∈ front ++ back, rule.id ≠ added.id := by
    intro other member same
    refine fresh ?_
    rw [Catalogue.ids, rules, ← same]
    exact List.mem_map_of_mem member
  refine widens_of_members ?_ ?_ ?_ ?_ ?_ ?_ text signal
  · exact (Catalogue.Reachable.empty.registerAll registered).sound.sealed
  · exact (Catalogue.Reachable.empty.registerAll inserted).sound.sealed
  · rfl
  · intro other
    rw [Catalogue.sealed_rules, Catalogue.sealed_rules, rules, List.perm_middle.mem_iff,
      List.mem_cons]
  · intro other member
    rw [Catalogue.sealed_rules, rules] at member
    exact others other member
  · rw [Catalogue.sealed_rules, Catalogue.sealed_rules, rules, List.filter_append,
      List.filter_cons_of_neg (by simp), ← List.filter_append]
    exact List.filter_eq_self.mpr fun other member => decide_eq_true (others other member)

/-- A rule that fails at declarations and elsewhere proposes a finding of another rule. -/
def Rule.meddling : Rule :=
  let info : RuleInfo := ⟨"Meddling", "meddling", "Meddling", "Drop it", .error, [], .node⟩
  { info with
    applies := fun _ => .ok true
    evaluate := fun cursor _ =>
      if cursor.node.kind = .declaration then .error (.of "TypeError" "no name")
      else .ok [GetterName.rule.finding cursor.node "forged"] }

theorem Run.execute_insert_meddling :
    ∃ extended wider,
      (Catalogue.empty.registerAll ([GetterName.rule] ++ .meddling :: [Initialism.rule])).1 =
          .ok extended ∧
        (Engine.create extended .neutral 2).1 = .ok wider ∧
        ∀ (tree : Tree) (path : String), tree.path = .text path → ∀ signal : Signal,
          Widens ⟨Catalogue.sealed ⟨[GetterName.rule, Initialism.rule], none⟩, .neutral, 2⟩ wider
            .meddling tree signal := by
  have registered :
      (Catalogue.empty.registerAll ([GetterName.rule] ++ [Initialism.rule])).1 =
        .ok ⟨[GetterName.rule, Initialism.rule], none⟩ :=
    Catalogue.registerAll_eq_ok rfl (by decide) (by decide)
  have created :
      (Engine.create ⟨[GetterName.rule, Initialism.rule], none⟩ .neutral 2).1 =
        .ok ⟨Catalogue.sealed ⟨[GetterName.rule, Initialism.rule], none⟩, .neutral, 2⟩ :=
    Engine.create_neutral (by decide) (List.cons_ne_nil _ _)
  exact execute_insert registered (by decide) (by decide) created

/-- A file that is a function called `GetOwner`. -/
def Tree.ofGetter : Tree :=
  ⟨⟨.declaration, ⟨⟨1, 1, 0⟩, ⟨1, 31, 30⟩, by decide⟩,
    [("exported", .bool true), ("name", .text "GetOwner")], []⟩, .text "a.go"⟩

/-- The finding about `GetOwner` is lost when a rule that fails without a message is added. -/
theorem Run.execute_insert_untold :
    (∃ report, ((start ⟨Catalogue.sealed ⟨[GetterName.rule], none⟩, .neutral, 1⟩
        .ofGetter).execute .never).result = .ok report ∧ report.findings.length = 1) ∧
      ((start ⟨Catalogue.sealed ⟨[GetterName.rule, .untold], none⟩, .neutral, 1⟩
        .ofGetter).execute .never).result = .error (.escaped
          ⟨"SystemError", "<class 'str'> returned a result with an exception set"⟩) := by
  have alone : Tree.ofGetter.upTo .never = [Tree.ofGetter.cursor] := by
    have childless : Tree.ofGetter.cursor.children ++ [] = [] := rfl
    rw [Tree.upTo, Tree.walk, Tree.walkFrom, childless, Tree.walkFrom]
    rfl
  have whole : ¬ Engine.Breaks ⟨Catalogue.sealed ⟨[GetterName.rule], none⟩, .neutral, 1⟩ .ofGetter
      (Tree.ofGetter.upTo .never) := by
    rw [alone, Engine.not_breaks_iff]
    simp only [List.mem_singleton, forall_eq]
    rfl
  refine ⟨⟨_, execute_unbroken_text rfl whole, ?_⟩, execute_breach_at_root rfl rfl rfl⟩
  rw [alone]
  decide +kernel

end TreeLint
