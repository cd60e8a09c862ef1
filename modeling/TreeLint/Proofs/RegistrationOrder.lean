import TreeLint.Proofs.RunProperties
import TreeLint.Proofs.StableSort

/-!
# The order of registration

The rules bring their findings to a node in the order of their registration, but this order does not
show in a report. What each rule brings is the same in every order, repetitions of a finding come
from one rule, and findings or faults that tie in a report are of one rule as well.
-/

set_option autoImplicit false

namespace TreeLint

/-! ## Outcomes that agree rule by rule -/

/-- Every rule brings the same to two outcomes, in the same order. -/
def Outcome.SameByRule (left right : Outcome) : Prop :=
  ∀ ruleId, left.restrict (· = ruleId) = right.restrict (· = ruleId)

namespace Outcome.SameByRule

variable {left right : Outcome}

theorem filter_findings (same : left.SameByRule right) (ruleId : String) :
    (left.findings.filter fun finding => finding.ruleId = ruleId) =
      right.findings.filter fun finding => finding.ruleId = ruleId := by
  have part := congrArg Outcome.findings (same ruleId)
  rwa [findings_restrict, findings_restrict] at part

theorem filter_faults (same : left.SameByRule right) (ruleId : String) :
    (left.faults.filter fun fault => fault.ruleId = ruleId) =
      right.faults.filter fun fault => fault.ruleId = ruleId :=
  congrArg Outcome.faults (same ruleId)

theorem mem_findings (same : left.SameByRule right) (finding : Finding) :
    finding ∈ left.findings ↔ finding ∈ right.findings := by
  have own (findings : List Finding) : finding ∈ findings ↔
      finding ∈ findings.filter fun other => other.ruleId = finding.ruleId := by
    simp [List.mem_filter]
  rw [own left.findings, same.filter_findings, ← own right.findings]

theorem any_findings (same : left.SameByRule right) (test : Finding → Bool) :
    left.findings.any test = right.findings.any test := by
  rw [Bool.eq_iff_iff, List.any_eq_true, List.any_eq_true]
  exact exists_congr fun finding => and_congr_left fun _ => same.mem_findings finding

theorem reportOn (same : left.SameByRule right) (sheet : WaiverSheet)
    (leftFresh : ∀ finding ∈ left.findings, finding.suppressed = false)
    (rightFresh : ∀ finding ∈ right.findings, finding.suppressed = false) (complete : Bool) :
    sheet.reportOn left complete = sheet.reportOn right complete := by
  have findings : (sheet.reportOn left complete).findings =
      (sheet.reportOn right complete).findings := by
    rw [sheet.reportOn_findings leftFresh, sheet.reportOn_findings rightFresh]
    refine StableSort.mergeSort_eq_of_labels Finding.order Finding.ruleId
      Finding.ruleId_eq_of_order_eq fun ruleId => ?_
    -- Repetitions share a rule, so looking for firsts may be done rule by rule.
    have leftPart := sheet.filter_firsts_not_silenced (· = ruleId) left.findings
    have rightPart := sheet.filter_firsts_not_silenced (· = ruleId) right.findings
    rw [leftPart, rightPart, same.filter_findings]
  have suppressed : (sheet.reportOn left complete).suppressedCount =
      (sheet.reportOn right complete).suppressedCount := by
    rw [sheet.reportOn_suppressedCount leftFresh, sheet.reportOn_suppressedCount rightFresh]
    congr 1
    ext key
    simp only [List.mem_toFinset, List.mem_map, List.mem_filter, same.mem_findings]
  have faults : (sheet.reportOn left complete).faults =
      (sheet.reportOn right complete).faults := by
    rw [sheet.reportOn_faults, sheet.reportOn_faults]
    exact StableSort.mergeSort_eq_of_labels Fault.order Fault.ruleId Fault.ruleId_eq_of_order_eq
      same.filter_faults
  exact WaiverSheet.reportOn_ext findings suppressed faults

end Outcome.SameByRule

/-! ## Rules in another order -/

theorem filter_id_eq_of_perm {rules permuted : List Rule} (perm : rules.Perm permuted)
    (unique : (rules.map (·.id)).Nodup) (ruleId : String) :
    (rules.filter fun rule => rule.id = ruleId) = permuted.filter fun rule => rule.id = ruleId := by
  have reordered := perm.filter fun rule => decide (rule.id = ruleId)
  have short : (rules.filter fun rule => rule.id = ruleId).length ≤ 1 := by
    have occurrences := List.nodup_iff_count_le_one.mp unique ruleId
    rw [List.count, List.countP_map, List.countP_eq_length_filter] at occurrences
    exact occurrences
  -- A list of at most one rule has no other order.
  generalize (rules.filter fun rule => rule.id = ruleId) = chosen at reordered short
  match chosen, short with
  | [], _ => exact (List.nil_perm.mp reordered).symm
  | [rule], _ => exact (List.singleton_perm.mp reordered)

/-- Engines whose rules agree for each id ask the same rules, if not in the same order. -/
theorem Engine.mem_rulesAt_congr {left right : Engine} (leftSound : left.catalogue.Sound)
    (rightSound : right.catalogue.Sound) (policy : left.policy = right.policy)
    (shared : ∀ ruleId, (left.catalogue.rules.filter fun rule => rule.id = ruleId) =
      right.catalogue.rules.filter fun rule => rule.id = ruleId) (cursor : Cursor) (rule : Rule) :
    rule ∈ left.rulesAt cursor ↔ rule ∈ right.rulesAt cursor := by
  have own (rules : List Rule) : rule ∈ rules ↔
      rule ∈ rules.filter fun other => other.id = rule.id := by
    simp [List.mem_filter]
  rw [mem_rulesAt leftSound, mem_rulesAt rightSound, asks_congr policy, own left.catalogue.rules,
    shared, ← own right.catalogue.rules]

section SharedRules

variable {left right : Engine} (leftSound : left.catalogue.Sound)
  (rightSound : right.catalogue.Sound) (policy : left.policy = right.policy)
  (shared : ∀ ruleId, (left.catalogue.rules.filter fun rule => rule.id = ruleId) =
    right.catalogue.rules.filter fun rule => rule.id = ruleId)

include leftSound rightSound policy shared

theorem Engine.breaks_iff_of_shared (tree : Tree) (cursors : List Cursor) :
    left.Breaks tree cursors ↔ right.Breaks tree cursors := by
  simp only [Breaks, mem_rulesAt_congr leftSound rightSound policy shared]

theorem Engine.sameByRule_of_shared (tree : Tree) (cursors : List Cursor) :
    (left.outcome tree cursors).SameByRule (right.outcome tree cursors) := fun ruleId =>
  restrict_outcome_congr leftSound rightSound policy (shared ruleId) tree cursors

/-- Engines whose rules agree for each id have the same reports, whatever the tree and the signal. -/
theorem Run.execute_eq_ok_congr (tree : Tree) (signal : Signal) (report : Report) :
    ((start left tree).execute signal).result = .ok report ↔
      ((start right tree).execute signal).result = .ok report := by
  have same := Engine.sameByRule_of_shared leftSound rightSound policy shared tree
    (tree.upTo signal)
  rw [execute_eq_ok_iff, execute_eq_ok_iff,
    Engine.breaks_iff_of_shared leftSound rightSound policy shared, Engine.sheet_congr policy,
    same.any_findings, same.reportOn _ (left.outcome_fresh tree _) (right.outcome_fresh tree _)]

theorem Run.execute_result_congr {tree : Tree} {signal : Signal}
    (whole : ¬ right.Breaks tree (tree.upTo signal)) :
    ((start left tree).execute signal).result = ((start right tree).execute signal).result := by
  have same := Engine.sameByRule_of_shared leftSound rightSound policy shared tree
    (tree.upTo signal)
  have leftWhole := mt
    (Engine.breaks_iff_of_shared leftSound rightSound policy shared tree _).mp whole
  rw [execute_unbroken leftWhole, execute_unbroken whole, Engine.sheet_congr policy,
    same.any_findings, same.reportOn _ (left.outcome_fresh tree _) (right.outcome_fresh tree _)]

end SharedRules

/-- The order in which rules are registered shows in no report. Nor does it show in the failure over
a path that is not a text; only of several rules that break a run, another one may come first. -/
theorem Run.execute_perm {rules permuted : List Rule} (perm : rules.Perm permuted)
    (unique : (rules.map (·.id)).Nodup) (named : ∀ rule ∈ rules, rule.id ≠ "") :
    ∃ catalogue reordered, (Catalogue.empty.registerAll rules).1 = .ok catalogue ∧
      (Catalogue.empty.registerAll permuted).1 = .ok reordered ∧
      ∀ (policy : Policy) (workers : Int) (engine : Engine),
        (Engine.create catalogue policy workers).1 = .ok engine →
          ∃ other, (Engine.create reordered policy workers).1 = .ok other ∧
            ∀ (tree : Tree) (signal : Signal),
              (∀ report, ((start other tree).execute signal).result = .ok report ↔
                ((start engine tree).execute signal).result = .ok report) ∧
              (¬ engine.Breaks tree (tree.upTo signal) →
                ((start other tree).execute signal).result =
                    ((start engine tree).execute signal).result ∧
                  ∀ path, tree.path = .text path →
                    ∃ report, ((start other tree).execute signal).result = .ok report) := by
  have permutedUnique : (permuted.map (·.id)).Nodup := (perm.map _).nodup_iff.mp unique
  have permutedNamed : ∀ rule ∈ permuted, rule.id ≠ "" := fun rule member =>
    named rule (perm.mem_iff.mpr member)
  have registered := @Catalogue.registerAll_eq_ok .empty rules rfl unique named
  have reregistered := @Catalogue.registerAll_eq_ok .empty permuted rfl permutedUnique permutedNamed
  refine ⟨_, _, registered, reregistered, fun policy workers engine created => ?_⟩
  obtain ⟨enough, fits, ⟨rule, member, enabled⟩, rfl⟩ := Engine.create_eq_ok_iff.mp created
  have kept : ∀ id, Catalogue.contains ⟨rules, none⟩ id = true →
      Catalogue.contains ⟨permuted, none⟩ id = true := fun id known =>
    Catalogue.contains_iff.mpr ((perm.map _).mem_iff.mp (Catalogue.contains_iff.mp known))
  have sound := (Catalogue.Reachable.empty.registerAll registered).sound.sealed
  have otherSound := (Catalogue.Reachable.empty.registerAll reregistered).sound.sealed
  have shared (ruleId : String) :
      ((Catalogue.sealed ⟨permuted, none⟩).rules.filter fun rule => rule.id = ruleId) =
        (Catalogue.sealed ⟨rules, none⟩).rules.filter fun rule => rule.id = ruleId := by
    rw [Catalogue.sealed_rules, Catalogue.sealed_rules]
    exact (filter_id_eq_of_perm perm unique ruleId).symm
  let engine : Engine := ⟨Catalogue.sealed ⟨rules, none⟩, policy, workers.toNat⟩
  let other : Engine := ⟨Catalogue.sealed ⟨permuted, none⟩, policy, workers.toNat⟩
  refine ⟨other, Engine.create_eq_ok_iff.mpr ⟨enough, Policy.problems_eq_nil_of_le kept fits,
    ⟨rule, perm.mem_iff.mp member, enabled⟩, rfl⟩, fun tree signal => ⟨?_, fun whole => ?_⟩⟩
  · exact @execute_eq_ok_congr other engine otherSound sound rfl shared tree signal
  · have same := @execute_result_congr other engine otherSound sound rfl shared tree signal whole
    exact ⟨same, fun path text => ⟨_, same.trans (execute_unbroken_text text whole)⟩⟩

theorem Run.execute_perm_standard :
    ∃ catalogue reordered,
      (Catalogue.empty.registerAll Catalogue.standardRules).1 = .ok catalogue ∧
      (Catalogue.empty.registerAll Catalogue.standardRules.reverse).1 = .ok reordered ∧
      ∀ (policy : Policy) (workers : Int) (engine : Engine),
        (Engine.create catalogue policy workers).1 = .ok engine →
          ∃ other, (Engine.create reordered policy workers).1 = .ok other ∧
            ∀ (tree : Tree) (signal : Signal),
              (∀ report, ((start other tree).execute signal).result = .ok report ↔
                ((start engine tree).execute signal).result = .ok report) ∧
              (¬ engine.Breaks tree (tree.upTo signal) →
                ((start other tree).execute signal).result =
                    ((start engine tree).execute signal).result ∧
                  ∀ path, tree.path = .text path →
                    ∃ report, ((start other tree).execute signal).result = .ok report) :=
  execute_perm (List.reverse_perm Catalogue.standardRules).symm (by decide) (by decide)

end TreeLint
