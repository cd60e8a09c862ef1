import TreeLint.Proofs.RepeatedImports
import TreeLint.Proofs.RuleFailures
import TreeLint.Proofs.RunProperties

/-!
# What the standard rules bring

A standard rule proposes findings of its own, at nodes of the tree and with something to say. It
fails in one way only, over a value that cannot be looked up. Both can be told and entered, so the
standard rules break no run.
-/

set_option autoImplicit false

namespace TreeLint

/-! ## What the rules propose -/

/-- A candidate is a finding of the rule, at a node of the tree and with something to say. -/
def RuleInfo.Proposes (info : RuleInfo) (tree : Tree) (candidate : Candidate) : Prop :=
  ∃ cursor ∈ tree.walk, ∃ message,
    Text.isBlankText message = false ∧ candidate = info.finding cursor.node message

theorem Text.isBlankText_append {front : String} (spoken : isBlankText front = false)
    (back : String) : isBlankText (front ++ back) = false := by
  rw [isBlankText] at spoken
  rw [isBlankText, String.toList_append, List.all_append, spoken, Bool.false_and]

section Rules

variable {tree : Tree} {cursor : Cursor} {found : List Candidate}

theorem GetterName.proposes (member : cursor ∈ tree.walk)
    (evaluated : rule.evaluate cursor tree = .ok found) :
    ∀ candidate ∈ found, info.Proposes tree candidate := by
  cases evaluated
  intro candidate listed
  split at listed
  next =>
    rw [List.mem_singleton.mp listed]
    exact ⟨cursor, member, message, by decide, rfl⟩
  next => cases listed

theorem Initialism.message_spoken (name : String) (word : List Char) :
    Text.isBlankText (message name word) = false := by
  have begins : Text.isBlankText "initialism \"" = false := by decide
  unfold message
  repeat apply Text.isBlankText_append
  exact begins

theorem Initialism.proposes (member : cursor ∈ tree.walk)
    (evaluated : rule.evaluate cursor tree = .ok found) :
    ∀ candidate ∈ found, info.Proposes tree candidate := by
  obtain ⟨mixed, _, listed⟩ := bind_eq_ok_iff.mp evaluated
  cases listed
  intro candidate listed
  obtain ⟨word, _, rfl⟩ := List.mem_map.mp listed
  exact ⟨cursor, member, message cursor.node.name word, message_spoken _ word, rfl⟩

theorem ReceiverName.message_spoken (receiver : String) :
    Text.isBlankText (message receiver) = false := by
  have begins : Text.isBlankText "receiver name \"" = false := by decide
  exact Text.isBlankText_append (Text.isBlankText_append begins receiver) _

theorem ReceiverName.proposes (member : cursor ∈ tree.walk)
    (evaluated : rule.evaluate cursor tree = .ok found) :
    ∀ candidate ∈ found, info.Proposes tree candidate := by
  cases evaluated
  intro candidate listed
  split at listed
  next receiver _ =>
    split at listed
    next =>
      rw [List.mem_singleton.mp listed]
      exact ⟨cursor, member, message receiver, message_spoken receiver, rfl⟩
    next => cases listed
  next => cases listed

theorem ErrorText.proposes (member : cursor ∈ tree.walk)
    (evaluated : rule.evaluate cursor tree = .ok found) :
    ∀ candidate ∈ found, info.Proposes tree candidate := by
  obtain ⟨text, _, listed⟩ := bind_eq_ok_iff.mp evaluated
  unfold findings at listed
  split at listed
  next =>
    cases listed
    intro candidate none
    cases none
  next =>
    obtain ⟨capitalised, _, listed⟩ := bind_eq_ok_iff.mp listed
    cases listed
    intro candidate listed
    rcases List.mem_append.mp listed with first | second
    · split at first
      next =>
        rw [List.mem_singleton.mp first]
        exact ⟨cursor, member, capitalMessage, by decide, rfl⟩
      next => cases first
    · split at second
      next =>
        rw [List.mem_singleton.mp second]
        exact ⟨cursor, member, punctuationMessage, by decide, rfl⟩
      next => cases second

theorem RepeatedImport.message_spoken (path : String) :
    Text.isBlankText (message path) = false := by
  have begins : Text.isBlankText "package \"" = false := by decide
  exact Text.isBlankText_append (Text.isBlankText_append begins path) _

/-- Repeated imports are reported where they stand, wherever the rule is asked. -/
theorem RepeatedImport.proposes (evaluated : rule.evaluate cursor tree = .ok found) :
    ∀ candidate ∈ found, info.Proposes tree candidate := by
  cases evaluated
  intro candidate listed
  obtain ⟨⟨place, path⟩, repeated, rfl⟩ := List.mem_map.mp listed
  have importing : place ∈ tree.nodesOfKind .importing :=
    (map_fst_repeats_sublist [] _).mem (List.mem_map_of_mem repeated)
  exact ⟨place, List.mem_of_mem_filter importing, message path, message_spoken path, rfl⟩

end Rules

namespace Catalogue

theorem mem_standardRules_iff {rule : Rule} :
    rule ∈ standardRules ↔ rule = GetterName.rule ∨ rule = Initialism.rule ∨
      rule = ReceiverName.rule ∨ rule = ErrorText.rule ∨ rule = RepeatedImport.rule := by
  simp only [standardRules, List.mem_cons, List.not_mem_nil, or_false]

theorem standard_proposes {rule : Rule} (standing : rule ∈ standardRules) {tree : Tree}
    {cursor : Cursor} (member : cursor ∈ tree.walk) {found : List Candidate}
    (evaluated : rule.evaluate cursor tree = .ok found) :
    ∀ candidate ∈ found, rule.Proposes tree candidate := by
  rcases mem_standardRules_iff.mp standing with rfl | rfl | rfl | rfl | rfl
  · exact GetterName.proposes member evaluated
  · exact Initialism.proposes member evaluated
  · exact ReceiverName.proposes member evaluated
  · exact ErrorText.proposes member evaluated
  · exact RepeatedImport.proposes evaluated

end Catalogue

/-! ## How the rules fail -/

theorem Value.isAmong_failure {names : List String} {value : Value} {failure : Failure}
    (failed : value.isAmong names = .error failure) :
    ∃ typeName, failure = .unhashable typeName := by
  cases value <;> cases failed <;> exact ⟨_, rfl⟩

theorem GetterName.failure {cursor : Cursor} {failure : Failure}
    (failed : rule.applies cursor = .error failure) :
    ∃ typeName, failure = .unhashable typeName := by
  rcases bind_eq_error_iff.mp failed with unknown | ⟨function, _, answered⟩
  · exact Value.isAmong_failure unknown
  · cases answered

theorem Engine.candidates_eq_error {tree : Tree} {rule : Rule} {cursor : Cursor}
    {failure : Failure} (failed : candidates tree rule cursor = .error failure) :
    rule.applies cursor = .error failure ∨
      rule.applies cursor = .ok true ∧ rule.evaluate cursor tree = .error failure := by
  unfold candidates at failed
  split at failed
  next applied => exact .inr ⟨applied, failed⟩
  next => cases failed
  next applied =>
    cases failed
    exact .inl applied

theorem Engine.mem_candidates {tree : Tree} {rule : Rule} {cursor : Cursor}
    {found : List Candidate} (given : candidates tree rule cursor = .ok found)
    {candidate : Candidate} (listed : candidate ∈ found) :
    rule.applies cursor = .ok true ∧ rule.evaluate cursor tree = .ok found := by
  unfold candidates at given
  split at given
  next applied => exact ⟨applied, given⟩
  next =>
    cases given
    cases listed
  next => cases given

namespace Catalogue

/-- A standard rule fails in one way only, over a value that cannot be looked up. -/
theorem standard_failure {rule : Rule} (standing : rule ∈ standardRules) {tree : Tree}
    {cursor : Cursor} {failure : Failure}
    (failed : Engine.candidates tree rule cursor = .error failure) :
    ∃ typeName, failure = .unhashable typeName := by
  have failing := Engine.candidates_eq_error failed
  rcases mem_standardRules_iff.mp standing with rfl | rfl | rfl | rfl | rfl
  · rcases failing with applied | ⟨_, evaluated⟩
    · exact GetterName.failure applied
    · cases evaluated
  · obtain ⟨found, answered⟩ := Initialism.evaluate_eq_ok cursor tree
    rcases failing with applied | ⟨_, evaluated⟩
    · cases applied
    · rw [answered] at evaluated
      cases evaluated
  · rcases failing with applied | ⟨_, evaluated⟩
    · cases applied
    · cases evaluated
  · rcases failing with applied | ⟨applied, evaluated⟩
    · cases applied
    · obtain ⟨found, answered⟩ := ErrorText.evaluate_of_applies tree applied
      rw [answered] at evaluated
      cases evaluated
  · rcases failing with applied | ⟨_, evaluated⟩
    · cases applied
    · cases evaluated

theorem standard_not_breaksWith {rule : Rule} (standing : rule ∈ standardRules) {tree : Tree}
    {cursor : Cursor} (member : cursor ∈ tree.walk) (escape : Escape) :
    ¬ rule.BreaksWith tree cursor escape := by
  refine Rule.not_breaksWith (fun failure failed => ?_) (fun found given candidate listed => ?_)
    escape
  · obtain ⟨typeName, rfl⟩ := standard_failure standing failed
    exact Failure.detail_of _ _
  · obtain ⟨_, evaluated⟩ := Engine.mem_candidates given listed
    obtain ⟨place, _, message, _, rfl⟩ :=
      standard_proposes standing member evaluated candidate listed
    exact RuleInfo.obstacle?_finding _ _ _

end Catalogue

/-! ## Runs with the standard rules -/

theorem Run.admitted_subset (signal : Signal) (asked : Nat) (cursors : List Cursor) :
    admitted signal asked cursors ⊆ cursors := by
  induction cursors generalizing asked with
  | nil => exact List.Subset.refl []
  | cons cursor rest ih =>
      rw [admitted]
      split
      · exact List.nil_subset _
      · exact List.cons_subset_cons cursor (ih (asked + 1))

theorem Engine.not_breaks_of_standard {engine : Engine} (standard : engine.catalogue = .standard)
    (tree : Tree) (signal : Signal) : ¬ engine.Breaks tree (tree.upTo signal) := by
  have sound : engine.catalogue.Sound := standard ▸ Catalogue.reachable_standard.sound
  refine not_breaks_of_rules sound fun rule registered cursor visited escape => ?_
  rw [standard] at registered
  exact Catalogue.standard_not_breaksWith registered
    (Run.admitted_subset signal 0 tree.walk visited) escape

end TreeLint
