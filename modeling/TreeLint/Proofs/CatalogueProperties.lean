import Mathlib.Data.List.Nodup
import TreeLint.Inspection.Engine

/-!
# Catalogues that can arise, and the engines over them

A catalogue arises from registrations and from closing. Its rules then have distinct ids, none of
them empty, and looking up the rules of a kind gives the same with and without an index. Whether an
engine can be set up is a matter of the rules, of the policy and of the number of workers only.
-/

set_option autoImplicit false

namespace TreeLint

namespace Catalogue

/-! ## Registration -/

/-- The catalogues that registrations and closing lead to. A refused rule changes nothing. -/
inductive Reachable : Catalogue → Prop where
  | empty : Reachable .empty
  | register {catalogue next : Catalogue} {rule : Rule} :
      Reachable catalogue → catalogue.register rule = .ok next → Reachable next
  | close {catalogue : Catalogue} : Reachable catalogue → Reachable catalogue.close

theorem contains_iff {catalogue : Catalogue} {id : String} :
    catalogue.contains id = true ↔ id ∈ catalogue.ids := by
  simp [contains, get?, ids, List.find?_isSome]

/-- A rule is taken exactly when the catalogue is open and the rule has a new, non-empty id. It
then stands behind all others. -/
theorem register_eq_ok_iff {catalogue next : Catalogue} {rule : Rule} :
    catalogue.register rule = .ok next ↔
      catalogue.index = none ∧ rule.id ≠ "" ∧ rule.id ∉ catalogue.ids ∧
        next = { catalogue with rules := catalogue.rules ++ [rule] } := by
  unfold register
  split
  next closed =>
    have indexed : catalogue.index ≠ none := Option.isSome_iff_ne_none.mp closed
    simp [indexed]
  next isOpen =>
    have unindexed : catalogue.index = none := by simpa [isClosed] using isOpen
    split
    next unnamed => simp [String.isEmpty_iff.mp unnamed]
    next named =>
      have nonempty : rule.id ≠ "" := fun empty => named (String.isEmpty_iff.mpr empty)
      split
      next known => simp [contains_iff.mp known]
      next unknown =>
        have absent : rule.id ∉ catalogue.ids := fun member => unknown (contains_iff.mpr member)
        simp only [Except.ok.injEq, unindexed, nonempty, absent, ne_eq, not_false_eq_true,
          true_and]
        exact eq_comm

/-- What holds of every catalogue that can arise. -/
structure Sound (catalogue : Catalogue) : Prop where
  unique : catalogue.ids.Nodup
  named : "" ∉ catalogue.ids
  indexed : catalogue.index = none ∨ catalogue.index = catalogue.close.index

theorem Sound.register {catalogue next : Catalogue} {rule : Rule} (sound : catalogue.Sound)
    (registered : catalogue.register rule = .ok next) : next.Sound := by
  obtain ⟨isOpen, nonempty, absent, rfl⟩ := register_eq_ok_iff.mp registered
  refine ⟨?_, ?_, .inl isOpen⟩
  · rw [ids, List.map_append, List.nodup_append_comm]
    exact List.nodup_cons.mpr ⟨absent, sound.unique⟩
  · rw [ids, List.map_append, List.mem_append]
    rintro (earlier | last)
    · exact sound.named earlier
    · exact nonempty (List.mem_singleton.mp last).symm

theorem Sound.close {catalogue : Catalogue} (sound : catalogue.Sound) : catalogue.close.Sound :=
  ⟨sound.unique, sound.named, .inr rfl⟩

theorem Reachable.sound {catalogue : Catalogue} (reachable : catalogue.Reachable) :
    catalogue.Sound := by
  induction reachable with
  | empty => exact ⟨List.nodup_nil, List.not_mem_nil, .inl rfl⟩
  | register _ registered ih => exact ih.register registered
  | close _ ih => exact ih.close

theorem registerAll_cons_eq_ok_iff {catalogue next : Catalogue} {rule : Rule} {rest : List Rule} :
    (catalogue.registerAll (rule :: rest)).1 = .ok next ↔
      ∃ middle, catalogue.register rule = .ok middle ∧ (middle.registerAll rest).1 = .ok next := by
  rw [registerAll]
  cases catalogue.register rule with
  | error error => simp
  | ok middle => simp

theorem registerAll_eq_ok {catalogue : Catalogue} {rules : List Rule}
    (isOpen : catalogue.index = none)
    (unique : (catalogue.ids ++ rules.map (·.id)).Nodup) (named : ∀ rule ∈ rules, rule.id ≠ "") :
    (catalogue.registerAll rules).1 =
      .ok { catalogue with rules := catalogue.rules ++ rules } := by
  induction rules generalizing catalogue with
  | nil => simp [registerAll]
  | cons rule rest ih =>
      have absent : rule.id ∉ catalogue.ids := fun member =>
        (List.disjoint_of_nodup_append unique) member List.mem_cons_self
      have registered := register_eq_ok_iff.mpr
        ⟨isOpen, named rule List.mem_cons_self, absent, rfl⟩
      refine registerAll_cons_eq_ok_iff.mpr ⟨_, registered, ?_⟩
      have later := @ih { catalogue with rules := catalogue.rules ++ [rule] } isOpen
        (by simpa [ids] using unique)
        fun other member => named other (List.mem_cons_of_mem rule member)
      simpa using later

theorem registerAll_rules {catalogue next : Catalogue} {rules : List Rule}
    (registered : (catalogue.registerAll rules).1 = .ok next) :
    next.rules = catalogue.rules ++ rules := by
  induction rules generalizing catalogue with
  | nil =>
      cases registered
      rw [List.append_nil]
  | cons rule rest ih =>
      obtain ⟨middle, step, later⟩ := registerAll_cons_eq_ok_iff.mp registered
      obtain ⟨_, _, _, rfl⟩ := register_eq_ok_iff.mp step
      rw [ih later, List.append_assoc, List.singleton_append]

theorem Reachable.registerAll {catalogue next : Catalogue} {rules : List Rule}
    (reachable : catalogue.Reachable) (registered : (catalogue.registerAll rules).1 = .ok next) :
    next.Reachable := by
  induction rules generalizing catalogue with
  | nil =>
      cases registered
      exact reachable
  | cons rule rest ih =>
      obtain ⟨middle, step, later⟩ := registerAll_cons_eq_ok_iff.mp registered
      exact ih (reachable.register step) later

theorem reachable_standard : standard.Reachable := by
  have registered := @registerAll_eq_ok empty standardRules rfl (by decide) (by decide)
  exact (Reachable.empty.registerAll registered).close

/-! ## Look-up -/

theorem lookup_index (catalogue : Catalogue) (kind : Kind) :
    List.lookup kind (Kind.all.map fun kind => (kind, catalogue.collect kind)) =
      some (catalogue.collect kind) := by
  cases kind <;> rfl

theorem Sound.rulesFor {catalogue : Catalogue} (sound : catalogue.Sound) (kind : Kind) :
    catalogue.rulesFor kind = catalogue.rules.filter fun rule => rule.isFor kind := by
  unfold Catalogue.rulesFor
  rcases sound.indexed with unindexed | indexed
  · rw [unindexed]
    rfl
  · rw [indexed]
    simp only [Catalogue.close, Option.bind_some, lookup_index]
    rfl

/-- The catalogue as an engine holds it. -/
def sealed (catalogue : Catalogue) : Catalogue :=
  if catalogue.isClosed then catalogue else catalogue.close

@[simp] theorem sealed_rules (catalogue : Catalogue) : catalogue.sealed.rules = catalogue.rules := by
  unfold sealed
  split <;> rfl

@[simp] theorem sealed_contains (catalogue : Catalogue) :
    catalogue.sealed.contains = catalogue.contains := by
  funext id
  rw [Catalogue.contains, Catalogue.get?, sealed_rules]
  rfl

theorem Sound.sealed {catalogue : Catalogue} (sound : catalogue.Sound) : catalogue.sealed.Sound := by
  unfold Catalogue.sealed
  split
  · exact sound
  · exact sound.close

end Catalogue

/-! ## Setting up an engine -/

namespace Policy

/-- A policy fits the rules there are exactly when its globs are well formed and every rule that it
excludes or overrides is there. -/
theorem problems_eq_nil_iff {policy : Policy} {isRule : String → Bool} :
    policy.problems isRule = [] ↔
      (∀ exclusion ∈ policy.allExclusions, Glob.problem? exclusion.pattern = none ∧
        ∀ id, exclusion.ruleId = some id → isRule id = true) ∧
      ∀ entry ∈ policy.overrides, isRule entry.1 = true := by
  rw [problems, List.append_eq_nil_iff, List.flatMap_eq_nil_iff, List.map_eq_nil_iff,
    List.filter_eq_nil_iff]
  refine and_congr (forall₂_congr fun exclusion _ => ?_) ?_
  · rw [exclusionProblems, List.append_eq_nil_iff, Option.toList_eq_nil_iff, Option.map_eq_none_iff]
    refine and_congr_right fun _ => ?_
    cases exclusion.ruleId with
    | none => simp
    | some id =>
        by_cases known : isRule id = true <;> simp [known]
  · simp [sorted]

theorem problems_eq_nil_of_le {policy : Policy} {fewer more : String → Bool}
    (le : ∀ id, fewer id = true → more id = true) (fits : policy.problems fewer = []) :
    policy.problems more = [] := by
  obtain ⟨exclusions, overrides⟩ := problems_eq_nil_iff.mp fits
  refine problems_eq_nil_iff.mpr ⟨fun exclusion member => ?_, fun entry member => ?_⟩
  · obtain ⟨glob, known⟩ := exclusions exclusion member
    exact ⟨glob, fun id named => le id (known id named)⟩
  · exact le entry.1 (overrides entry member)

theorem allExclusions_subset {policy wider : Policy}
    (excludedPaths : policy.excludedPaths ⊆ wider.excludedPaths)
    (exclusions : policy.exclusions ⊆ wider.exclusions) :
    policy.allExclusions ⊆ wider.allExclusions := by
  intro exclusion member
  rcases List.mem_append.mp member with blanket | own
  · obtain ⟨pattern, listed, rfl⟩ := List.mem_map.mp blanket
    have excluded := excludedPaths (List.mem_mergeSort.mp listed)
    exact List.mem_append_left _ (List.mem_map_of_mem (List.mem_mergeSort.mpr excluded))
  · exact List.mem_append_right _ (exclusions own)

end Policy

namespace Engine

theorem create_eq_ok_iff {catalogue : Catalogue} {policy : Policy} {workers : Int}
    {engine : Engine} :
    (create catalogue policy workers).1 = .ok engine ↔
      1 ≤ workers ∧ policy.problems catalogue.contains = [] ∧
        (∃ rule ∈ catalogue.rules, policy.disables rule.id = false) ∧
          engine = ⟨catalogue.sealed, policy, workers.toNat⟩ := by
  have folded : (if catalogue.isClosed then catalogue else catalogue.close) = catalogue.sealed := rfl
  unfold create
  by_cases few : workers < 1
  · simp only [few, ↓reduceIte, reduceCtorEq, false_iff, not_and]
    intro enough
    omega
  · have enough : 1 ≤ workers := by omega
    simp only [few, ↓reduceIte, folded, Catalogue.sealed_rules, Catalogue.sealed_contains, enough,
      true_and]
    by_cases none : catalogue.rules = []
    · simp [none]
    · rw [if_neg (by simpa using none)]
      cases found : policy.problems catalogue.contains with
      | cons problem rest => simp
      | nil =>
          simp only [true_and]
          split
          next allDisabled =>
            have disabled : ¬ ∃ rule ∈ catalogue.rules, policy.disables rule.id = false := by
              simpa using allDisabled
            simp [disabled]
          next someEnabled =>
            have enabled : ∃ rule ∈ catalogue.rules, policy.disables rule.id = false := by
              simpa using someEnabled
            simp only [Except.ok.injEq, enabled, true_and]
            exact eq_comm

theorem create_fields {catalogue : Catalogue} {policy : Policy} {workers : Int} {engine : Engine}
    (created : (create catalogue policy workers).1 = .ok engine) :
    engine.catalogue = catalogue.sealed ∧ engine.policy = policy := by
  obtain ⟨_, _, _, rfl⟩ := create_eq_ok_iff.mp created
  exact ⟨rfl, rfl⟩

/-- The neutral policy fits all rules. -/
theorem create_neutral {catalogue : Catalogue} {workers : Int} (enough : 1 ≤ workers)
    (nonempty : catalogue.rules ≠ []) :
    (create catalogue .neutral workers).1 = .ok ⟨catalogue.sealed, .neutral, workers.toNat⟩ := by
  have fits : Policy.neutral.problems catalogue.contains = [] := by
    simp [Policy.problems, Policy.allExclusions, Policy.neutral, sorted]
  obtain ⟨rule, member⟩ := List.exists_mem_of_ne_nil _ nonempty
  exact create_eq_ok_iff.mpr ⟨enough, fits, ⟨rule, member, rfl⟩, rfl⟩

theorem create_standard : (create .standard .neutral 1).1 = .ok ⟨.standard, .neutral, 1⟩ :=
  create_neutral (by decide) (List.cons_ne_nil _ _)

end Engine

end TreeLint
