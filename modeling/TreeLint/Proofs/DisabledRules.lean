import TreeLint.Proofs.RunProperties

/-!
# Disabled rules and rules that are not there

Disabled rules stay in the catalogue and are passed over when rules are chosen for a node. A run
therefore ends as over a catalogue without them, under a policy that disables nothing.
-/

set_option autoImplicit false

namespace TreeLint

/-- The policy with all rules in use. -/
def Policy.enablingAll (policy : Policy) : Policy :=
  { policy with disabledRules := [] }

namespace Catalogue

/-- The rules that a policy leaves in use. -/
def leftBy (policy : Policy) (catalogue : Catalogue) : List Rule :=
  catalogue.rules.filter fun rule => rule.id ∉ policy.disabledRules

theorem leftBy_sealed (policy : Policy) (catalogue : Catalogue) :
    catalogue.sealed.leftBy policy = catalogue.leftBy policy := by
  rw [leftBy, sealed_rules, leftBy]

theorem registerAll_leftBy {catalogue : Catalogue} (sound : catalogue.Sound) (policy : Policy) :
    (empty.registerAll (catalogue.leftBy policy)).1 = .ok ⟨catalogue.leftBy policy, none⟩ := by
  have part : ((catalogue.leftBy policy).map (·.id)).Sublist catalogue.ids :=
    List.filter_sublist.map _
  refine registerAll_eq_ok rfl (part.nodup sound.unique) ?_
  intro rule member unnamed
  apply sound.named
  rw [← unnamed]
  exact part.subset (List.mem_map_of_mem member)

theorem contains_leftBy {catalogue : Catalogue} {policy : Policy} {id : String}
    (known : catalogue.contains id = true) (enabled : id ∉ policy.disabledRules) :
    contains ⟨catalogue.leftBy policy, none⟩ id = true := by
  rw [contains_iff] at known ⊢
  obtain ⟨rule, member, rfl⟩ := List.mem_map.mp known
  exact List.mem_map_of_mem (List.mem_filter.mpr ⟨member, decide_eq_true enabled⟩)

end Catalogue

/-- A policy that fits the rules and says nothing of those that it disables fits the others. -/
theorem Policy.problems_leftBy {policy : Policy} {catalogue : Catalogue}
    (overrides : ∀ entry ∈ policy.overrides, entry.1 ∉ policy.disabledRules)
    (exclusions : ∀ exclusion ∈ policy.exclusions, ∀ id, exclusion.ruleId = some id →
      id ∉ policy.disabledRules)
    (fits : policy.problems catalogue.contains = []) :
    policy.enablingAll.problems (Catalogue.contains ⟨catalogue.leftBy policy, none⟩) = [] := by
  obtain ⟨excluded, overridden⟩ := problems_eq_nil_iff.mp fits
  refine problems_eq_nil_iff.mpr ⟨fun exclusion member => ?_, fun entry member => ?_⟩
  · obtain ⟨glob, known⟩ := excluded exclusion member
    refine ⟨glob, fun id named => Catalogue.contains_leftBy (known id named) ?_⟩
    -- An exclusion that names a rule does not come from an excluded path.
    rcases List.mem_append.mp member with blanket | own
    · obtain ⟨pattern, _, rfl⟩ := List.mem_map.mp blanket
      cases named
    · exact exclusions exclusion own id named
  · exact Catalogue.contains_leftBy (overridden entry member) (overrides entry member)

namespace Engine

/-- The engine over the rules in use only. -/
def withoutDisabled (engine : Engine) : Engine :=
  ⟨Catalogue.sealed ⟨engine.catalogue.leftBy engine.policy, none⟩, engine.policy.enablingAll,
    engine.workers⟩

theorem rules_withoutDisabled (engine : Engine) :
    engine.withoutDisabled.catalogue.rules = engine.catalogue.rules.filter engine.enables := by
  refine (Catalogue.sealed_rules _).trans (List.filter_congr fun rule _ => ?_)
  simp [enables, Policy.disables]

theorem withoutDisabled_enables (engine : Engine) (rule : Rule) :
    engine.withoutDisabled.enables rule = true := rfl

/-- Rules are passed over where they are chosen, for a node as for the whole tree, just as if they
were not there. -/
theorem withoutDisabled_rulesAt {engine : Engine} (sound : engine.catalogue.Sound) :
    engine.withoutDisabled.rulesAt = engine.rulesAt := by
  have registered := Catalogue.registerAll_leftBy sound engine.policy
  have leftSound : engine.withoutDisabled.catalogue.Sound :=
    (Catalogue.Reachable.empty.registerAll registered).sound.sealed
  funext cursor
  rw [rulesAt_eq leftSound, rulesAt_eq sound, rules_withoutDisabled, List.filter_filter,
    List.filter_filter]
  have ofNode : (fun rule => engine.withoutDisabled.asksOfNode cursor rule && engine.enables rule) =
      engine.asksOfNode cursor := by
    funext rule
    rw [asksOfNode, asksOfNode, withoutDisabled_enables, Bool.true_and, Bool.and_comm,
      Bool.and_assoc]
  have ofTree : (fun rule => engine.withoutDisabled.asksOfTree rule && engine.enables rule) =
      engine.asksOfTree := by
    funext rule
    rw [asksOfTree, asksOfTree, withoutDisabled_enables, Bool.true_and, Bool.and_comm]
  rw [ofNode, ofTree]

theorem outcome_withoutDisabled {engine : Engine} (sound : engine.catalogue.Sound) (tree : Tree) :
    engine.withoutDisabled.outcome tree = engine.outcome tree :=
  outcome_congr (withoutDisabled_rulesAt sound) (fun _ _ => rfl) tree

theorem stop?_withoutDisabled {engine : Engine} (sound : engine.catalogue.Sound) (tree : Tree)
    (sheet : WaiverSheet) :
    engine.withoutDisabled.stop? tree sheet = engine.stop? tree sheet :=
  stop?_congr (withoutDisabled_rulesAt sound) (fun _ _ => rfl) tree sheet

end Engine

/-- Under a policy that says nothing else of the rules it disables, a run ends as if they had never
been registered, wherever its signal stops it. Over a path that is a text this is a report, unless
one of the rules in use breaks the run. -/
theorem Run.execute_withoutDisabled {catalogue : Catalogue} (reachable : catalogue.Reachable)
    {policy : Policy} {workers : Int} {engine : Engine}
    (created : (Engine.create catalogue policy workers).1 = .ok engine)
    (overrides : ∀ entry ∈ policy.overrides, entry.1 ∉ policy.disabledRules)
    (exclusions : ∀ exclusion ∈ policy.exclusions, ∀ id, exclusion.ruleId = some id →
      id ∉ policy.disabledRules) :
    ∃ remaining narrow,
      (Catalogue.empty.registerAll
        (catalogue.rules.filter fun rule => rule.id ∉ policy.disabledRules)).1 = .ok remaining ∧
      (Engine.create remaining { policy with disabledRules := [] } workers).1 = .ok narrow ∧
      ∀ (tree : Tree) (signal : Signal),
        ((start narrow tree).execute signal).result = ((start engine tree).execute signal).result ∧
          ∀ path, tree.path = .text path →
            ((∃ report, ((start narrow tree).execute signal).result = .ok report) ↔
              ¬ narrow.Breaks tree (tree.upTo signal)) := by
  obtain ⟨staffed, fits, ⟨rule, member, enabled⟩, rfl⟩ := Engine.create_eq_ok_iff.mp created
  have left : rule ∈ catalogue.leftBy policy :=
    List.mem_filter.mpr ⟨member, by simpa [Policy.disables] using enabled⟩
  refine ⟨⟨catalogue.leftBy policy, none⟩,
    Engine.withoutDisabled ⟨catalogue.sealed, policy, workers.toNat⟩,
    Catalogue.registerAll_leftBy reachable.sound policy,
    Engine.create_eq_ok_iff.mpr ⟨staffed, Policy.problems_leftBy overrides exclusions fits,
      ⟨rule, left, rfl⟩, ?_⟩, fun tree signal => ⟨?_, fun path named => execute_reports_iff named⟩⟩
  · rw [Engine.withoutDisabled, Catalogue.leftBy_sealed]
    rfl
  · rw [execute_result, execute_result, Engine.outcome_withoutDisabled reachable.sound.sealed,
      Engine.stop?_withoutDisabled reachable.sound.sealed]
    rfl

theorem Run.execute_withoutDisabled_getter :
    let policy : Policy := ⟨["*.md"], ["naming.getter-prefix", "absent"],
      [("imports.duplicate", .error)], [⟨"gen/*", some "imports.duplicate"⟩]⟩
    (Engine.create .standard policy 3).1 = .ok ⟨.standard, policy, 3⟩ ∧
      ∃ remaining narrow,
        (Catalogue.empty.registerAll
          (Catalogue.standard.rules.filter fun rule => rule.id ∉ policy.disabledRules)).1 =
            .ok remaining ∧
        (Engine.create remaining { policy with disabledRules := [] } 3).1 = .ok narrow ∧
        ∀ (tree : Tree) (signal : Signal),
          ((start narrow tree).execute signal).result =
              ((start ⟨.standard, policy, 3⟩ tree).execute signal).result ∧
            ∀ path, tree.path = .text path →
              ((∃ report, ((start narrow tree).execute signal).result = .ok report) ↔
                ¬ narrow.Breaks tree (tree.upTo signal)) := by
  intro policy
  have created : (Engine.create .standard policy 3).1 = .ok ⟨.standard, policy, 3⟩ :=
    Engine.create_eq_ok_iff.mpr ⟨by decide, by decide +kernel, by decide, rfl⟩
  refine ⟨created, execute_withoutDisabled Catalogue.reachable_standard created (by decide) ?_⟩
  intro exclusion member id named
  obtain rfl := List.mem_singleton.mp member
  obtain rfl := Option.some.inj named
  decide

end TreeLint
