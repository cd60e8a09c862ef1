import TreeLint.Proofs.ApplicableRules
import TreeLint.Proofs.PolicyMerging

/-!
# Setting up engines

Four conditions are looked at one after the other: the number of workers, whether there are rules,
whether the policy fits them, and whether it leaves one of them in use. A policy that does not fit
is reported with all its defects, each once and in a fixed order.
-/

set_option autoImplicit false

namespace TreeLint

namespace Policy

/-! ## Defects -/

/-- One way in which a policy does not fit the rules there are. An exclusion counts by its position
among all exclusions. -/
inductive Defect where
  | glob (index : Nat)
  | excludedRule (index : Nat)
  | overriddenRule (id : String)

/-- Exclusions come by position, each with its glob before its rule, and then overrides by id. -/
def Defect.Precedes : Defect → Defect → Prop
  | glob index, glob other => index < other
  | glob index, excludedRule other => index ≤ other
  | excludedRule index, glob other => index < other
  | excludedRule index, excludedRule other => index < other
  | overriddenRule id, overriddenRule other => id < other
  | overriddenRule _, _ => False
  | _, overriddenRule _ => True

/-- The policy has a defect, given the ids of the rules there are, and a problem is what is said of
it. -/
inductive Shows (policy : Policy) (ids : List String) : Defect → PolicyProblem → Prop where
  | glob {index : Nat} {exclusion : Exclusion} {reason : Glob.Problem} :
      policy.allExclusions[index]? = some exclusion →
      Glob.problem? exclusion.pattern = some reason →
      Shows policy ids (.glob index) (.badGlob exclusion.pattern reason)
  | excludedRule {index : Nat} {exclusion : Exclusion} {id : String} :
      policy.allExclusions[index]? = some exclusion → exclusion.ruleId = some id → id ∉ ids →
      Shows policy ids (.excludedRule index) (.unknownExcludedRule exclusion.pattern id)
  | overriddenRule {id : String} {severity : Severity} :
      (id, severity) ∈ policy.overrides → id ∉ ids →
      Shows policy ids (.overriddenRule id) (.unknownOverriddenRule id)

/-- The problems are those of all defects, in their order. -/
structure Lists (policy : Policy) (ids : List String) (defects : List Defect)
    (problems : List PolicyProblem) : Prop where
  inOrder : defects.Pairwise Defect.Precedes
  each : List.Forall₂ (policy.Shows ids) defects problems
  all : ∀ defect problem, policy.Shows ids defect problem → defect ∈ defects

theorem Lists.eq_nil_iff {policy : Policy} {ids : List String} {defects : List Defect}
    {problems : List PolicyProblem} (lists : policy.Lists ids defects problems) :
    problems = [] ↔ ¬ ∃ defect problem, policy.Shows ids defect problem := by
  cases lists.each with
  | nil =>
      refine iff_of_true rfl ?_
      intro ⟨defect, problem, shown⟩
      cases lists.all defect problem shown
  | cons shown _ =>
      refine iff_of_false (List.cons_ne_nil _ _) ?_
      intro none
      exact none ⟨_, _, shown⟩

/-! ## The defects of exclusions -/

/-- The defects of the exclusion at a position. -/
def exclusionDefects (isRule : String → Bool) (exclusion : Exclusion) (index : Nat) : List Defect :=
  ((Glob.problem? exclusion.pattern).map fun _ => Defect.glob index).toList ++
    match exclusion.ruleId with
    | some id => if isRule id then [] else [.excludedRule index]
    | none => []

variable {policy : Policy} {isRule : String → Bool} {ids : List String}

theorem mem_exclusionDefects {exclusion : Exclusion} {index : Nat} {defect : Defect} :
    defect ∈ exclusionDefects isRule exclusion index ↔
      (defect = .glob index ∧ ∃ reason, Glob.problem? exclusion.pattern = some reason) ∨
        (defect = .excludedRule index ∧ ∃ id, exclusion.ruleId = some id ∧ isRule id = false) := by
  unfold exclusionDefects
  rw [List.mem_append]
  apply or_congr
  · cases Glob.problem? exclusion.pattern <;> simp
  · cases exclusion.ruleId with
    | none => simp
    | some id => simp [and_comm]

theorem shows_exclusionDefects (known : ∀ id, isRule id = true ↔ id ∈ ids) {exclusion : Exclusion}
    {index : Nat} (placed : policy.allExclusions[index]? = some exclusion) :
    List.Forall₂ (policy.Shows ids) (exclusionDefects isRule exclusion index)
      (exclusionProblems isRule exclusion) := by
  unfold exclusionDefects exclusionProblems
  apply List.rel_append
  · cases malformed : Glob.problem? exclusion.pattern with
    | none => exact .nil
    | some reason => exact .cons (.glob placed malformed) .nil
  · cases named : exclusion.ruleId with
    | none => exact .nil
    | some id =>
        dsimp only
        by_cases registered : isRule id = true
        · rw [if_pos registered, if_pos registered]
          exact .nil
        · rw [if_neg registered, if_neg registered]
          exact .cons (.excludedRule placed named ((known id).not.mp registered)) .nil

theorem precedes_of_mem_exclusionDefects {exclusion other : Exclusion} {index later : Nat}
    (before : index < later) {defect next : Defect}
    (first : defect ∈ exclusionDefects isRule exclusion index)
    (second : next ∈ exclusionDefects isRule other later) : defect.Precedes next := by
  obtain ⟨rfl, _⟩ | ⟨rfl, _⟩ := mem_exclusionDefects.mp first <;>
    obtain ⟨rfl, _⟩ | ⟨rfl, _⟩ := mem_exclusionDefects.mp second
  · exact before
  · exact Nat.le_of_lt before
  · exact before
  · exact before

theorem pairwise_exclusionDefects (exclusion : Exclusion) (index : Nat) :
    (exclusionDefects isRule exclusion index).Pairwise Defect.Precedes := by
  unfold exclusionDefects
  cases exclusion.ruleId with
  | none => cases Glob.problem? exclusion.pattern <;> simp
  | some id =>
      by_cases registered : isRule id = true <;> cases Glob.problem? exclusion.pattern <;>
        simp [registered, Defect.Precedes]

/-! ## All defects -/

/-- All defects of a policy in their order. -/
def defects (policy : Policy) (isRule : String → Bool) : List Defect :=
  policy.allExclusions.zipIdx.flatMap (fun entry => exclusionDefects isRule entry.1 entry.2) ++
    ((sorted (policy.overrides.map (·.1))).filter fun id => !isRule id).map .overriddenRule

theorem mem_exclusions_defects {defect : Defect} :
    defect ∈ policy.allExclusions.zipIdx.flatMap
        (fun entry => exclusionDefects isRule entry.1 entry.2) ↔
      ∃ exclusion index, policy.allExclusions[index]? = some exclusion ∧
        defect ∈ exclusionDefects isRule exclusion index := by
  rw [List.mem_flatMap]
  constructor
  · intro ⟨⟨exclusion, index⟩, placed, listed⟩
    exact ⟨exclusion, index, List.mk_mem_zipIdx_iff_getElem?.mp placed, listed⟩
  · intro ⟨exclusion, index, placed, listed⟩
    exact ⟨(exclusion, index), List.mk_mem_zipIdx_iff_getElem?.mpr placed, listed⟩

theorem pairwise_defects (keyed : policy.Keyed) :
    (policy.defects isRule).Pairwise Defect.Precedes := by
  unfold defects
  apply List.pairwise_append.mpr
  refine ⟨List.pairwise_flatMap.mpr ⟨?within, ?between⟩, ?overrides, ?across⟩
  case within =>
    intro entry _
    exact pairwise_exclusionDefects entry.1 entry.2
  case between =>
    apply (pairwise_zipIdx policy.allExclusions).imp
    intro entry later before defect first next second
    exact precedes_of_mem_exclusionDefects before first second
  case overrides =>
    rw [List.pairwise_map]
    exact (pairwise_lt_sorted keyed).filter _
  case across =>
    intro defect exclusion override named
    obtain ⟨id, _, rfl⟩ := List.mem_map.mp named
    obtain ⟨_, _, _, listed⟩ := mem_exclusions_defects.mp exclusion
    obtain ⟨rfl, _⟩ | ⟨rfl, _⟩ := mem_exclusionDefects.mp listed
    · trivial
    · trivial

theorem shows_defects (known : ∀ id, isRule id = true ↔ id ∈ ids) :
    List.Forall₂ (policy.Shows ids) (policy.defects isRule) (policy.problems isRule) := by
  unfold defects problems
  apply List.rel_append
  · rw [← flatMap_zipIdx policy.allExclusions]
    apply forall₂_flatMap
    intro ⟨exclusion, index⟩ placed
    exact shows_exclusionDefects known (List.mk_mem_zipIdx_iff_getElem?.mp placed)
  · rw [List.forall₂_map_left_iff, List.forall₂_map_right_iff, List.forall₂_same]
    intro id listed
    obtain ⟨overridden, unknown⟩ := List.mem_filter.mp listed
    obtain ⟨entry, member, rfl⟩ := List.mem_map.mp ((sorted_perm _).mem_iff.mp overridden)
    refine .overriddenRule member ?_
    rw [← known]
    simpa using unknown

theorem mem_defects_of_shows (known : ∀ id, isRule id = true ↔ id ∈ ids) {defect : Defect}
    {problem : PolicyProblem} (shown : policy.Shows ids defect problem) :
    defect ∈ policy.defects isRule := by
  have unknown {id : String} (absent : id ∉ ids) : isRule id = false :=
    Bool.eq_false_iff.mpr ((known id).not.mpr absent)
  unfold defects
  rw [List.mem_append, mem_exclusions_defects]
  cases shown with
  | glob placed malformed =>
      exact .inl ⟨_, _, placed, mem_exclusionDefects.mpr (.inl ⟨rfl, _, malformed⟩)⟩
  | excludedRule placed named absent =>
      exact .inl ⟨_, _, placed, mem_exclusionDefects.mpr (.inr ⟨rfl, _, named, unknown absent⟩)⟩
  | overriddenRule member absent =>
      refine .inr (List.mem_map_of_mem (List.mem_filter.mpr ⟨?_, ?_⟩))
      · exact (sorted_perm _).mem_iff.mpr (List.mem_map_of_mem member)
      · rw [unknown absent]
        rfl

theorem lists_problems (keyed : policy.Keyed) (known : ∀ id, isRule id = true ↔ id ∈ ids) :
    policy.Lists ids (policy.defects isRule) (policy.problems isRule) where
  inOrder := pairwise_defects keyed
  each := shows_defects known
  all _ _ := mem_defects_of_shows known

end Policy

/-! ## The outcome -/

namespace Engine

variable {catalogue : Catalogue} {policy : Policy} {workers : Int}

theorem create_eq (catalogue : Catalogue) (policy : Policy) (workers : Int) :
    (create catalogue policy workers).1 =
      if workers < 1 then .error .noWorkers
      else if catalogue.rules = [] then .error .noRules
      else if policy.problems catalogue.contains ≠ [] then
        .error (.policy (policy.problems catalogue.contains))
      else if ∀ id ∈ catalogue.ids, id ∈ policy.disabledRules then .error .allDisabled
      else .ok ⟨catalogue.sealed, policy, workers.toNat⟩ := by
  have folded : (if catalogue.isClosed then catalogue else catalogue.close) = catalogue.sealed := rfl
  have disabled : (catalogue.rules.all fun rule => policy.disables rule.id) = true ↔
      ∀ id ∈ catalogue.ids, id ∈ policy.disabledRules := by
    simp [Policy.disables, Catalogue.ids]
  unfold create
  by_cases few : workers < 1
  · rw [if_pos few, if_pos few]
  · rw [if_neg few, if_neg few]
    simp only [folded, Catalogue.sealed_rules, Catalogue.sealed_contains, List.isEmpty_iff, disabled]
    by_cases none : catalogue.rules = []
    · rw [if_pos none, if_pos none]
    · rw [if_neg none, if_neg none]
      cases policy.problems catalogue.contains with
      | nil =>
          rw [if_neg (not_not_intro rfl)]
          by_cases all : ∀ id ∈ catalogue.ids, id ∈ policy.disabledRules
          · rw [if_pos all, if_pos all]
          · rw [if_neg all, if_neg all]
      | cons problem rest => rw [if_pos (List.cons_ne_nil _ _)]

/-- How setting up an engine turns out. -/
structure Settled (catalogue : Catalogue) (policy : Policy) (workers : Int)
    (result : Except SetupError Engine) : Prop where
  noWorkers : result = .error .noWorkers ↔ workers < 1
  noRules : result = .error .noRules ↔ 1 ≤ workers ∧ catalogue.rules = []
  unfit : (∃ problems, result = .error (.policy problems)) ↔
    1 ≤ workers ∧ catalogue.rules ≠ [] ∧
      ∃ defect problem, policy.Shows catalogue.ids defect problem
  listed : ∀ problems, result = .error (.policy problems) →
    ∃ defects, policy.Lists catalogue.ids defects problems
  /-- Among all exclusions, the excluded paths come first and in ascending order. -/
  ordered : ∃ patterns : List String, patterns.Perm policy.excludedPaths ∧ patterns.Pairwise (· ≤ ·) ∧
    policy.allExclusions = patterns.map (fun pattern => ⟨pattern, none⟩) ++ policy.exclusions
  allDisabled : result = .error .allDisabled ↔
    1 ≤ workers ∧ catalogue.rules ≠ [] ∧
      (¬ ∃ defect problem, policy.Shows catalogue.ids defect problem) ∧
        ∀ id ∈ catalogue.ids, id ∈ policy.disabledRules
  succeeds : (∃ engine, result = .ok engine) ↔
    1 ≤ workers ∧ catalogue.rules ≠ [] ∧
      (¬ ∃ defect problem, policy.Shows catalogue.ids defect problem) ∧
        ¬ ∀ id ∈ catalogue.ids, id ∈ policy.disabledRules
  /-- The engine holds the same rules, closed to further ones, and some of them are in use. -/
  built : ∀ engine, result = .ok engine →
    engine.catalogue.isClosed = true ∧ engine.catalogue.rules = catalogue.rules ∧
      engine.policy = policy ∧ (engine.workers : Int) = workers ∧ engine.enabledRules ≠ []

theorem enabledRules_ne_nil {engine : Engine}
    (enabled : ¬ ∀ id ∈ engine.catalogue.ids, id ∈ engine.policy.disabledRules) :
    engine.enabledRules ≠ [] := by
  push Not at enabled
  obtain ⟨id, listed, undisabled⟩ := enabled
  obtain ⟨rule, member, rfl⟩ := List.mem_map.mp listed
  apply List.ne_nil_of_mem
  refine List.mem_filter.mpr ⟨member, ?_⟩
  simpa [enables, Policy.disables] using undisabled

/-- Disabling rules that are not there changes no failure into another, nor into an engine. -/
theorem create_disabling {ids : List String} (absent : ∀ id ∈ ids, id ∉ catalogue.ids)
    (error : SetupError) :
    (create catalogue { policy with disabledRules := ids ++ policy.disabledRules } workers).1 =
        .error error ↔
      (create catalogue policy workers).1 = .error error := by
  have disabled : (∀ id ∈ catalogue.ids, id ∈ ids ++ policy.disabledRules) ↔
      ∀ id ∈ catalogue.ids, id ∈ policy.disabledRules := by
    refine forall₂_congr fun id member => ?_
    rw [List.mem_append, or_iff_right fun listed => absent id listed member]
  have same : Policy.problems { policy with disabledRules := ids ++ policy.disabledRules }
      catalogue.contains = policy.problems catalogue.contains := rfl
  rw [create_eq, create_eq]
  simp only [disabled, same]
  split_ifs <;> simp

/-- Whether an engine can be set up, and what is said when it cannot, is a matter of the workers, of
there being rules, of the defects of the policy and of the rules it leaves in use, looked at in this
order. Disabled rules that are not there do no harm. -/
theorem create_settled (catalogue : Catalogue) {policy : Policy} (keyed : policy.Keyed)
    (workers : Int) :
    Settled catalogue policy workers (create catalogue policy workers).1 ∧
      ∀ ids : List String, (∀ id ∈ ids, id ∉ catalogue.ids) → ∀ error,
        (create catalogue { policy with disabledRules := ids ++ policy.disabledRules } workers).1 =
            .error error ↔
          (create catalogue policy workers).1 = .error error := by
  have lists : policy.Lists catalogue.ids _ (policy.problems catalogue.contains) :=
    Policy.lists_problems keyed fun _ => Catalogue.contains_iff
  have fits := lists.eq_nil_iff
  have enough : 1 ≤ workers ↔ ¬ workers < 1 := Int.not_lt.symm
  refine ⟨?_, fun ids absent error => create_disabling absent error⟩
  rw [create_eq]
  refine {
    noWorkers := ?noWorkers, noRules := ?noRules, unfit := ?unfit, listed := ?listed,
    ordered := ?ordered, allDisabled := ?allDisabled, succeeds := ?succeeds, built := ?built }
  -- Each outcome stands behind the conditions of those before it, so no two of them meet.
  case noWorkers => split_ifs <;> grind
  case noRules => split_ifs <;> grind
  case unfit => split_ifs <;> grind
  case allDisabled => split_ifs <;> grind
  case succeeds => split_ifs <;> grind
  case listed =>
    intro problems
    split_ifs
    · nofun
    · nofun
    · intro reported
      cases reported
      exact ⟨_, lists⟩
    · nofun
    · nofun
  case ordered => exact ⟨_, sorted_perm _, pairwise_sorted _, rfl⟩
  case built =>
    intro engine
    split_ifs with few none unfit all
    · nofun
    · nofun
    · nofun
    · nofun
    · intro created
      cases created
      refine ⟨catalogue.sealed_isClosed, catalogue.sealed_rules, rfl, ?_, ?_⟩
      · exact Int.toNat_of_nonneg (by omega)
      · apply enabledRules_ne_nil
        rwa [Catalogue.ids, catalogue.sealed_rules]

/-- Two of its globs are malformed, one of these for a rule that is not there, and it overrides one
such rule and disables another. -/
def misfit : Policy :=
  ⟨["a["], ["naming.all"], [("naming.getter", .info)],
    [⟨"[[", some "imports.repeated"⟩, ⟨"*.go", some "imports.duplicate"⟩]⟩

theorem create_settled_misfit :
    misfit.Keyed ∧ ∃ problems defects,
      (create .standard misfit 2).1 = .error (.policy problems) ∧
        misfit.Lists Catalogue.standard.ids defects problems ∧
          problems.map PolicyProblem.message =
            ["malformed glob 'a[': unbalanced '['", "malformed glob '[[': nested '['",
              "exclusion for '[[' names unknown rule 'imports.repeated'",
              "severity override names unknown rule 'naming.getter'"] := by
  have keyed : misfit.Keyed := by
    unfold Policy.Keyed
    decide
  have told : (misfit.problems Catalogue.standard.contains).map PolicyProblem.message =
      ["malformed glob 'a[': unbalanced '['", "malformed glob '[[': nested '['",
        "exclusion for '[[' names unknown rule 'imports.repeated'",
        "severity override names unknown rule 'naming.getter'"] := by
    decide +kernel
  have unfit : misfit.problems Catalogue.standard.contains ≠ [] := by
    intro none
    rw [none] at told
    cases told
  have created : (create .standard misfit 2).1 =
      .error (.policy (misfit.problems Catalogue.standard.contains)) := by
    have present : Catalogue.standard.rules ≠ [] := List.cons_ne_nil _ _
    rw [create_eq, if_neg (by decide), if_neg present, if_pos unfit]
  obtain ⟨defects, lists⟩ := (create_settled .standard keyed 2).1.listed _ created
  exact ⟨keyed, _, defects, created, lists, told⟩

end Engine

end TreeLint
