import TreeLint.Proofs.ReferenceReport

/-!
# What more exclusions change

A policy that excludes more silences findings and does nothing else: a finding is left out of the
report exactly when an added exclusion covers it, and is counted as suppressed instead. This rests
on waivers deciding by key, so that no key is both reported and counted as suppressed.
-/

set_option autoImplicit false

namespace TreeLint

/-! ## Exit codes -/

/-- Fewer findings do not make an exit code graver. -/
theorem Report.exitCode_le_of_sublist {fewer more : Report}
    (findings : fewer.findings.Sublist more.findings) (faults : fewer.faults = more.faults) :
    fewer.exitCode ≤ more.exitCode :=
  exitCode_le_of_subset findings.subset fun faulted => faults ▸ faulted

/-! ## Policies that exclude more -/

namespace Policy

/-- The second policy is the first with further excluded paths and exclusions. -/
structure ExcludesMore (policy wider : Policy) : Prop where
  disables : ∀ id, wider.disables id = policy.disables id
  severityFor : ∀ id own, wider.severityFor id own = policy.severityFor id own
  excludedPaths : policy.excludedPaths ⊆ wider.excludedPaths
  exclusions : policy.exclusions ⊆ wider.exclusions

theorem ExcludesMore.allExclusions {policy wider : Policy} (more : policy.ExcludesMore wider) :
    policy.allExclusions ⊆ wider.allExclusions :=
  allExclusions_subset more.excludedPaths more.exclusions

end Policy

theorem Engine.rulesAt_of_excludesMore {engine wider : Engine}
    (catalogue : wider.catalogue = engine.catalogue)
    (more : engine.policy.ExcludesMore wider.policy) : wider.rulesAt = engine.rulesAt :=
  rulesAt_congr catalogue more.disables

/-- What the rules bring to nodes does not depend on exclusions. -/
theorem Engine.outcome_of_excludesMore {engine wider : Engine}
    (catalogue : wider.catalogue = engine.catalogue)
    (more : engine.policy.ExcludesMore wider.policy) (tree : Tree) :
    wider.outcome tree = engine.outcome tree :=
  outcome_congr (rulesAt_of_excludesMore catalogue more) more.severityFor tree

/-! ## Reports under more waivers -/

namespace WaiverSheet

theorem silences_eq_false_of_mem {sheet : WaiverSheet} {outcome : Outcome}
    (fresh : ∀ finding ∈ outcome.findings, finding.suppressed = false) {complete : Bool}
    {finding : Finding} (member : finding ∈ (sheet.reportOn outcome complete).findings) :
    sheet.silences finding = false := by
  rw [sheet.reportOn_findings fresh, List.mem_mergeSort] at member
  simpa using (List.mem_filter.mp (Finding.mem_of_mem_firsts member)).2

/-- Every key that the rules came to is either reported or counted as suppressed. -/
theorem reportOn_length_add_suppressedCount {sheet : WaiverSheet} {path : String}
    (named : sheet.path = .text path) {outcome : Outcome}
    (fresh : ∀ finding ∈ outcome.findings, finding.suppressed = false) (complete : Bool) :
    (sheet.reportOn outcome complete).findings.length +
        (sheet.reportOn outcome complete).suppressedCount =
      (outcome.findings.map Finding.key).toFinset.card := by
  have reported : (sheet.reportOn outcome complete).findings.length =
      ((outcome.findings.filter fun finding => !sheet.silences finding).map
        Finding.key).toFinset.card := by
    rw [sheet.reportOn_findings fresh, List.length_mergeSort, ← List.length_map Finding.key,
      ← List.toFinset_card_of_nodup (Finding.nodup_map_key_firsts _)]
    congr 1
    ext key
    rw [List.mem_toFinset, List.mem_toFinset, Finding.mem_map_key_firsts]
  rw [reported, sheet.reportOn_suppressedCount fresh, ← Finset.card_union_of_disjoint]
  · congr 1
    ext key
    simp only [Finset.mem_union, List.mem_toFinset, List.mem_map, List.mem_filter]
    constructor
    · rintro (⟨finding, ⟨found, _⟩, rfl⟩ | ⟨finding, ⟨found, _⟩, rfl⟩)
      · exact ⟨finding, found, rfl⟩
      · exact ⟨finding, found, rfl⟩
    · rintro ⟨finding, found, rfl⟩
      cases silenced : sheet.silences finding with
      | false => exact .inl ⟨finding, ⟨found, by rw [silenced]; rfl⟩, rfl⟩
      | true => exact .inr ⟨finding, ⟨found, silenced⟩, rfl⟩
  · -- A key on both sides would have a silenced and an unsilenced finding.
    rw [Finset.disjoint_left]
    intro key kept silenced
    rw [List.mem_toFinset] at kept silenced
    obtain ⟨left, leftKept, rfl⟩ := List.mem_map.mp kept
    obtain ⟨right, rightSilenced, sameKey⟩ := List.mem_map.mp silenced
    have unsilenced := (List.mem_filter.mp leftKept).2
    rw [← silences_eq_of_key named sameKey, (List.mem_filter.mp rightSilenced).2] at unsilenced
    cases unsilenced

/-- Under waivers that silence more, the report keeps the findings that they leave. -/
theorem reportOn_findings_of_le {sheet wider : WaiverSheet} {path : String}
    (named : wider.path = .text path)
    (le : ∀ finding, sheet.silences finding = true → wider.silences finding = true)
    {outcome : Outcome} (fresh : ∀ finding ∈ outcome.findings, finding.suppressed = false)
    (complete : Bool) :
    (wider.reportOn outcome complete).findings =
      (sheet.reportOn outcome complete).findings.filter fun finding => !wider.silences finding := by
  have both : (outcome.findings.filter fun finding => !wider.silences finding) =
      (outcome.findings.filter fun finding => !sheet.silences finding).filter
        fun finding => !wider.silences finding := by
    rw [List.filter_filter]
    refine List.filter_congr fun finding _ => ?_
    cases own : sheet.silences finding with
    | false => rw [Bool.not_false, Bool.and_true]
    | true => rw [le finding own, Bool.not_true, Bool.false_and]
  rw [wider.reportOn_findings fresh, sheet.reportOn_findings fresh, both,
    ← Finding.filter_firsts (not_silences_eq_of_key named)]
  exact (@StableSort.filter_mergeSort _ Finding.order _ _ _).symm

end WaiverSheet

/-- Under a policy that excludes more, a finding is silenced by what silenced it before or by an
added exclusion. -/
theorem Engine.silences_of_excludesMore {engine wider : Engine}
    (more : engine.policy.ExcludesMore wider.policy) {tree : Tree} {path : String}
    (named : tree.path = .text path) (finding : Finding) :
    (wider.sheet tree).silences finding = true ↔
      (engine.sheet tree).silences finding = true ∨
        ∃ exclusion ∈ wider.policy.allExclusions, exclusion ∉ engine.policy.allExclusions ∧
          exclusion.covers finding tree.path = .ok true := by
  have covers_iff (exclusion : Exclusion) : exclusion.covers finding tree.path = .ok true ↔
      (Waiver.exclusion exclusion).Covers path finding.key := by
    have answer := Waiver.covers_text finding path (.exclusion exclusion)
    rw [Waiver.covers] at answer
    rw [named, answer, Except.ok.injEq, decide_eq_true_iff]
  rw [WaiverSheet.silences_text ((wider.sheet_path tree).trans named),
    WaiverSheet.silences_text ((engine.sheet_path tree).trans named)]
  constructor
  · rintro ⟨waiver, listed, covers⟩
    rcases mem_waivers_sheet.mp listed with inline | ⟨exclusion, excluded, rfl⟩
    · exact .inl ⟨waiver, mem_waivers_sheet.mpr (.inl inline), covers⟩
    · by_cases before : exclusion ∈ engine.policy.allExclusions
      · exact .inl ⟨_, mem_waivers_sheet.mpr (.inr ⟨exclusion, before, rfl⟩), covers⟩
      · exact .inr ⟨exclusion, excluded, before, (covers_iff exclusion).mpr covers⟩
  · rintro (⟨waiver, listed, covers⟩ | ⟨exclusion, excluded, _, covers⟩)
    · exact ⟨waiver, waivers_sheet_subset more.allExclusions tree listed, covers⟩
    · exact ⟨_, mem_waivers_sheet.mpr (.inr ⟨exclusion, excluded, rfl⟩),
        (covers_iff exclusion).mp covers⟩

/-- A policy that excludes more takes from a report the findings that an added exclusion covers, and
counts them as suppressed. The others stay in their order, and so do the faults. A run that a rule
breaks is broken alike under both policies. -/
theorem Run.execute_excludesMore {catalogue : Catalogue} {policy widerPolicy : Policy}
    (more : policy.ExcludesMore widerPolicy) {workers widerWorkers : Int} {engine wider : Engine}
    (created : (Engine.create catalogue policy workers).1 = .ok engine)
    (widerCreated : (Engine.create catalogue widerPolicy widerWorkers).1 = .ok wider)
    {tree : Tree} {path : String} (named : tree.path = .text path) (signal : Signal) :
    (¬ engine.Breaks tree (tree.upTo signal) →
      ∃ report quieter, ((start engine tree).execute signal).result = .ok report ∧
        ((start wider tree).execute signal).result = .ok quieter ∧
        quieter.findings.Sublist report.findings ∧
        quieter.findings.length + quieter.suppressedCount =
          report.findings.length + report.suppressedCount ∧
        quieter.faults = report.faults ∧
        (∀ finding ∈ report.findings, finding ∉ quieter.findings ↔
          ∃ exclusion ∈ widerPolicy.allExclusions, exclusion ∉ policy.allExclusions ∧
            exclusion.covers finding tree.path = .ok true) ∧
        quieter.exitCode ≤ report.exitCode) ∧
      (engine.Breaks tree (tree.upTo signal) →
        ∃ escape, ((start engine tree).execute signal).result = .error (.escaped escape) ∧
          ((start wider tree).execute signal).result = .error (.escaped escape)) := by
  obtain ⟨catalogue_eq, rfl⟩ := Engine.create_fields created
  obtain ⟨widerCatalogue_eq, rfl⟩ := Engine.create_fields widerCreated
  have sameCatalogue := widerCatalogue_eq.trans catalogue_eq.symm
  have sameRules := Engine.rulesAt_of_excludesMore sameCatalogue more
  refine ⟨fun whole => ?_, execute_broken_congr sameRules named⟩
  have widerWhole : ¬ wider.Breaks tree (tree.upTo signal) := by
    rwa [Engine.breaks_congr sameRules]
  have fresh := engine.outcome_fresh tree (tree.upTo signal)
  have silences := Engine.silences_of_excludesMore more named
  have text (engine : Engine) : (engine.sheet tree).path = .text path :=
    (engine.sheet_path tree).trans named
  have kept := WaiverSheet.reportOn_findings_of_le (text wider)
    (fun finding before => (silences finding).mpr (.inl before)) fresh
    ((tree.upTo signal).length == tree.walk.length)
  have sublist := kept ▸ List.filter_sublist
  refine ⟨_, _, execute_unbroken_text named whole, execute_unbroken_text named widerWhole, ?_⟩
  rw [Engine.outcome_of_excludesMore sameCatalogue more]
  refine ⟨sublist, ?_, rfl, fun finding member => ?_, Report.exitCode_le_of_sublist sublist rfl⟩
  · rw [WaiverSheet.reportOn_length_add_suppressedCount (text wider) fresh,
      WaiverSheet.reportOn_length_add_suppressedCount (text engine) fresh]
  · have unsilenced := WaiverSheet.silences_eq_false_of_mem fresh member
    rw [kept, List.mem_filter, and_iff_right member, Bool.not_eq_true, Bool.not_eq_false',
      silences, unsilenced, or_iff_right Bool.false_ne_true]

/-- The policy that silences one rule in one file. -/
def Policy.sparing : Policy := ⟨[], [], [], [⟨"a.go", some "erratic"⟩]⟩

theorem Run.execute_excludesMore_sparing :
    Policy.neutral.ExcludesMore .sparing ∧
      (Engine.create ⟨[.erratic], none⟩ .neutral 1).1 =
        .ok ⟨Catalogue.sealed ⟨[.erratic], none⟩, .neutral, 1⟩ ∧
      (Engine.create ⟨[.erratic], none⟩ .sparing 2).1 =
        .ok ⟨Catalogue.sealed ⟨[.erratic], none⟩, .sparing, 2⟩ ∧
      ∃ report quieter,
        ((start ⟨Catalogue.sealed ⟨[.erratic], none⟩, .neutral, 1⟩ .declaring).execute
          .never).result = .ok report ∧
        ((start ⟨Catalogue.sealed ⟨[.erratic], none⟩, .sparing, 2⟩ .declaring).execute
          .never).result = .ok quieter ∧
        quieter.findings.Sublist report.findings ∧
        quieter.findings.length + quieter.suppressedCount =
          report.findings.length + report.suppressedCount ∧
        quieter.faults = report.faults ∧
        (∀ finding ∈ report.findings, finding ∉ quieter.findings ↔
          ∃ exclusion ∈ Policy.sparing.allExclusions, exclusion ∉ Policy.neutral.allExclusions ∧
            exclusion.covers finding Tree.declaring.path = .ok true) ∧
        quieter.exitCode ≤ report.exitCode := by
  have more : Policy.neutral.ExcludesMore .sparing :=
    ⟨fun _ => rfl, fun _ _ => rfl, List.nil_subset _, List.nil_subset _⟩
  have created : (Engine.create ⟨[.erratic], none⟩ .neutral 1).1 =
      .ok ⟨Catalogue.sealed ⟨[.erratic], none⟩, .neutral, 1⟩ :=
    Engine.create_neutral (by decide) (List.cons_ne_nil _ _)
  have exclusions : Policy.sparing.allExclusions = [⟨"a.go", some "erratic"⟩] := by
    simp [Policy.allExclusions, Policy.sparing, sorted]
  have fits : Policy.sparing.problems (Catalogue.contains ⟨[.erratic], none⟩) = [] := by
    refine Policy.problems_eq_nil_iff.mpr ⟨?_, by simp [Policy.sparing]⟩
    rw [exclusions, List.forall_mem_singleton]
    exact ⟨by decide, by rintro id ⟨⟩; rfl⟩
  have widerCreated : (Engine.create ⟨[.erratic], none⟩ .sparing 2).1 =
      .ok ⟨Catalogue.sealed ⟨[.erratic], none⟩, .sparing, 2⟩ :=
    Engine.create_eq_ok_iff.mpr ⟨by decide, fits, ⟨.erratic, List.mem_singleton_self _, rfl⟩, rfl⟩
  have whole := Engine.not_breaks_of_singleton (by decide)
    (Rule.erratic_not_breaksWith .declaring) .neutral 1 (Tree.declaring.upTo .never)
  exact ⟨more, created, widerCreated,
    (execute_excludesMore more created widerCreated rfl .never).1 whole⟩

end TreeLint
