import TreeLint.Proofs.ReferenceReport

/-!
# What severity overrides change

An override changes the severity of findings when the rules are asked, before waivers, keys and
order come into play. None of these looks at severities, so reports under different overrides list
the same findings at the same places, each in the severity that the overrides give it.
-/

set_option autoImplicit false

namespace TreeLint

/-! ## Policies that differ in their overrides -/

namespace Policy

/-- A finding in the severity that the policy has for its rule, if it has one. -/
def regrade (policy : Policy) (finding : Finding) : Finding :=
  { finding with severity := (policy.overrides.lookup finding.ruleId).getD finding.severity }

theorem regrade_key (policy : Policy) (finding : Finding) :
    (policy.regrade finding).key = finding.key := rfl

theorem regrade_inOrder (policy : Policy) (left right : Finding) :
    (policy.regrade left).inOrder (policy.regrade right) = left.inOrder right := rfl

theorem filter_map_regrade (policy : Policy) {keep : Finding → Bool}
    (byKey : ∀ left right : Finding, left.key = right.key → keep left = keep right)
    (findings : List Finding) :
    (findings.map policy.regrade).filter keep = (findings.filter keep).map policy.regrade := by
  rw [List.filter_map]
  exact congrArg _ (List.filter_congr fun finding _ => byKey _ _ (policy.regrade_key finding))

/-- The policies say the same but for the overrides. -/
structure SameButOverrides (policy other : Policy) : Prop where
  disabledRules : ∀ id, id ∈ policy.disabledRules ↔ id ∈ other.disabledRules
  excludedPaths : ∀ pattern, pattern ∈ policy.excludedPaths ↔ pattern ∈ other.excludedPaths
  exclusions : ∀ exclusion, exclusion ∈ policy.exclusions ↔ exclusion ∈ other.exclusions

namespace SameButOverrides

variable {policy other : Policy}

theorem symm (same : policy.SameButOverrides other) : other.SameButOverrides policy :=
  ⟨fun id => (same.disabledRules id).symm, fun pattern => (same.excludedPaths pattern).symm,
    fun exclusion => (same.exclusions exclusion).symm⟩

theorem disables (same : policy.SameButOverrides other) (id : String) :
    policy.disables id = other.disables id := by
  simp [Policy.disables, same.disabledRules]

theorem allExclusions (same : policy.SameButOverrides other) :
    policy.allExclusions ⊆ other.allExclusions := by
  apply Policy.allExclusions_subset
  · intro pattern listed
    exact (same.excludedPaths pattern).mp listed
  · intro exclusion listed
    exact (same.exclusions exclusion).mp listed

end SameButOverrides

end Policy

/-! ## Findings as the rules give them -/

/-- The findings of an invocation in the severities that its rule gives them. -/
def Invocation.given (tree : Tree) (invocation : Invocation) : List Finding :=
  (invocation.candidates tree).filterMap (Candidate.finding? invocation.rule.id tree.span)

theorem Invocation.findings_eq_map_given (policy : Policy) (tree : Tree) (invocation : Invocation) :
    invocation.findings policy tree = (invocation.given tree).map policy.regrade := by
  rw [findings, given, List.map_filterMap]
  refine List.filterMap_congr fun candidate _ => ?_
  rw [accepted?]
  cases stands : candidate.finding? invocation.rule.id tree.span with
  | none => rfl
  | some finding =>
      obtain ⟨own, _⟩ := Candidate.finding?_fields stands
      rw [Option.map_some, Option.map_some, Policy.regrade, own]

namespace Engine

/-- What the rules find at nodes, before overrides, in the order of dispatch. -/
def given (engine : Engine) (tree : Tree) (cursors : List Cursor) : List Finding :=
  (cursors.flatMap engine.invocationsAt).flatMap (Invocation.given tree)

theorem findings_outcome_given (engine : Engine) (tree : Tree) (cursors : List Cursor) :
    (engine.outcome tree cursors).findings =
      (engine.given tree cursors).map engine.policy.regrade := by
  rw [findings_outcome, given, List.map_flatMap]
  exact List.flatMap_congr fun invocation _ =>
    invocation.findings_eq_map_given engine.policy tree

variable {engine other : Engine}

theorem rulesAt_of_sameButOverrides (catalogue : engine.catalogue = other.catalogue)
    (same : engine.policy.SameButOverrides other.policy) : engine.rulesAt = other.rulesAt :=
  rulesAt_congr catalogue same.disables

theorem silences_of_sameButOverrides (same : engine.policy.SameButOverrides other.policy)
    {tree : Tree} {path : String} (named : tree.path = .text path) :
    (engine.sheet tree).silences = (other.sheet tree).silences := by
  funext finding
  rw [Bool.eq_iff_iff, WaiverSheet.silences_text ((engine.sheet_path tree).trans named),
    WaiverSheet.silences_text ((other.sheet_path tree).trans named)]
  constructor
  · rintro ⟨waiver, listed, covers⟩
    exact ⟨waiver, waivers_sheet_subset same.allExclusions tree listed, covers⟩
  · rintro ⟨waiver, listed, covers⟩
    exact ⟨waiver, waivers_sheet_subset same.symm.allExclusions tree listed, covers⟩

end Engine

/-! ## Reports on regraded findings -/

namespace WaiverSheet

/-- The findings that waivers leave, one of each key, in their order. -/
def kept (sheet : WaiverSheet) (findings : List Finding) : List Finding :=
  (Finding.firsts (findings.filter fun finding => !sheet.silences finding)).mergeSort
    Finding.inOrder

variable {sheet : WaiverSheet} {path : String}

theorem reportOn_kept {outcome : Outcome}
    (fresh : ∀ finding ∈ outcome.findings, finding.suppressed = false) (complete : Bool) :
    (sheet.reportOn outcome complete).findings = sheet.kept outcome.findings :=
  sheet.reportOn_findings fresh complete

theorem find?_of_mem_kept (named : sheet.path = .text path) {findings : List Finding}
    {finding : Finding} (member : finding ∈ sheet.kept findings) :
    findings.find? (fun other => other.key = finding.key) = some finding := by
  have isFirst := List.mem_mergeSort.mp member
  exact ((Finding.mem_firsts_filter (not_silences_eq_of_key named)).mp isFirst).1

/-- Which findings are left, and in which order, is settled without severities. -/
theorem kept_map_regrade (named : sheet.path = .text path) (policy : Policy)
    (findings : List Finding) :
    sheet.kept (findings.map policy.regrade) = (sheet.kept findings).map policy.regrade := by
  rw [kept, policy.filter_map_regrade (not_silences_eq_of_key named),
    Finding.firsts_map policy.regrade_key, kept]
  exact (List.map_mergeSort fun first _ second _ => (policy.regrade_inOrder first second).symm).symm

theorem keys_map_regrade (named : sheet.path = .text path) (policy : Policy)
    (findings : List Finding) :
    ((findings.map policy.regrade).filter sheet.silences).map Finding.key =
      (findings.filter sheet.silences).map Finding.key := by
  rw [policy.filter_map_regrade (fun _ _ => silences_eq_of_key named), List.map_map]
  exact List.map_congr_left fun finding _ => policy.regrade_key finding

end WaiverSheet

namespace Engine

variable (engine : Engine) {tree : Tree} {path : String} (cursors : List Cursor) (complete : Bool)

theorem findings_reportOn (named : tree.path = .text path) :
    ((engine.sheet tree).reportOn (engine.outcome tree cursors) complete).findings =
      ((engine.sheet tree).kept (engine.given tree cursors)).map engine.policy.regrade := by
  rw [WaiverSheet.reportOn_kept (engine.outcome_fresh tree cursors), findings_outcome_given]
  exact WaiverSheet.kept_map_regrade ((engine.sheet_path tree).trans named) _ _

theorem suppressedCount_reportOn (named : tree.path = .text path) :
    ((engine.sheet tree).reportOn (engine.outcome tree cursors) complete).suppressedCount =
      (((engine.given tree cursors).filter (engine.sheet tree).silences).map
        Finding.key).toFinset.card := by
  rw [WaiverSheet.reportOn_suppressedCount _ (engine.outcome_fresh tree cursors),
    findings_outcome_given, WaiverSheet.keys_map_regrade ((engine.sheet_path tree).trans named)]

theorem faults_reportOn :
    ((engine.sheet tree).reportOn (engine.outcome tree cursors) complete).faults =
      ((cursors.flatMap engine.invocationsAt).flatMap (Invocation.faults tree)).mergeSort
        Fault.inOrder := by
  rw [WaiverSheet.reportOn_faults, faults_outcome]

end Engine

/-- Under policies that differ in their overrides only, runs report the same findings at the same
places. Each has the severity that the overrides have for its rule, else the one that the rule gave
when it first came to this key. All else in the reports is the same. A run that a rule breaks is
broken alike under both policies. -/
theorem Run.execute_sameButOverrides {catalogue : Catalogue} {policy otherPolicy : Policy}
    (same : policy.SameButOverrides otherPolicy) {workers otherWorkers : Int}
    {engine other : Engine} (created : (Engine.create catalogue policy workers).1 = .ok engine)
    (otherCreated : (Engine.create catalogue otherPolicy otherWorkers).1 = .ok other)
    {tree : Tree} {path : String} (named : tree.path = .text path) (signal : Signal) :
    (¬ engine.Breaks tree (tree.upTo signal) →
      ∃ (report otherReport : Report) (own : List Finding),
        ((start engine tree).execute signal).result = .ok report ∧
        ((start other tree).execute signal).result = .ok otherReport ∧
        report.findings = own.map policy.regrade ∧
        otherReport.findings = own.map otherPolicy.regrade ∧
        (∀ finding ∈ own, (engine.given tree (tree.upTo signal)).find?
          (fun given => given.key = finding.key) = some finding) ∧
        otherReport.suppressedCount = report.suppressedCount ∧
        otherReport.faults = report.faults ∧
        otherReport.complete = report.complete ∧
        otherReport.path = report.path) ∧
      (engine.Breaks tree (tree.upTo signal) →
        ∃ escape, ((start engine tree).execute signal).result = .error (.escaped escape) ∧
          ((start other tree).execute signal).result = .error (.escaped escape)) := by
  obtain ⟨catalogue_eq, rfl⟩ := Engine.create_fields created
  obtain ⟨otherCatalogue_eq, rfl⟩ := Engine.create_fields otherCreated
  have sameRules : other.rulesAt = engine.rulesAt :=
    Engine.rulesAt_of_sameButOverrides (otherCatalogue_eq.trans catalogue_eq.symm) same.symm
  refine ⟨fun whole => ?_, execute_broken_congr sameRules named⟩
  have otherWhole : ¬ other.Breaks tree (tree.upTo signal) := by
    rwa [Engine.breaks_congr sameRules]
  have asked : other.invocationsAt = engine.invocationsAt := by
    funext cursor
    rw [Engine.invocationsAt, Engine.invocationsAt, sameRules]
  have silences := Engine.silences_of_sameButOverrides same.symm named
  have given : other.given tree (tree.upTo signal) = engine.given tree (tree.upTo signal) := by
    rw [Engine.given, Engine.given, asked]
  have kept : (other.sheet tree).kept = (engine.sheet tree).kept := by
    funext findings
    rw [WaiverSheet.kept, WaiverSheet.kept, silences]
  refine ⟨_, _, (engine.sheet tree).kept (engine.given tree (tree.upTo signal)),
    execute_unbroken_text named whole, execute_unbroken_text named otherWhole,
    engine.findings_reportOn _ _ named, ?_, ?_, ?_, ?_, rfl, rfl⟩
  · rw [other.findings_reportOn _ _ named, kept, given]
  · intro finding member
    exact WaiverSheet.find?_of_mem_kept ((engine.sheet_path tree).trans named) member
  · rw [other.suppressedCount_reportOn _ _ named, engine.suppressedCount_reportOn _ _ named,
      silences, given]
  · rw [other.faults_reportOn, engine.faults_reportOn, asked]

/-- A rule that finds the same twice at every node, first as a warning and then as an error. -/
def Rule.wavering : Rule :=
  let mild : RuleInfo := ⟨"Wavering", "wavering", "Wavering", "Decide", .warning, [], .node⟩
  let grave : RuleInfo := { mild with severity := .error }
  { mild with
    applies := fun _ => .ok true
    evaluate := fun cursor _ =>
      .ok [mild.finding cursor.node "odd", grave.finding cursor.node "odd"] }

theorem Rule.wavering_not_breaksWith (tree : Tree) (cursor : Cursor) (escape : Escape) :
    ¬ Rule.wavering.BreaksWith tree cursor escape := by
  refine not_breaksWith (fun failure failed => ?_) (fun found given candidate listed => ?_) escape
  · cases failed
  · cases given
    simp only [List.mem_cons, List.not_mem_nil, or_false] at listed
    rcases listed with rfl | rfl
    · exact RuleInfo.obstacle?_finding _ _ _
    · exact RuleInfo.obstacle?_finding _ _ _

/-- The policy that makes the findings of one rule mere information. -/
def Policy.lenient : Policy := ⟨[], [], [("wavering", .info)], []⟩

theorem Run.execute_sameButOverrides_lenient :
    Policy.neutral.SameButOverrides .lenient ∧
      (Engine.create ⟨[.wavering], none⟩ .neutral 1).1 =
        .ok ⟨Catalogue.sealed ⟨[.wavering], none⟩, .neutral, 1⟩ ∧
      (Engine.create ⟨[.wavering], none⟩ .lenient 2).1 =
        .ok ⟨Catalogue.sealed ⟨[.wavering], none⟩, .lenient, 2⟩ ∧
      ∃ (report otherReport : Report) (own : List Finding),
        ((start ⟨Catalogue.sealed ⟨[.wavering], none⟩, .neutral, 1⟩ .declaring).execute
          .never).result = .ok report ∧
        ((start ⟨Catalogue.sealed ⟨[.wavering], none⟩, .lenient, 2⟩ .declaring).execute
          .never).result = .ok otherReport ∧
        report.findings = own.map Policy.neutral.regrade ∧
        otherReport.findings = own.map Policy.lenient.regrade ∧
        (∀ finding ∈ own,
          (Engine.given ⟨Catalogue.sealed ⟨[.wavering], none⟩, .neutral, 1⟩ .declaring
            (Tree.declaring.upTo .never)).find? (fun given => given.key = finding.key) =
              some finding) ∧
        otherReport.suppressedCount = report.suppressedCount ∧
        otherReport.faults = report.faults ∧
        otherReport.complete = report.complete ∧
        otherReport.path = report.path := by
  have same : Policy.neutral.SameButOverrides .lenient :=
    ⟨fun _ => Iff.rfl, fun _ => Iff.rfl, fun _ => Iff.rfl⟩
  have created : (Engine.create ⟨[.wavering], none⟩ .neutral 1).1 =
      .ok ⟨Catalogue.sealed ⟨[.wavering], none⟩, .neutral, 1⟩ :=
    Engine.create_neutral (by decide) (List.cons_ne_nil _ _)
  have otherCreated : (Engine.create ⟨[.wavering], none⟩ .lenient 2).1 =
      .ok ⟨Catalogue.sealed ⟨[.wavering], none⟩, .lenient, 2⟩ :=
    Engine.create_eq_ok_iff.mpr ⟨by decide, by decide +kernel, by decide, rfl⟩
  have whole := Engine.not_breaks_of_singleton (by decide)
    (Rule.wavering_not_breaksWith .declaring) .neutral 1 (Tree.declaring.upTo .never)
  exact ⟨same, created, otherCreated,
    (execute_sameButOverrides same created otherCreated rfl .never).1 whole⟩

end TreeLint
