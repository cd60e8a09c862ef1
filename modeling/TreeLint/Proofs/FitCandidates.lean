import TreeLint.Proofs.ReferenceReport
import TreeLint.Proofs.StandardRules
import TreeLint.Proofs.WalkOrder

/-!
# Candidates of the standard rules

What a standard rule proposes is a finding of its own, at a node of the tree and with something to
say. In a tree that was read all nodes lie within the root, so the screening never turns such a
candidate away, and every fault of a run is a failure of a rule.
-/

set_option autoImplicit false

namespace TreeLint

/-! ## What passes the screening -/

structure Draft.Fit (ruleId : String) (within : Span) (draft : Draft) : Prop where
  spanned : ∃ span, draft.span = .ofSpan span ∧ within.contains span = true
  graded : ∃ severity, draft.severity = .severity severity
  own : draft.ruleId = .text ruleId
  spoken : ∃ message, draft.message = .text message ∧ Text.isBlankText message = false
  unmarked : draft.suppressed = false

theorem DraftSpan.locate_ofSpan {within span : Span} (inside : within.contains span = true) :
    (DraftSpan.ofSpan span).locate within = .ok (.ofSpan span) := by
  obtain ⟨inFront, behind⟩ := Span.contains_iff.mp inside
  exact locate_eq_ok_iff.mpr ⟨.ofPosition span.start, .ofPosition span.stop, _, _, rfl, rfl, rfl,
    Amount.ofInt_le_ofInt.mpr inFront, Amount.ofInt_le_ofInt.mpr behind, rfl⟩

namespace Candidate

/-- A finding with a span within the tree, a severity, the id of its rule and a message that is not
blank, and not marked as silenced. -/
def Fit (ruleId : String) (within : Span) (candidate : Candidate) : Prop :=
  ∃ draft, candidate = .draft draft ∧ draft.Fit ruleId within

/-- A fit candidate passes the screening and can be entered into a ledger. -/
theorem Fit.screen {ruleId : String} {within : Span} {candidate : Candidate}
    (fit : candidate.Fit ruleId within) :
    ∃ finding, candidate.screen ruleId within = .ok ⟨finding, none⟩ := by
  obtain ⟨⟨_, _, _, _, title, advice, _⟩, rfl, ⟨span, rfl, inside⟩, ⟨severity, rfl⟩, rfl,
    ⟨message, rfl, spoken⟩, rfl⟩ := fit
  refine ⟨⟨ruleId, severity, .ofSpan span, message, title, advice, false⟩,
    screen_eq_ok_iff.mpr ⟨finding?_eq_some_iff.mpr ?_, rfl⟩⟩
  exact ⟨_, severity, message, .ofSpan span, rfl, rfl, rfl, if_neg (by rw [spoken]; decide),
    DraftSpan.locate_ofSpan inside, rfl, rfl⟩

theorem Fit.defects {ruleId : String} {within : Span} {candidate : Candidate}
    (fit : candidate.Fit ruleId within) : (candidate.defects ruleId within).head? = none := by
  obtain ⟨finding, passed⟩ := fit.screen
  cases head : (candidate.defects ruleId within).head? with
  | none => rfl
  | some rejection =>
      rw [screen_eq_error_iff.mpr head] at passed
      cases passed

end Candidate

theorem RuleInfo.Proposes.fit {info : RuleInfo} {tree : Tree} {candidate : Candidate}
    (proposes : info.Proposes tree candidate) (nested : tree.root.Nested) :
    candidate.Fit info.id tree.span := by
  obtain ⟨cursor, member, message, spoken, rfl⟩ := proposes
  have inside := Tree.span_contains_of_mem_walk nested member
  exact ⟨_, rfl, ⟨_, rfl, inside⟩, ⟨_, rfl⟩, rfl, ⟨message, rfl, spoken⟩, rfl⟩

/-! ## Faults of a run -/

namespace Engine

/-- All faults that standard rules bring to a tree are failures of a rule. -/
theorem errorType_of_standard {engine : Engine} (standard : engine.catalogue = .standard)
    {tree : Tree} (nested : tree.root.Nested) {signal : Signal} {fault : Fault}
    (brought : fault ∈ (engine.outcome tree (tree.upTo signal)).faults) :
    fault.errorType = "TypeError" := by
  have sound : engine.catalogue.Sound := standard ▸ Catalogue.reachable_standard.sound
  rw [faults_outcome] at brought
  obtain ⟨invocation, invoked, blamed⟩ := List.mem_flatMap.mp brought
  obtain ⟨cursor, admitted, dispatched⟩ := List.mem_flatMap.mp invoked
  obtain ⟨rule, asked, rfl⟩ := List.mem_map.mp dispatched
  have member : cursor ∈ tree.walk := Run.admitted_subset signal 0 tree.walk admitted
  have standing : rule ∈ Catalogue.standardRules := by
    have registered := ((mem_rulesAt sound).mp asked).1
    rwa [standard] at registered
  rcases List.mem_append.mp blamed with failing | rejecting
  · obtain ⟨failure, listed, told⟩ := List.mem_filterMap.mp failing
    have failed := Invocation.candidates_of_failure? (Option.mem_toList.mp listed)
    obtain ⟨typeName, rfl⟩ := Catalogue.standard_failure standing failed.1
    obtain ⟨detail, _, rfl⟩ := Option.map_eq_some_iff.mp told
    rfl
  · -- No candidate is turned away, so no fault comes of one.
    obtain ⟨candidate, proposed, rejected⟩ := List.mem_filterMap.mp rejecting
    obtain ⟨_, found, evaluated, listed⟩ := Invocation.mem_candidates.mp proposed
    have proposes := Catalogue.standard_proposes standing member evaluated candidate listed
    rw [Invocation.rejected?, (proposes.fit nested).defects] at rejected
    cases rejected

end Engine

/-! ## All candidates -/

/-- In a tree that was read, whatever a standard rule proposes at a node where it applies is fit to
be reported, and no run with the standard rules reports a candidate that was turned away. -/
theorem Catalogue.standard_candidates_fit {path document : Value} {tree : Tree}
    (read : Tree.ofDocument path document = .ok tree) :
    (∀ cursor ∈ tree.walk, ∀ rule ∈ standardRules, ∀ found,
      rule.applies cursor = .ok true → rule.evaluate cursor tree = .ok found →
        ∀ candidate ∈ found, candidate.Fit rule.id tree.span ∧
          ∃ finding, candidate.screen rule.id tree.span = .ok ⟨finding, none⟩) ∧
      ∀ (policy : Policy) (workers : Int) (engine : Engine),
        (Engine.create standard policy workers).1 = .ok engine →
          ∀ (signal : Signal) (report : Report),
            ((Run.start engine tree).execute signal).result = .ok report →
              ∀ fault ∈ report.faults, fault.errorType ≠ "MalformedFinding" := by
  have nested := Tree.nested_of_ofDocument read
  refine ⟨?candidates, ?faults⟩
  case candidates =>
    intro cursor member rule standing found _ evaluated candidate listed
    have fit := (standard_proposes standing member evaluated candidate listed).fit nested
    exact ⟨fit, fit.screen⟩
  case faults =>
    intro policy workers engine created signal report executed fault blamed
    obtain ⟨catalogue, _⟩ := Engine.create_fields created
    obtain ⟨_, _, rfl⟩ := Run.execute_eq_ok_iff.mp executed
    rw [WaiverSheet.reportOn_faults, List.mem_mergeSort] at blamed
    rw [Engine.errorType_of_standard catalogue nested blamed]
    decide

namespace Catalogue

/-- A file with two imports of one path below a block, a declaration whose kind cannot be looked up,
and a name with an initialism. -/
def importingTwice : Members :=
  [("kind", .text "File"), spanning 0 60,
    ("children", .list
      [.object [("kind", .text "Block"), spanning 0 30, ("children", .list
        [.object [("kind", .text "Import"), spanning 0 9, attributes [("path", .text "fmt")]],
          .object [("kind", .text "Import"), spanning 10 19, attributes [("path", .text "fmt")]]])],
        .object [("kind", .text "Declaration"), spanning 31 40,
          attributes [("declKind", .list [])]],
        .object [("kind", .text "Identifier"), spanning 41 50,
          attributes [("name", .text "parseUrl")]]])]
where
  spanning (start stop : Int) : String × Value :=
    ("span", .object [("start", .list [.integer 1, .integer 0, .integer start]),
      ("end", .list [.integer 1, .integer 0, .integer stop])])
  attributes (members : Members) : String × Value :=
    ("attributes", .object members)

/-- The second import is reported, and the only fault is that of the declaration. -/
theorem standard_candidates_fit_importingTwice :
    ∃ tree, Tree.ofDocument .null (.object importingTwice) = .ok tree ∧
      (∃ found, RepeatedImport.rule.evaluate tree.cursor tree = .ok found ∧ found.length = 1 ∧
        ∀ candidate ∈ found, candidate.Fit RepeatedImport.info.id tree.span ∧
          ∃ finding, candidate.screen RepeatedImport.info.id tree.span = .ok ⟨finding, none⟩) ∧
      ∃ report, ((Run.start ⟨standard, .neutral, 1⟩ tree).execute .never).result = .ok report ∧
        report.faults.map (·.errorType) = ["TypeError"] ∧
        ∀ fault ∈ report.faults, fault.errorType ≠ "MalformedFinding" := by
  obtain ⟨tree, read⟩ : ∃ tree, Tree.ofDocument .null (.object importingTwice) = .ok tree :=
    ⟨_, rfl⟩
  obtain ⟨fits, sound⟩ := standard_candidates_fit read
  have standing : RepeatedImport.rule ∈ standardRules :=
    mem_standardRules_iff.mpr (.inr (.inr (.inr (.inr rfl))))
  have root : tree.cursor ∈ tree.walk := by
    rw [Tree.walk_eq_cons]
    exact List.mem_cons_self
  have named : tree.path = .text Tree.unnamed := by
    cases read
    rfl
  have executed := Run.execute_unbroken_text named
    (@Engine.not_breaks_of_standard ⟨standard, .neutral, 1⟩ rfl tree .never)
  refine ⟨tree, read, ⟨_, rfl, ?_, fits _ root _ standing _ rfl rfl⟩, _, executed, ?_,
    sound _ _ _ Engine.create_standard .never _ executed⟩
  · cases read
    decide +kernel
  · cases read
    decide +kernel

end Catalogue

end TreeLint
