import TreeLint.Inspection.Dispatch
import TreeLint.Proofs.CatalogueProperties

/-!
# What the rules bring to a node

A candidate becomes a finding exactly when it passes every check, and the first check that it does
not pass is what is said of it. All that comes of asking a rule carries the id of that rule, so what
the rules of certain ids bring is found by asking these rules only.
-/

set_option autoImplicit false

namespace TreeLint

/-! ## Screening -/

namespace DraftSpan

/-- What is wrong with the place of a span, one entry for each check that it does not pass. -/
def defects (within : Span) : DraftSpan → List Rejection
  | .span start stop =>
      (if start.offset.isNumeric then [] else [.incomparable "int" start.offset.typeName]) ++
      (if start.offset.numeral?.any fun first => .ofInt within.start.offset ≤ first.amount then []
        else [.outsideTree start.offset stop.offset]) ++
      (if stop.offset.isNumeric then [] else [.incomparable stop.offset.typeName "int"]) ++
      (if stop.offset.numeral?.any fun last => last.amount ≤ .ofInt within.stop.offset then []
        else [.outsideTree start.offset stop.offset])
  | .hollow => [.hollowSpan]
  | .other _ => []

theorem locate_eq_ok_iff {within : Span} {span : DraftSpan} {extent : Extent Numeral} :
    span.locate within = .ok extent ↔
      ∃ start stop first last, span = .span start stop ∧ start.offset.numeral? = some first ∧
        stop.offset.numeral? = some last ∧ .ofInt within.start.offset ≤ first.amount ∧
        last.amount ≤ .ofInt within.stop.offset ∧ extent = ⟨start.spot first, stop.spot last⟩ := by
  constructor
  · intro located
    cases span with
    | other | hollow => cases located
    | span start stop =>
        simp only [locate, Bool.not_eq_true', ite_not] at located
        split at located
        · cases located
        cases started : start.offset.numeral? with
        | none => simp [started] at located
        | some first =>
            simp only [started] at located
            split at located
            next inFront =>
              split at located
              · cases located
              cases stopped : stop.offset.numeral? with
              | none => simp [stopped] at located
              | some last =>
                  simp only [stopped] at located
                  split at located
                  next behind =>
                    cases located
                    exact ⟨start, stop, first, last, rfl, started, stopped, inFront, behind, rfl⟩
                  next => cases located
            next => cases located
  · rintro ⟨start, stop, first, last, rfl, started, stopped, inFront, behind, rfl⟩
    simp [locate, started, stopped, Value.isNumeric_of_numeral? started,
      Value.isNumeric_of_numeral? stopped, inFront, behind]

theorem locate_eq_error_iff {within : Span} {span : DraftSpan}
    (isSpan : ∀ value, span ≠ .other value) {rejection : Rejection} :
    span.locate within = .error rejection ↔ (span.defects within).head? = some rejection := by
  cases span with
  | other value => exact absurd rfl (isSpan value)
  | hollow => simp [locate, defects]
  | span start stop =>
      simp only [locate, defects]
      by_cases startNumeric : start.offset.isNumeric = true
      · cases started : start.offset.numeral? with
        | none => simp [startNumeric]
        | some first =>
            by_cases inFront : .ofInt within.start.offset ≤ first.amount
            · by_cases stopNumeric : stop.offset.isNumeric = true
              · cases stopped : stop.offset.numeral? with
                | none => simp [startNumeric, inFront, stopNumeric]
                | some last =>
                    by_cases behind : last.amount ≤ .ofInt within.stop.offset
                    · simp [startNumeric, inFront, stopNumeric, behind]
                    · simp [startNumeric, inFront, stopNumeric, behind]
              · simp [startNumeric, inFront, stopNumeric]
            · simp [startNumeric, inFront]
      · simp [startNumeric]

end DraftSpan

namespace Candidate

/-- The finding that a candidate stands for, if it passes every check. -/
def finding? (ruleId : String) (within : Span) : Candidate → Option Finding
  | .draft ⟨.text given, .severity severity, .span start stop, .text message, title, advice,
      false⟩ =>
      match start.offset.numeral?, stop.offset.numeral? with
      | some first, some last =>
          if given = ruleId ∧ Text.isBlankText message = false ∧
              .ofInt within.start.offset ≤ first.amount ∧
              last.amount ≤ .ofInt within.stop.offset then
            some ⟨ruleId, severity, ⟨start.spot first, stop.spot last⟩, message, title, advice,
              false⟩
          else none
      | _, _ => none
  | _ => none

/-- The error of looking up the place of a candidate. -/
def obstacle? : Candidate → Option Escape
  | .draft proposed => proposed.span.obstacle?
  | .stray _ => none

/-- What is wrong with a candidate, one entry for each check that it does not pass. -/
def defects (ruleId : String) (within : Span) : Candidate → List Rejection
  | .stray value => [.notFinding value.typeName]
  | .draft proposed =>
      (match proposed.span with
        | .other value => [.notSpan value.typeName]
        | _ => []) ++
      (match proposed.severity with
        | .other given => [.notSeverity given]
        | .severity _ => []) ++
      (if proposed.ruleId.text? = some ruleId then [] else [.foreignRule proposed.ruleId]) ++
      (if proposed.message?.isSome then [] else [.blankMessage]) ++
      proposed.span.defects within ++
      (if proposed.suppressed then [.markedSuppressed] else [])

private theorem text?_eq_some_iff {value : Value} {text : String} :
    value.text? = some text ↔ value = .text text := by
  cases value <;> simp [Value.text?]

private theorem message?_eq_some_iff {proposed : Draft} {message : String} :
    proposed.message? = some message ↔
      proposed.message = .text message ∧ Text.isBlankText message = false := by
  unfold Draft.message?
  cases proposed.message with
  | text given =>
      by_cases blank : Text.isBlankText given = true
      · simp only [blank, ↓reduceIte, reduceCtorEq, Value.text.injEq, false_iff, not_and]
        rintro rfl
        simp [blank]
      · simp only [blank, Bool.false_eq_true, ↓reduceIte, Option.some.injEq, Value.text.injEq]
        constructor
        · rintro rfl
          exact ⟨rfl, by simpa using blank⟩
        · exact And.left
  | _ => simp

private theorem draftScreen_eq_ok_iff {proposed : Draft} {ruleId : String} {within : Span}
    {severity : Severity} {proposal : Proposal} :
    proposed.screen ruleId within severity = .ok proposal ↔
      ∃ message extent, proposed.ruleId = .text ruleId ∧ proposed.message? = some message ∧
        proposed.span.locate within = .ok extent ∧ proposed.suppressed = false ∧
        proposal = ⟨⟨ruleId, severity, extent, message, proposed.title, proposed.recommendation,
          false⟩, proposed.span.obstacle?⟩ := by
  unfold Draft.screen
  constructor
  · intro passed
    split at passed
    · cases passed
    next own =>
      split at passed
      · cases passed
      · cases passed
      next message extent spoken located =>
        split at passed
        · cases passed
        next unmarked =>
          cases passed
          exact ⟨message, extent, text?_eq_some_iff.mp (by simpa using own), spoken, located,
            by simpa using unmarked, rfl⟩
  · rintro ⟨message, extent, own, spoken, located, unmarked, rfl⟩
    simp [text?_eq_some_iff.mpr own, spoken, located, unmarked]

/-- What a candidate that passes every check is made of. -/
theorem finding?_eq_some_iff {ruleId : String} {within : Span} {candidate : Candidate}
    {finding : Finding} :
    candidate.finding? ruleId within = some finding ↔
      ∃ proposed severity message extent, candidate = .draft proposed ∧
        proposed.severity = .severity severity ∧ proposed.ruleId = .text ruleId ∧
        proposed.message? = some message ∧ proposed.span.locate within = .ok extent ∧
        proposed.suppressed = false ∧
        finding = ⟨ruleId, severity, extent, message, proposed.title, proposed.recommendation,
          false⟩ := by
  constructor
  · intro stands
    unfold finding? at stands
    split at stands
    next given severity start stop message title advice =>
      split at stands
      next first last started stopped =>
        split at stands
        next checks =>
          obtain ⟨rfl, spoken, inFront, behind⟩ := checks
          cases stands
          exact ⟨_, severity, message, _, rfl, rfl, rfl, message?_eq_some_iff.mpr ⟨rfl, spoken⟩,
            DraftSpan.locate_eq_ok_iff.mpr
              ⟨start, stop, first, last, rfl, started, stopped, inFront, behind, rfl⟩, rfl, rfl⟩
        next => cases stands
      next => cases stands
    next => cases stands
  · rintro ⟨⟨given, own, span, text, title, advice, suppressed⟩, severity, message, extent, rfl,
      rfl, rfl, spoken, located, rfl, rfl⟩
    obtain ⟨rfl, voiced⟩ := message?_eq_some_iff.mp spoken
    obtain ⟨start, stop, first, last, rfl, started, stopped, inFront, behind, rfl⟩ :=
      DraftSpan.locate_eq_ok_iff.mp located
    simp [finding?, started, stopped, voiced, inFront, behind]

theorem finding?_fields {ruleId : String} {within : Span} {candidate : Candidate}
    {finding : Finding} (stands : candidate.finding? ruleId within = some finding) :
    finding.ruleId = ruleId ∧ finding.suppressed = false := by
  obtain ⟨_, _, _, _, _, _, _, _, _, _, rfl⟩ := finding?_eq_some_iff.mp stands
  exact ⟨rfl, rfl⟩

/-- A draft with a span is screened part by part, the severity first. -/
private theorem screen_draft {proposed : Draft} (isSpan : ∀ value, proposed.span ≠ .other value)
    (ruleId : String) (within : Span) :
    screen ruleId within (.draft proposed) =
      match proposed.severity with
      | .other given => .error (.notSeverity given)
      | .severity severity => proposed.screen ruleId within severity := by
  unfold screen
  cases place : proposed.span with
  | other value => exact absurd place (isSpan value)
  | hollow | span => cases level : proposed.severity <;> simp [place, level]

/-- A candidate passes the screening exactly as the finding that it stands for. -/
theorem screen_eq_ok_iff {ruleId : String} {within : Span} {candidate : Candidate}
    {proposal : Proposal} :
    candidate.screen ruleId within = .ok proposal ↔
      candidate.finding? ruleId within = some proposal.finding ∧
        proposal.obstacle = candidate.obstacle? := by
  obtain ⟨finding, obstacle⟩ := proposal
  rw [finding?_eq_some_iff]
  constructor
  · intro passed
    cases candidate with
    | stray value => cases passed
    | draft proposed =>
        have isSpan : ∀ value, proposed.span ≠ .other value := by
          intro value place
          simp [screen, place] at passed
        rw [screen_draft isSpan] at passed
        cases level : proposed.severity with
        | other given => simp [level] at passed
        | severity severity =>
            rw [level] at passed
            obtain ⟨message, extent, own, spoken, located, unmarked, same⟩ :=
              draftScreen_eq_ok_iff.mp passed
            cases same
            exact ⟨⟨proposed, severity, message, extent, rfl, level, own, spoken, located, unmarked,
              rfl⟩, rfl⟩
  · rintro ⟨⟨proposed, severity, message, extent, rfl, level, own, spoken, located, unmarked, rfl⟩,
      rfl⟩
    have isSpan : ∀ value, proposed.span ≠ .other value := by
      intro value place
      simp [DraftSpan.locate, place] at located
    rw [screen_draft isSpan, level]
    exact draftScreen_eq_ok_iff.mpr ⟨message, extent, own, spoken, located, unmarked, rfl⟩

theorem finding?_of_screen_error {ruleId : String} {within : Span} {candidate : Candidate}
    {rejection : Rejection} (rejected : candidate.screen ruleId within = .error rejection) :
    candidate.finding? ruleId within = none := by
  cases stands : candidate.finding? ruleId within with
  | none => rfl
  | some finding =>
      have passed : candidate.screen ruleId within = .ok ⟨finding, candidate.obstacle?⟩ :=
        screen_eq_ok_iff.mpr ⟨stands, rfl⟩
      rw [rejected] at passed
      cases passed

/-- A candidate is rejected for the first check that it does not pass. -/
theorem screen_eq_error_iff {ruleId : String} {within : Span} {candidate : Candidate}
    {rejection : Rejection} :
    candidate.screen ruleId within = .error rejection ↔
      (candidate.defects ruleId within).head? = some rejection := by
  cases candidate with
  | stray value => simp [screen, defects]
  | draft proposed =>
      by_cases isSpan : ∀ value, proposed.span ≠ .other value
      · have placed : (match proposed.span with
            | .other value => [Rejection.notSpan value.typeName]
            | _ => []) = [] := by
          cases place : proposed.span with
          | other value => exact absurd place (isSpan value)
          | hollow | span => rfl
        rw [screen_draft isSpan, defects, placed]
        cases level : proposed.severity with
        | other value => simp
        | severity severity =>
            by_cases own : proposed.ruleId.text? = some ruleId
            · cases spoken : proposed.message? with
              | none => simp [Draft.screen, own, spoken]
              | some message =>
                  cases located : proposed.span.locate within with
                  | error first =>
                      have wrong := (DraftSpan.locate_eq_error_iff isSpan).mp located
                      simp [Draft.screen, own, spoken, located, List.head?_append, wrong]
                  | ok extent =>
                      have sound : proposed.span.defects within = [] := by
                        cases wrong : proposed.span.defects within with
                        | nil => rfl
                        | cons first rest =>
                            rw [(DraftSpan.locate_eq_error_iff isSpan).mpr
                              (congrArg List.head? wrong)] at located
                            cases located
                      cases marked : proposed.suppressed <;>
                        simp [Draft.screen, own, spoken, located, sound, marked]
            · simp [Draft.screen, own]
      · obtain ⟨value, place⟩ := Classical.not_forall.mp isSpan
        simp [screen, defects, Classical.not_not.mp place]

end Candidate

/-! ## Outcomes one after the other -/

namespace Outcome

theorem concat_map {α : Type} (proposals : α → List Proposal) (faults : α → List Fault)
    (items : List α) :
    concat (items.map fun item => ⟨proposals item, faults item⟩) =
      ⟨items.flatMap proposals, items.flatMap faults⟩ := by
  induction items with
  | nil => rfl
  | cons item rest ih =>
      change append _ (concat (rest.map _)) = _
      rw [ih]
      rfl

theorem proposals_concat (outcomes : List Outcome) :
    (concat outcomes).proposals = outcomes.flatMap (·.proposals) := by
  have whole := concat_map (·.proposals) (·.faults) outcomes
  rw [List.map_id'] at whole
  rw [whole]

theorem faults_concat (outcomes : List Outcome) :
    (concat outcomes).faults = outcomes.flatMap (·.faults) := by
  have whole := concat_map (·.proposals) (·.faults) outcomes
  rw [List.map_id'] at whole
  rw [whole]

theorem findings_concat (outcomes : List Outcome) :
    (concat outcomes).findings = outcomes.flatMap (·.findings) := by
  rw [findings, proposals_concat, List.map_flatMap]
  rfl

@[simp] theorem findings_empty : empty.findings = [] := rfl

@[simp] theorem findings_fault (rule : Rule) (node : Node) (errorType detail : String) :
    (fault rule node errorType detail).findings = [] := rfl

@[simp] theorem findings_append (first second : Outcome) :
    (first.append second).findings = first.findings ++ second.findings :=
  List.map_append

/-- The part of an outcome that comes from rules with certain ids. -/
def restrict (keep : String → Bool) (outcome : Outcome) : Outcome :=
  ⟨outcome.proposals.filter fun proposal => keep proposal.finding.ruleId,
    outcome.faults.filter fun fault => keep fault.ruleId⟩

theorem findings_restrict (keep : String → Bool) (outcome : Outcome) :
    (outcome.restrict keep).findings =
      outcome.findings.filter fun finding => keep finding.ruleId := by
  rw [findings, findings, List.filter_map]
  rfl

theorem restrict_fresh {outcome : Outcome}
    (fresh : ∀ finding ∈ outcome.findings, finding.suppressed = false) (keep : String → Bool) :
    ∀ finding ∈ (outcome.restrict keep).findings, finding.suppressed = false := by
  intro finding member
  rw [findings_restrict] at member
  exact fresh finding (List.mem_of_mem_filter member)

theorem restrict_concat (keep : String → Bool) (outcomes : List Outcome) :
    (concat outcomes).restrict keep = concat (outcomes.map (restrict keep)) := by
  induction outcomes with
  | nil => rfl
  | cons outcome rest ih =>
      rw [List.map_cons]
      change (outcome.append (concat rest)).restrict keep =
        (outcome.restrict keep).append (concat (rest.map (restrict keep)))
      rw [← ih]
      simp only [append, restrict, List.filter_append]

/-- All of an outcome comes from one rule, and no finding of it is suppressed. -/
structure ComesFrom (ruleId : String) (outcome : Outcome) : Prop where
  findings : ∀ finding ∈ outcome.findings, finding.ruleId = ruleId
  fresh : ∀ finding ∈ outcome.findings, finding.suppressed = false
  faults : ∀ fault ∈ outcome.faults, fault.ruleId = ruleId

theorem ComesFrom.empty (ruleId : String) : empty.ComesFrom ruleId :=
  ⟨by simp, by simp, by simp [Outcome.empty]⟩

theorem ComesFrom.fault (rule : Rule) (node : Node) (errorType detail : String) :
    (fault rule node errorType detail).ComesFrom rule.id :=
  ⟨by simp, by simp, by simp [Outcome.fault]⟩

theorem ComesFrom.concat {ruleId : String} {outcomes : List Outcome}
    (each : ∀ outcome ∈ outcomes, outcome.ComesFrom ruleId) :
    (concat outcomes).ComesFrom ruleId := by
  refine ⟨?_, ?_, ?_⟩
  · intro finding member
    rw [findings_concat] at member
    obtain ⟨outcome, listed, own⟩ := List.mem_flatMap.mp member
    exact (each outcome listed).findings finding own
  · intro finding member
    rw [findings_concat] at member
    obtain ⟨outcome, listed, own⟩ := List.mem_flatMap.mp member
    exact (each outcome listed).fresh finding own
  · intro fault member
    rw [faults_concat] at member
    obtain ⟨outcome, listed, own⟩ := List.mem_flatMap.mp member
    exact (each outcome listed).faults fault own

theorem ComesFrom.restrict {ruleId : String} {outcome : Outcome}
    (origin : outcome.ComesFrom ruleId) (keep : String → Bool) :
    outcome.restrict keep = if keep ruleId then outcome else .empty := by
  have proposals : (outcome.proposals.filter fun proposal => keep proposal.finding.ruleId) =
      outcome.proposals.filter fun _ => keep ruleId :=
    List.filter_congr fun proposal member => by
      rw [origin.findings _ (List.mem_map_of_mem member)]
  have faults : (outcome.faults.filter fun fault => keep fault.ruleId) =
      outcome.faults.filter fun _ => keep ruleId :=
    List.filter_congr fun fault member => by rw [origin.faults fault member]
  rw [Outcome.restrict, proposals, faults]
  cases keep ruleId with
  | true => simp
  | false => simp [Outcome.empty]

/-- Outcomes are gathered up to the first escape. -/
theorem gather_map {α : Type} {ask : α → Except Escape Outcome} {escape? : α → Option Escape}
    {bring : α → Outcome}
    (each : ∀ item, ask item =
      match escape? item with
      | some escape => .error escape
      | none => .ok (bring item)) (items : List α) :
    gather (items.map ask) =
      match items.findSome? escape? with
      | some escape => .error escape
      | none => .ok (concat (items.map bring)) := by
  induction items with
  | nil => rfl
  | cons item rest ih =>
      rw [List.map_cons, each, List.findSome?_cons]
      cases escape? item with
      | some escape => rfl
      | none =>
          simp only [gather, ih]
          cases rest.findSome? escape? <;> rfl

end Outcome

/-! ## Asking the rules -/

/-- Asking a rule about a node ends with an error that nothing handles: the rule fails and there is
no telling how, or a candidate that passes every check lies where nothing can be looked up. -/
inductive Rule.BreaksWith (tree : Tree) (cursor : Cursor) (rule : Rule) (escape : Escape) : Prop where
  | applying {failure : Failure} : rule.applies cursor = .error failure →
      failure.detail = .error escape → BreaksWith tree cursor rule escape
  | evaluating {failure : Failure} : rule.applies cursor = .ok true →
      rule.evaluate cursor tree = .error failure → failure.detail = .error escape →
      BreaksWith tree cursor rule escape
  | entering {found : List Candidate} {candidate : Candidate} {finding : Finding} :
      rule.applies cursor = .ok true → rule.evaluate cursor tree = .ok found → candidate ∈ found →
      candidate.finding? rule.id tree.span = some finding → candidate.obstacle? = some escape →
      BreaksWith tree cursor rule escape

namespace Rule

variable (tree : Tree) (cursor : Cursor) (rule : Rule)

/-- The error of a failure that there is no telling. -/
def escape? : Option Escape :=
  match Engine.candidates tree rule cursor with
  | .ok _ => none
  | .error failure =>
      match failure.detail with
      | .ok _ => none
      | .error escape => some escape

/-- The errors of looking up the candidates that pass. -/
def obstacles : List Escape :=
  match Engine.candidates tree rule cursor with
  | .ok found => found.filterMap fun candidate =>
      (candidate.finding? rule.id tree.span).bind fun _ => candidate.obstacle?
  | .error _ => []

variable {tree cursor rule}

theorem breaksWith_iff {escape : Escape} :
    rule.BreaksWith tree cursor escape ↔
      rule.escape? tree cursor = some escape ∨ escape ∈ rule.obstacles tree cursor := by
  unfold escape? obstacles Engine.candidates
  constructor
  · rintro (⟨failed, untold⟩ | ⟨applied, failed, untold⟩ | ⟨applied, found, member, fit, unseen⟩)
    · simp [failed, untold]
    · simp [applied, failed, untold]
    · simp only [applied, found, reduceCtorEq, List.mem_filterMap, false_or]
      exact ⟨_, member, by rw [fit, Option.bind_some, unseen]⟩
  · cases applied : rule.applies cursor with
    | error failure =>
        cases untold : failure.detail with
        | error own =>
            intro escaped
            simp only [untold, Option.some.injEq, List.not_mem_nil, or_false] at escaped
            exact .applying applied (escaped ▸ untold)
        | ok detail => simp [untold]
    | ok concerned =>
        cases concerned with
        | false => simp
        | true =>
            cases evaluated : rule.evaluate cursor tree with
            | error failure =>
                cases untold : failure.detail with
                | error own =>
                    intro escaped
                    simp only [untold, Option.some.injEq, List.not_mem_nil, or_false] at escaped
                    exact .evaluating applied evaluated (escaped ▸ untold)
                | ok detail => simp [untold]
            | ok found =>
                simp only [reduceCtorEq, List.mem_filterMap, false_or]
                rintro ⟨candidate, member, fit⟩
                obtain ⟨finding, stands, unseen⟩ := Option.bind_eq_some_iff.mp fit
                exact .entering applied evaluated member stands unseen

/-- A rule breaks no run where its failures can be told and its candidates can be looked up. -/
theorem not_breaksWith
    (told : ∀ failure, Engine.candidates tree rule cursor = .error failure →
      ∃ detail, failure.detail = .ok detail)
    (seen : ∀ found, Engine.candidates tree rule cursor = .ok found →
      ∀ candidate ∈ found, candidate.obstacle? = none)
    (escape : Escape) : ¬ rule.BreaksWith tree cursor escape := by
  intro breaks
  cases breaks with
  | applying failed untold =>
      obtain ⟨detail, known⟩ := told _ (by rw [Engine.candidates, failed])
      rw [known] at untold
      cases untold
  | evaluating applied failed untold =>
      obtain ⟨detail, known⟩ := told _ (by rw [Engine.candidates, applied, failed])
      rw [known] at untold
      cases untold
  | entering applied evaluated member _ unseen =>
      rw [seen _ (by rw [Engine.candidates, applied, evaluated]) _ member] at unseen
      cases unseen

end Rule

theorem Failure.detail_of (kind message : String) :
    ∃ detail, (Failure.of kind message).detail = .ok detail := by
  simp only [detail, of]
  split <;> exact ⟨_, rfl⟩

/-- A finding at a node can always be looked up. -/
theorem RuleInfo.obstacle?_finding (info : RuleInfo) (node : Node) (message : String) :
    (info.finding node message).obstacle? = none := rfl

namespace Engine

variable (engine : Engine) (tree : Tree) (cursor : Cursor)

/-- What comes of asking a rule about a node: nothing, if asking it ends with an escape. -/
def bring (rule : Rule) : Outcome :=
  match engine.invoke tree cursor rule with
  | .ok outcome => outcome
  | .error _ => .empty

/-- What the rules bring to a node, taken one by one. -/
def brought : Outcome :=
  Outcome.concat ((engine.rulesAt cursor).map (engine.bring tree cursor))

theorem invoke_eq (rule : Rule) :
    engine.invoke tree cursor rule =
      match rule.escape? tree cursor with
      | some escape => .error escape
      | none => .ok (engine.bring tree cursor rule) := by
  unfold bring invoke Rule.escape?
  cases candidates tree rule cursor with
  | ok found => rfl
  | error failure =>
      cases told : failure.detail with
      | ok detail => simp [told, Except.map]
      | error escape => simp [told, Except.map]

/-- The rules are asked one after the other, and what they bring counts if no escape ends it. -/
theorem dispatch_eq :
    engine.dispatch tree cursor =
      match (engine.rulesAt cursor).findSome? (Rule.escape? tree cursor) with
      | some escape => .error escape
      | none => .ok (engine.brought tree cursor) :=
  Outcome.gather_map (engine.invoke_eq tree cursor) (engine.rulesAt cursor)

theorem judge_comesFrom (rule : Rule) (node : Node) (candidate : Candidate) :
    (engine.judge tree rule node candidate).ComesFrom rule.id := by
  unfold judge
  split
  next proposal passed =>
    obtain ⟨sameRule, fresh⟩ := Candidate.finding?_fields (Candidate.screen_eq_ok_iff.mp passed).1
    refine ⟨?_, ?_, by simp⟩
    · simpa [Outcome.findings] using sameRule
    · simpa [Outcome.findings] using fresh
  next rejection _ => exact .fault rule node rejection.errorType rejection.detail

theorem bring_of_ok {rule : Rule} {found : List Candidate}
    (given : candidates tree rule cursor = .ok found) :
    engine.bring tree cursor rule =
      Outcome.concat (found.map (engine.judge tree rule cursor.node)) := by
  rw [bring, invoke, given]

theorem bring_of_error {rule : Rule} {failure : Failure}
    (failed : candidates tree rule cursor = .error failure) :
    engine.bring tree cursor rule =
      match failure.detail with
      | .ok detail => Outcome.fault rule cursor.node failure.kind detail
      | .error _ => .empty := by
  rw [bring, invoke, failed]
  cases told : failure.detail <;> simp [told, Except.map]

/-- Whatever a rule does, all that comes of asking it carries its id. -/
theorem bring_comesFrom (rule : Rule) : (engine.bring tree cursor rule).ComesFrom rule.id := by
  cases given : candidates tree rule cursor with
  | error failure =>
      rw [engine.bring_of_error tree cursor given]
      cases failure.detail with
      | error escape => exact .empty rule.id
      | ok detail => exact .fault rule cursor.node failure.kind detail
  | ok found =>
      rw [engine.bring_of_ok tree cursor given]
      refine Outcome.ComesFrom.concat fun outcome member => ?_
      obtain ⟨candidate, _, rfl⟩ := List.mem_map.mp member
      exact engine.judge_comesFrom tree rule cursor.node candidate

theorem brought_fresh :
    ∀ finding ∈ (engine.brought tree cursor).findings, finding.suppressed = false := by
  intro finding member
  rw [brought, Outcome.findings_concat] at member
  obtain ⟨outcome, listed, own⟩ := List.mem_flatMap.mp member
  obtain ⟨rule, _, rfl⟩ := List.mem_map.mp listed
  exact (engine.bring_comesFrom tree cursor rule).fresh finding own

/-- What the rules of certain ids bring to a node is found by asking these rules only. -/
theorem restrict_brought (keep : String → Bool) :
    (engine.brought tree cursor).restrict keep =
      Outcome.concat (((engine.rulesAt cursor).filter fun rule => keep rule.id).map
        (engine.bring tree cursor)) := by
  rw [brought, Outcome.restrict_concat, List.map_map]
  induction engine.rulesAt cursor with
  | nil => rfl
  | cons rule rest ih =>
      rw [List.map_cons, Function.comp_apply,
        (engine.bring_comesFrom tree cursor rule).restrict keep]
      by_cases kept : keep rule.id = true
      · rw [if_pos kept, List.filter_cons_of_pos (by exact kept), List.map_cons]
        exact congrArg (Outcome.append _) ih
      · rw [if_neg kept, List.filter_cons_of_neg (by exact kept), ← ih]
        rfl

/-! ### Errors that nothing handles -/

/-- The first error at a node that nothing handles, apart from those of the path. All rules are
asked before the first finding is entered. -/
def breach? : Option Escape :=
  ((engine.rulesAt cursor).findSome? (Rule.escape? tree cursor)).or
    ((engine.rulesAt cursor).flatMap (Rule.obstacles tree cursor)).head?

theorem filterMap_obstacle_judge (rule : Rule) (node : Node) (candidate : Candidate) :
    (engine.judge tree rule node candidate).proposals.filterMap (·.obstacle) =
      ((candidate.finding? rule.id tree.span).bind fun _ => candidate.obstacle?).toList := by
  unfold judge
  cases screened : candidate.screen rule.id tree.span with
  | ok proposal =>
      obtain ⟨stands, looked⟩ := Candidate.screen_eq_ok_iff.mp screened
      rw [stands, ← looked]
      cases seen : proposal.obstacle <;> simp [seen]
  | error rejection =>
      rw [Candidate.finding?_of_screen_error screened]
      rfl

theorem filterMap_obstacle_bring (rule : Rule) :
    (engine.bring tree cursor rule).proposals.filterMap (·.obstacle) =
      rule.obstacles tree cursor := by
  cases given : candidates tree rule cursor with
  | error failure =>
      rw [engine.bring_of_error tree cursor given, Rule.obstacles, given]
      cases failure.detail <;> rfl
  | ok found =>
      rw [engine.bring_of_ok tree cursor given, Rule.obstacles, given]
      simp only [Outcome.proposals_concat, List.flatMap_map, List.filterMap_flatMap,
        filterMap_obstacle_judge]
      rw [List.filterMap_eq_flatMap_toList]

theorem findSome?_obstacle_brought :
    (engine.brought tree cursor).proposals.findSome? (·.obstacle) =
      ((engine.rulesAt cursor).flatMap (Rule.obstacles tree cursor)).head? := by
  rw [← List.head?_filterMap, brought, Outcome.proposals_concat, List.flatMap_map,
    List.filterMap_flatMap]
  simp only [filterMap_obstacle_bring]

variable {engine tree cursor}

theorem breach?_eq_none_iff :
    engine.breach? tree cursor = none ↔
      ∀ rule ∈ engine.rulesAt cursor, ∀ escape, ¬ rule.BreaksWith tree cursor escape := by
  simp only [breach?, Option.or_eq_none_iff, List.findSome?_eq_none_iff, List.head?_eq_none_iff,
    List.flatMap_eq_nil_iff, Rule.breaksWith_iff, not_or]
  constructor
  · rintro ⟨told, seen⟩ rule asked escape
    refine ⟨?_, ?_⟩
    · rw [told rule asked]
      nofun
    · rw [seen rule asked]
      exact List.not_mem_nil
  · intro whole
    refine ⟨fun rule asked => ?_, fun rule asked => ?_⟩
    · exact Option.eq_none_iff_forall_ne_some.mpr fun escape => (whole rule asked escape).1
    · exact List.eq_nil_iff_forall_not_mem.mpr fun escape => (whole rule asked escape).2

theorem breaksWith_of_breach? {escape : Escape} (broken : engine.breach? tree cursor = some escape) :
    ∃ rule ∈ engine.rulesAt cursor, rule.BreaksWith tree cursor escape := by
  simp only [breach?, Option.or_eq_some_iff] at broken
  simp only [Rule.breaksWith_iff]
  rcases broken with untold | ⟨_, unseen⟩
  · obtain ⟨rule, asked, own⟩ := List.exists_of_findSome?_eq_some untold
    exact ⟨rule, asked, .inl own⟩
  · obtain ⟨rule, asked, own⟩ := List.mem_flatMap.mp (List.mem_of_head? unseen)
    exact ⟨rule, asked, .inr own⟩

end Engine

/-! ## The rules that are asked -/

namespace Engine

def asksOfNode (engine : Engine) (cursor : Cursor) (rule : Rule) : Bool :=
  engine.enables rule && rule.scope == .node && rule.isFor cursor.node.kind

def asksOfTree (engine : Engine) (rule : Rule) : Bool :=
  engine.enables rule && rule.scope == .tree

/-- The rules asked about a node, without the index and in the order of registration. -/
theorem rulesAt_eq {engine : Engine} (sound : engine.catalogue.Sound) (cursor : Cursor) :
    engine.rulesAt cursor =
      engine.catalogue.rules.filter (engine.asksOfNode cursor) ++
        if cursor.isRoot then engine.catalogue.rules.filter engine.asksOfTree else [] := by
  rw [rulesAt, sound.rulesFor, enabledRules, List.filter_filter, List.filter_filter]
  congr 1
  · refine List.filter_congr fun rule _ => ?_
    rw [asksOfNode, Bool.and_comm (rule.scope == .node)]
  · split
    · exact List.filter_congr fun rule _ => Bool.and_comm _ _
    · rfl

/-- The rule, once registered, is asked about the node. -/
def Asks (engine : Engine) (cursor : Cursor) (rule : Rule) : Prop :=
  engine.asksOfNode cursor rule = true ∨ cursor.isRoot = true ∧ engine.asksOfTree rule = true

theorem mem_rulesAt {engine : Engine} (sound : engine.catalogue.Sound) {cursor : Cursor}
    {rule : Rule} :
    rule ∈ engine.rulesAt cursor ↔ rule ∈ engine.catalogue.rules ∧ engine.Asks cursor rule := by
  rw [rulesAt_eq sound, List.mem_append, List.mem_filter, Asks, and_or_left]
  cases cursor.isRoot <;> simp [List.mem_filter]

theorem asks_congr {left right : Engine} (policy : left.policy = right.policy) :
    left.Asks = right.Asks := by
  funext cursor rule
  simp only [Asks, asksOfNode, asksOfTree, enables, policy]

theorem filter_rulesAt {engine : Engine} (sound : engine.catalogue.Sound) (cursor : Cursor)
    (keep : Rule → Bool) :
    (engine.rulesAt cursor).filter keep =
      (engine.catalogue.rules.filter keep).filter (engine.asksOfNode cursor) ++
        if cursor.isRoot then (engine.catalogue.rules.filter keep).filter engine.asksOfTree
        else [] := by
  rw [rulesAt_eq sound, List.filter_append, List.filter_comm]
  split
  · rw [List.filter_comm keep engine.asksOfTree]
  · rfl

/-- Of a policy, only the disabled rules play a part when rules are chosen. -/
theorem rulesAt_congr {left right : Engine} (catalogue : left.catalogue = right.catalogue)
    (disables : ∀ id, left.policy.disables id = right.policy.disables id) :
    left.rulesAt = right.rulesAt := by
  have enables : left.enables = right.enables := by
    funext rule
    rw [Engine.enables, Engine.enables, disables]
  funext cursor
  rw [rulesAt, rulesAt, enabledRules, enabledRules, catalogue, enables]

/-- Of a policy, only the severities play a part when a rule is asked. -/
theorem bring_congr {left right : Engine}
    (severityFor : ∀ id own, left.policy.severityFor id own = right.policy.severityFor id own)
    (tree : Tree) (cursor : Cursor) : left.bring tree cursor = right.bring tree cursor := by
  funext rule
  unfold bring invoke judge
  simp only [severityFor]

theorem breach?_congr {left right : Engine} (rulesAt : left.rulesAt = right.rulesAt) (tree : Tree) :
    left.breach? tree = right.breach? tree := by
  funext cursor
  rw [breach?, breach?, rulesAt]

/-- Engines that share a policy and the rules of certain ids find the same through these rules,
whatever their other rules are and do. -/
theorem restrict_brought_congr {left right : Engine} (leftSound : left.catalogue.Sound)
    (rightSound : right.catalogue.Sound) (policy : left.policy = right.policy)
    {keep : String → Bool}
    (shared : (left.catalogue.rules.filter fun rule => keep rule.id) =
      right.catalogue.rules.filter fun rule => keep rule.id) (tree : Tree) (cursor : Cursor) :
    (left.brought tree cursor).restrict keep = (right.brought tree cursor).restrict keep := by
  have asksOfNode_eq : left.asksOfNode cursor = right.asksOfNode cursor := by
    funext rule
    rw [asksOfNode, asksOfNode, enables, enables, policy]
  have asksOfTree_eq : left.asksOfTree = right.asksOfTree := by
    funext rule
    rw [asksOfTree, asksOfTree, enables, enables, policy]
  have severityFor : ∀ id own, left.policy.severityFor id own = right.policy.severityFor id own :=
    fun id own => by rw [policy]
  rw [restrict_brought, restrict_brought, filter_rulesAt leftSound, filter_rulesAt rightSound,
    shared, asksOfNode_eq, asksOfTree_eq, bring_congr severityFor]

end Engine

end TreeLint
