import TreeLint.Inspection.Run
import TreeLint.Proofs.LedgerProperties

/-!
# What waivers decide

Whether a waiver covers a finding is a matter of the finding's key and the path. With a path that
is a text there is always an answer; with any other path, the only failure there is names the type
of the path.
-/

set_option autoImplicit false

namespace TreeLint

/-! ## Single waivers -/

namespace Waiver

/-- What it means for a waiver to cover the findings of a key in the file of a path. -/
def Covers (path : String) (key : FindingKey) : Waiver → Prop
  | .inline waiver =>
      (.ofInt waiver.scope.start.offset ≤ key.span.start.offset ∧
        key.span.stop.offset ≤ .ofInt waiver.scope.stop.offset) ∧
      (waiver.ruleIds = [] ∨ key.ruleId ∈ waiver.ruleIds)
  | .exclusion excluded =>
      (excluded.ruleId = none ∨ excluded.ruleId = some key.ruleId) ∧
      Glob.pathMatches path excluded.pattern = true

instance (path : String) (key : FindingKey) : DecidablePred (Covers path key)
  | .inline _ => inferInstanceAs (Decidable ((_ ∧ _) ∧ (_ ∨ _)))
  | .exclusion _ => inferInstanceAs (Decidable ((_ ∨ _) ∧ _))

theorem covers_text (finding : Finding) (path : String) (waiver : Waiver) :
    waiver.covers finding (.text path) = .ok (decide (waiver.Covers path finding.key)) := by
  cases waiver with
  | inline waiver =>
      refine congrArg Except.ok (Bool.eq_iff_iff.mpr ?_)
      rw [decide_eq_true_iff]
      simp [InlineWaiver.covers, InlineWaiver.isWildcard, Covers, Span.encloses, Finding.key,
        Extent.map, Spot.map]
  | exclusion excluded =>
      obtain ⟨pattern, ruleId⟩ := excluded
      simp only [covers, Exclusion.covers, Covers, Finding.key]
      cases ruleId with
      | none => simp
      | some id => by_cases same : id = finding.ruleId <;> simp [same]

theorem covers_error {finding : Finding} {path : Value} {waiver : Waiver} {error : PathNotText}
    (failed : waiver.covers finding path = .error error) : error = ⟨path.typeName⟩ := by
  cases waiver with
  | inline waiver => simp [covers] at failed
  | exclusion excluded =>
      simp only [covers, Exclusion.covers] at failed
      split at failed
      · cases path <;> simp_all
      · cases failed

/-! ## Lists of waivers -/

theorem anyCovers_text (finding : Finding) (path : String) (waivers : List Waiver) :
    anyCovers finding (.text path) waivers =
      .ok (waivers.any fun waiver => decide (waiver.Covers path finding.key)) := by
  induction waivers with
  | nil => rfl
  | cons waiver rest ih =>
      rw [anyCovers, covers_text, ih, List.any_cons]
      cases decide (waiver.Covers path finding.key) <;> rfl

theorem anyCovers_error {finding : Finding} {path : Value} {waivers : List Waiver}
    {error : PathNotText} (failed : anyCovers finding path waivers = .error error) :
    error = ⟨path.typeName⟩ := by
  induction waivers with
  | nil => simp [anyCovers] at failed
  | cons waiver rest ih =>
      rw [anyCovers] at failed
      split at failed
      · cases failed
      · exact ih failed
      next own =>
        cases failed
        exact covers_error own

/-- Directives are asked before exclusions, and a single one that covers the finding ends it. -/
theorem anyCovers_inline_append {finding : Finding} {path : Value} (inline : List InlineWaiver)
    (others : List Waiver) :
    anyCovers finding path (inline.map .inline ++ others) =
      if inline.any (·.covers finding) then .ok true else anyCovers finding path others := by
  induction inline with
  | nil => rfl
  | cons waiver rest ih =>
      rw [List.map_cons, List.cons_append, anyCovers, ih, List.any_cons]
      cases covered : waiver.covers finding <;> simp [covers, covered]

end Waiver

/-! ## The waivers of a tree -/

namespace WaiverSheet

/-- Whether the waivers silence a finding; one that they cannot decide on is not silenced. -/
def silences (sheet : WaiverSheet) (finding : Finding) : Bool :=
  match sheet.covers finding with
  | .ok silenced => silenced
  | .error _ => false

/-- Whether the path keeps the waivers from deciding on a finding. -/
def stuckOn (sheet : WaiverSheet) (finding : Finding) : Bool :=
  match sheet.covers finding with
  | .ok _ => false
  | .error _ => true

/-- A finding as it is entered into the ledger. -/
def mark (sheet : WaiverSheet) (finding : Finding) : Finding :=
  if sheet.silences finding then { finding with suppressed := true } else finding

theorem silences_text {sheet : WaiverSheet} {path : String} (named : sheet.path = .text path)
    (finding : Finding) :
    sheet.silences finding = true ↔ ∃ waiver ∈ sheet.waivers, waiver.Covers path finding.key := by
  rw [silences, covers, named, Waiver.anyCovers_text]
  simp [List.any_eq_true]

theorem silences_eq_of_key {sheet : WaiverSheet} {path : String} (named : sheet.path = .text path)
    {left right : Finding} (sameKey : left.key = right.key) :
    sheet.silences left = sheet.silences right := by
  rw [Bool.eq_iff_iff, silences_text named, silences_text named, sameKey]

theorem not_silences_eq_of_key {sheet : WaiverSheet} {path : String}
    (named : sheet.path = .text path) (left right : Finding) (sameKey : left.key = right.key) :
    (!sheet.silences left) = !sheet.silences right :=
  congrArg not (silences_eq_of_key named sameKey)

theorem stuckOn_text {sheet : WaiverSheet} {path : String} (named : sheet.path = .text path)
    (finding : Finding) : sheet.stuckOn finding = false := by
  rw [stuckOn, covers, named, Waiver.anyCovers_text]

/-- Why a proposal is not entered, if it is not: the waivers are stuck on it, or its place cannot be
looked up. -/
def refusal? (sheet : WaiverSheet) (proposal : Proposal) : Option RunError :=
  if sheet.stuckOn proposal.finding then some (.path ⟨sheet.path.typeName⟩)
  else proposal.obstacle.map .escaped

/-- Findings are entered one after the other, up to the first that is refused. -/
theorem enterProposals_eq (sheet : WaiverSheet) (ledger : Ledger) (proposals : List Proposal) :
    Run.enterProposals sheet ledger proposals =
      match proposals.findSome? sheet.refusal? with
      | some error => .error error
      | none => .ok (((proposals.map (·.finding)).map sheet.mark).foldl Ledger.add ledger) := by
  induction proposals generalizing ledger with
  | nil => rfl
  | cons proposal rest ih =>
      obtain ⟨finding, obstacle⟩ := proposal
      cases answer : sheet.covers finding with
      | error error =>
          have stuck : sheet.stuckOn finding = true := by rw [stuckOn, answer]
          simp [Run.enterProposals, answer, refusal?, stuck, Waiver.anyCovers_error answer]
      | ok silenced =>
          have free : sheet.stuckOn finding = false := by rw [stuckOn, answer]
          have marked : sheet.mark finding =
              if silenced then { finding with suppressed := true } else finding := by
            rw [mark, silences, answer]
          cases obstacle with
          | some escape => simp [Run.enterProposals, answer, refusal?, free]
          | none =>
              simp only [Run.enterProposals, answer, ih, List.findSome?_cons, refusal?, free,
                Bool.false_eq_true, ↓reduceIte, Option.map_none, List.map_cons, List.foldl_cons,
                marked]

theorem filter_map_mark_kept (sheet : WaiverSheet) {findings : List Finding}
    (fresh : ∀ finding ∈ findings, finding.suppressed = false) :
    ((findings.map sheet.mark).filter fun finding => !finding.suppressed) =
      findings.filter fun finding => !sheet.silences finding := by
  induction findings with
  | nil => rfl
  | cons finding rest ih =>
      have own := fresh finding List.mem_cons_self
      have later := ih fun other member => fresh other (List.mem_cons_of_mem finding member)
      rw [List.map_cons, List.filter_cons, List.filter_cons, later, mark]
      by_cases silenced : sheet.silences finding = true <;> simp [silenced, own]

/-- The keys counted as suppressed are those that the waivers silence. -/
theorem filter_map_mark_silenced (sheet : WaiverSheet) {findings : List Finding}
    (fresh : ∀ finding ∈ findings, finding.suppressed = false) :
    ((findings.map sheet.mark).filter Finding.suppressed).map Finding.key =
      (findings.filter sheet.silences).map Finding.key := by
  induction findings with
  | nil => rfl
  | cons finding rest ih =>
      have own := fresh finding List.mem_cons_self
      have later := ih fun other member => fresh other (List.mem_cons_of_mem finding member)
      rw [List.map_cons, List.filter_cons, List.filter_cons, mark]
      by_cases silenced : sheet.silences finding = true
      · simp only [silenced, ↓reduceIte, List.map_cons, later]
        rfl
      · simp [silenced, own, later]

end WaiverSheet

end TreeLint
