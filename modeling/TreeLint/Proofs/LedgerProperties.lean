import TreeLint.Proofs.ListsAndResults
import TreeLint.Report.Ledger

/-!
# What a ledger holds

A ledger is a function of what was entered, in the order of entry: the first unsuppressed finding of
each key, the keys of the suppressed findings, and the faults. Entries of one sort do not disturb
those of another.
-/

set_option autoImplicit false

namespace TreeLint

/-! ## The first finding of each key -/

namespace Finding

/-- The findings whose key no earlier finding has. -/
def firsts : List Finding → List Finding
  | [] => []
  | finding :: rest => finding :: (firsts rest).filter fun later => later.key ≠ finding.key

theorem firsts_append_singleton (findings : List Finding) (added : Finding) :
    firsts (findings ++ [added]) =
      if added.key ∈ findings.map key then firsts findings else firsts findings ++ [added] := by
  induction findings with
  | nil => rfl
  | cons finding rest ih =>
      rw [List.cons_append, firsts, ih, List.map_cons]
      by_cases same : added.key = finding.key
      · have present : added.key ∈ finding.key :: rest.map key := same ▸ List.mem_cons_self
        rw [if_pos present]
        split <;> simp [firsts, same]
      · have cons_iff : added.key ∈ finding.key :: rest.map key ↔ added.key ∈ rest.map key := by
          rw [List.mem_cons, or_iff_right same]
        simp only [cons_iff]
        split <;> simp [firsts, same]

/-- Later findings neither replace nor move the first ones. -/
theorem firsts_sublist_append (front back : List Finding) :
    (firsts front).Sublist (firsts (front ++ back)) := by
  induction back using List.reverseRecOn with
  | nil => rw [List.append_nil]
  | append_singleton back added ih =>
      rw [← List.append_assoc, firsts_append_singleton]
      split
      · exact ih
      · exact ih.trans (List.sublist_append_left _ _)

/-- A finding is a first one exactly when a search for its key stops at it. -/
theorem mem_firsts {findings : List Finding} {finding : Finding} :
    finding ∈ firsts findings ↔
      findings.find? (fun other => other.key = finding.key) = some finding := by
  induction findings with
  | nil => simp [firsts]
  | cons head rest ih =>
      rw [firsts, List.mem_cons, List.mem_filter, ih]
      by_cases same : head.key = finding.key
      · simp only [List.find?_cons, same, decide_true, Option.some.injEq, ne_eq,
          not_true_eq_false, decide_false, Bool.false_eq_true, and_false, or_false]
        exact eq_comm
      · have different : finding ≠ head := fun equal => same (equal ▸ rfl)
        have later : decide (finding.key ≠ head.key) = true := by simpa using Ne.symm same
        simp [same, different, later]

theorem mem_of_mem_firsts {findings : List Finding} {finding : Finding}
    (member : finding ∈ firsts findings) : finding ∈ findings :=
  List.mem_of_find?_eq_some (mem_firsts.mp member)

theorem mem_map_key_firsts {findings : List Finding} {wanted : FindingKey} :
    wanted ∈ (firsts findings).map key ↔ wanted ∈ findings.map key := by
  constructor
  · intro member
    obtain ⟨finding, isFirst, rfl⟩ := List.mem_map.mp member
    exact List.mem_map_of_mem (mem_of_mem_firsts isFirst)
  · intro member
    obtain ⟨finding, entered, rfl⟩ := List.mem_map.mp member
    cases found : findings.find? (fun other => other.key = finding.key) with
    | none => simpa using List.find?_eq_none.mp found finding entered
    | some first =>
        have sameKey : first.key = finding.key := by simpa using List.find?_some found
        rw [← sameKey] at found ⊢
        exact List.mem_map_of_mem (mem_firsts.mpr found)

theorem nodup_map_key_firsts (findings : List Finding) : ((firsts findings).map key).Nodup := by
  induction findings with
  | nil => exact List.nodup_nil
  | cons finding rest ih =>
      rw [firsts, List.map_cons, List.nodup_cons]
      constructor
      · intro member
        obtain ⟨later, kept, sameKey⟩ := List.mem_map.mp member
        simpa [sameKey] using (List.mem_filter.mp kept).2
      · exact ih.sublist (List.filter_sublist.map key)

/-- Leaving out whole keys before or after looking for first findings comes to the same. -/
theorem filter_firsts {keep : Finding → Bool}
    (byKey : ∀ left right : Finding, left.key = right.key → keep left = keep right)
    (findings : List Finding) : (firsts findings).filter keep = firsts (findings.filter keep) := by
  induction findings with
  | nil => rfl
  | cons finding rest ih =>
      rw [firsts]
      by_cases kept : keep finding = true
      · rw [List.filter_cons_of_pos kept, List.filter_cons_of_pos kept, firsts, ← ih,
          List.filter_comm]
      · rw [List.filter_cons_of_neg kept, List.filter_cons_of_neg kept, ← ih, List.filter_filter]
        refine List.filter_congr fun later _ => ?_
        by_cases sameKey : later.key = finding.key
        · have dropped : keep later = false := by
            rw [byKey later finding sameKey]
            simpa using kept
          rw [dropped, Bool.false_and]
        · simp [sameKey]

theorem mem_firsts_filter {keep : Finding → Bool}
    (byKey : ∀ left right : Finding, left.key = right.key → keep left = keep right)
    {findings : List Finding} {finding : Finding} :
    finding ∈ firsts (findings.filter keep) ↔
      findings.find? (fun other => other.key = finding.key) = some finding ∧
        keep finding = true := by
  rw [← filter_firsts byKey, List.mem_filter, mem_firsts]

/-- Changes that leave the keys alone do not decide which findings are first. -/
theorem firsts_map {change : Finding → Finding}
    (sameKey : ∀ finding, (change finding).key = finding.key) (findings : List Finding) :
    firsts (findings.map change) = (firsts findings).map change := by
  induction findings with
  | nil => rfl
  | cons finding rest ih =>
      rw [List.map_cons, firsts, firsts, ih, List.map_cons, List.filter_map]
      congr 2
      refine List.filter_congr fun later _ => ?_
      rw [Function.comp_apply, sameKey, sameKey]

end Finding

/-! ## The ledger as a function of its entries -/

namespace Ledger

/-- The ledger into which findings and faults were entered in the given orders. -/
def recording (findings : List Finding) (faults : List Fault) : Ledger :=
  { kept := Finding.firsts (findings.filter fun finding => !finding.suppressed)
    silenced := ((findings.filter Finding.suppressed).map Finding.key).eraseDups
    faults }

theorem add_recording (findings : List Finding) (faults : List Fault) (finding : Finding) :
    (recording findings faults).add finding = recording (findings ++ [finding]) faults := by
  unfold add
  by_cases suppressed : finding.suppressed = true
  · by_cases known : finding.key ∈ (findings.filter Finding.suppressed).map Finding.key
    · simp [-List.mem_map, recording, suppressed, eraseDups_append_singleton, insertNew, known]
    · simp [-List.mem_map, recording, suppressed, eraseDups_append_singleton, insertNew, known]
  · have known : ((recording findings faults).kept.any fun earlier => earlier.key == finding.key) =
        decide (finding.key ∈
          (findings.filter fun earlier => !earlier.suppressed).map Finding.key) := by
      rw [Bool.eq_iff_iff, decide_eq_true_iff, ← Finding.mem_map_key_firsts, List.any_eq_true]
      simp [recording, List.mem_map]
    simp only [suppressed, Bool.false_eq_true, ↓reduceIte, known, decide_eq_true_eq]
    simp only [recording, List.filter_append, List.filter_cons, suppressed, Bool.not_false,
      ↓reduceIte, List.filter_nil, Finding.firsts_append_singleton, Bool.false_eq_true,
      List.append_nil]
    split <;> rfl

theorem addFault_recording (findings : List Finding) (faults : List Fault) (fault : Fault) :
    (recording findings faults).addFault fault = recording findings (faults ++ [fault]) := rfl

theorem foldl_add_recording (findings added : List Finding) (faults : List Fault) :
    added.foldl add (recording findings faults) = recording (findings ++ added) faults := by
  induction added generalizing findings with
  | nil => rw [List.foldl_nil, List.append_nil]
  | cons finding rest ih =>
      rw [List.foldl_cons, add_recording, ih, List.append_assoc, List.singleton_append]

theorem foldl_addFault_recording (findings : List Finding) (faults added : List Fault) :
    added.foldl addFault (recording findings faults) = recording findings (faults ++ added) := by
  induction added generalizing faults with
  | nil => rw [List.foldl_nil, List.append_nil]
  | cons fault rest ih =>
      rw [List.foldl_cons, addFault_recording, ih, List.append_assoc, List.singleton_append]

end Ledger

/-! ## Counts by severity -/

theorem Summary.count_ofFindings (findings : List Finding) (severity : Severity) :
    (Summary.ofFindings findings).count severity =
      (findings.filter fun finding => finding.severity = severity).length := by
  unfold Summary.ofFindings
  induction findings using List.reverseRecOn with
  | nil => cases severity <;> rfl
  | append_singleton findings finding ih =>
      rw [List.foldl_append, List.foldl_cons, List.foldl_nil, List.filter_append,
        List.length_append, ← ih]
      cases own : finding.severity <;> cases severity <;>
        simp [Summary.increment, Summary.count, own]

/-! ## Exit codes -/

theorem Severity.rank_le_two (severity : Severity) : severity.rank ≤ 2 := by
  cases severity <;> decide

theorem foldl_rank_le_iff {findings : List Finding} {low bound : Nat} :
    findings.foldl (fun rank finding => max rank finding.severity.rank) low ≤ bound ↔
      low ≤ bound ∧ ∀ finding ∈ findings, finding.severity.rank ≤ bound := by
  induction findings generalizing low with
  | nil => simp
  | cons finding rest ih =>
      rw [List.foldl_cons, ih, List.forall_mem_cons, Nat.max_le, and_assoc]

namespace Report

/-- An exit code is the least bound on the ranks of the findings, and of an error for a fault. -/
theorem exitCode_le_iff {report : Report} {bound : Nat} :
    report.exitCode ≤ bound ↔
      (report.faults ≠ [] → 2 ≤ bound) ∧
        ∀ finding ∈ report.findings, finding.severity.rank ≤ bound := by
  unfold exitCode
  cases report.faults with
  | nil => simp [foldl_rank_le_iff]
  | cons fault rest =>
      have graver (two : 2 ≤ bound) (finding : Finding) : finding.severity.rank ≤ bound :=
        finding.severity.rank_le_two.trans two
      simpa [Severity.rank] using fun two finding _ => graver two finding

theorem exitCode_le_of_subset {fewer more : Report} (findings : fewer.findings ⊆ more.findings)
    (faults : fewer.faults ≠ [] → more.faults ≠ []) : fewer.exitCode ≤ more.exitCode := by
  obtain ⟨faulty, bounded⟩ := exitCode_le_iff.mp (Nat.le_refl more.exitCode)
  refine exitCode_le_iff.mpr ⟨fun faulted => faulty (faults faulted), ?_⟩
  intro finding member
  exact bounded finding (findings member)

end Report

end TreeLint
