import Mathlib.Data.Multiset.ZeroCons
import TreeLint.Proofs.LedgerProperties
import TreeLint.Proofs.StableSort

/-!
# Entries in any order

A report hangs on the order of its entries only through ties: among findings, or among faults, that
differ though they are sorted alike. What does not hang on the order at all are the number of
suppressed findings, the keys that are reported, and where the faults are sorted in.
-/

set_option autoImplicit false

namespace TreeLint

/-! ## Sort keys -/

/-- What findings are sorted by: start, rule, end and message. -/
def Finding.sortKey (finding : Finding) : Amount × String × Amount × String :=
  (finding.span.start.offset.amount, finding.ruleId, finding.span.stop.offset.amount,
    finding.message)

/-- What faults are sorted by: start, rule, type and detail. -/
def Fault.sortKey (fault : Fault) : Int × String × String × String :=
  (fault.offset, fault.ruleId, fault.errorType, fault.detail)

theorem Finding.order_eq_iff (left right : Finding) :
    left.order right = .eq ↔ left.sortKey = right.sortKey := by
  simp only [order, Ordering.then_eq_eq, Std.compare_eq_iff_eq, sortKey, Prod.mk.injEq]

theorem Fault.order_eq_iff (left right : Fault) :
    left.order right = .eq ↔ left.sortKey = right.sortKey := by
  simp only [order, Ordering.then_eq_eq, Std.compare_eq_iff_eq, sortKey, Prod.mk.injEq]

theorem Finding.sortKey_eq_of_key_eq {left right : Finding} (sameKey : left.key = right.key) :
    left.sortKey = right.sortKey := by
  simp only [key, FindingKey.mk.injEq, Extent.map, Extent.mk.injEq, Spot.map, Spot.mk.injEq]
    at sameKey
  obtain ⟨rule, ⟨⟨_, _, start⟩, ⟨_, _, stop⟩⟩, message⟩ := sameKey
  simp only [sortKey, rule, start, stop, message]

/-! ## Entries -/

namespace Ledger

inductive Entry where
  | finding (finding : Finding)
  | fault (fault : Fault)

namespace Entry

def finding? : Entry → Option Finding
  | finding own => some own
  | fault _ => none

def fault? : Entry → Option Fault
  | finding _ => none
  | fault own => some own

/-- The findings among the entries that no directive silences. -/
def unsuppressed (entries : List Entry) : List Finding :=
  (entries.filterMap finding?).filter fun finding => !finding.suppressed

theorem mem_unsuppressed {entries : List Entry} {own : Finding} :
    own ∈ unsuppressed entries ↔ finding own ∈ entries ∧ own.suppressed = false := by
  simp only [unsuppressed, List.mem_filter, List.mem_filterMap, Bool.not_eq_true']
  refine and_congr_left fun _ => ?_
  constructor
  · rintro ⟨entry, member, given⟩
    cases entry with
    | finding other =>
        cases given
        exact member
    | fault other => cases given
  · intro member
    exact ⟨finding own, member, rfl⟩

theorem mem_faults {entries : List Entry} {own : Fault} :
    own ∈ entries.filterMap fault? ↔ fault own ∈ entries := by
  rw [List.mem_filterMap]
  constructor
  · rintro ⟨entry, member, given⟩
    cases entry with
    | finding other => cases given
    | fault other =>
        cases given
        exact member
  · intro member
    exact ⟨fault own, member, rfl⟩

end Entry

def enter (ledger : Ledger) : Entry → Ledger
  | .finding finding => ledger.add finding
  | .fault fault => ledger.addFault fault

/-- The ledger with the entries that were made in the given order. -/
def holding (entries : List Entry) : Ledger :=
  entries.foldl enter empty

theorem holding_eq_recording (entries : List Entry) :
    holding entries =
      recording (entries.filterMap Entry.finding?) (entries.filterMap Entry.fault?) := by
  induction entries using List.reverseRecOn with
  | nil => rfl
  | append_singleton entries entry ih =>
      rw [holding, List.foldl_append, ← holding, ih]
      cases entry with
      | finding own =>
          have added := add_recording (entries.filterMap Entry.finding?)
            (entries.filterMap Entry.fault?) own
          simpa [enter, List.filterMap_cons, Entry.finding?, Entry.fault?] using added
      | fault own =>
          have added := addFault_recording (entries.filterMap Entry.finding?)
            (entries.filterMap Entry.fault?) own
          simpa [enter, List.filterMap_cons, Entry.finding?, Entry.fault?] using added

theorem kept_holding (entries : List Entry) :
    (holding entries).kept = Finding.firsts (Entry.unsuppressed entries) := by
  rw [holding_eq_recording]
  rfl

theorem faults_holding (entries : List Entry) :
    (holding entries).faults = entries.filterMap Entry.fault? := by
  rw [holding_eq_recording]
  rfl

/-! ## Reports on entries in two orders -/

section TwoOrders

variable {first second : List Entry} {path : Value} {complete : Bool}

theorem length_silenced_eq_of_perm (permuted : first.Perm second) :
    (holding first).silenced.length = (holding second).silenced.length := by
  have sameKeys := ((permuted.filterMap Entry.finding?).filter Finding.suppressed).map Finding.key
  simp only [holding_eq_recording, recording, length_eraseDups,
    List.toFinset_eq_of_perm _ _ sameKeys]

theorem mem_map_key_report {entries : List Entry} {key : FindingKey} :
    key ∈ ((holding entries).report path complete).findings.map Finding.key ↔
      key ∈ (Entry.unsuppressed entries).map Finding.key := by
  rw [report, kept_holding]
  have sorted := (List.mergeSort_perm (Finding.firsts (Entry.unsuppressed entries))
    Finding.inOrder).map Finding.key
  exact sorted.mem_iff.trans Finding.mem_map_key_firsts

theorem perm_unsuppressed (permuted : first.Perm second) :
    (Entry.unsuppressed first).Perm (Entry.unsuppressed second) :=
  (permuted.filterMap Entry.finding?).filter _

theorem faults_sortKey_eq_of_perm (permuted : first.Perm second) :
    ((holding first).report path complete).faults.map Fault.sortKey =
      ((holding second).report path complete).faults.map Fault.sortKey := by
  simp only [report, faults_holding]
  exact StableSort.map_mergeSort_eq_of_perm Fault.sortKey Fault.order_eq_iff
    (permuted.filterMap Entry.fault?)

end TwoOrders

/-- Entries that are sorted alike are equal; suppressed findings are not sorted. -/
structure Untied (entries : Multiset Entry) : Prop where
  findings : ∀ left right : Finding, .finding left ∈ entries → .finding right ∈ entries →
    left.suppressed = false → right.suppressed = false → left.sortKey = right.sortKey →
    left = right
  faults : ∀ left right : Fault, .fault left ∈ entries → .fault right ∈ entries →
    left.sortKey = right.sortKey → left = right

section Ties

variable {entries : List Entry} {path : Value} {complete : Bool}

theorem Untied.eq_of_sortKey_eq (untied : Untied entries) {left right : Finding}
    (leftMember : left ∈ Entry.unsuppressed entries)
    (rightMember : right ∈ Entry.unsuppressed entries) (sameKey : left.sortKey = right.sortKey) :
    left = right := by
  obtain ⟨leftEntered, leftFree⟩ := Entry.mem_unsuppressed.mp leftMember
  obtain ⟨rightEntered, rightFree⟩ := Entry.mem_unsuppressed.mp rightMember
  exact untied.findings left right (Multiset.mem_coe.mpr leftEntered)
    (Multiset.mem_coe.mpr rightEntered) leftFree rightFree sameKey

/-- Without ties, findings with one key are equal, so that it does not matter which is first. -/
theorem Untied.mem_firsts (untied : Untied entries) {finding : Finding} :
    finding ∈ Finding.firsts (Entry.unsuppressed entries) ↔
      finding ∈ Entry.unsuppressed entries := by
  constructor
  · exact Finding.mem_of_mem_firsts
  · intro member
    have reported := Finding.mem_map_key_firsts.mpr (List.mem_map_of_mem member)
    obtain ⟨first, isFirst, sameKey⟩ := List.mem_map.mp reported
    have same := untied.eq_of_sortKey_eq (Finding.mem_of_mem_firsts isFirst) member
      (Finding.sortKey_eq_of_key_eq sameKey)
    exact same ▸ isFirst

theorem Untied.report_eq {other : List Entry} (untied : Untied entries)
    (permuted : entries.Perm other) :
    (holding entries).report path complete = (holding other).report path complete := by
  have otherUntied : Untied (other : Multiset Entry) := Multiset.coe_eq_coe.mpr permuted ▸ untied
  have firsts : (Finding.firsts (Entry.unsuppressed entries)).Perm
      (Finding.firsts (Entry.unsuppressed other)) := by
    refine (List.perm_ext_iff_of_nodup (Finding.nodup_map_key_firsts _).of_map
      (Finding.nodup_map_key_firsts _).of_map).mpr fun finding => ?_
    rw [untied.mem_firsts, otherUntied.mem_firsts, (perm_unsuppressed permuted).mem_iff]
  have findings : (holding entries).kept.mergeSort Finding.inOrder =
      (holding other).kept.mergeSort Finding.inOrder := by
    rw [kept_holding, kept_holding]
    refine StableSort.mergeSort_eq_of_perm firsts ?_
    intro left leftFirst right rightFirst tie
    exact untied.eq_of_sortKey_eq (untied.mem_firsts.mp leftFirst)
      (untied.mem_firsts.mp rightFirst) ((Finding.order_eq_iff left right).mp tie)
  have faults : (holding entries).faults.mergeSort Fault.inOrder =
      (holding other).faults.mergeSort Fault.inOrder := by
    rw [faults_holding, faults_holding]
    refine StableSort.mergeSort_eq_of_perm (permuted.filterMap Entry.fault?) ?_
    intro left leftFault right rightFault tie
    have leftEntered := Multiset.mem_coe.mpr (Entry.mem_faults.mp leftFault)
    have rightEntered := Multiset.mem_coe.mpr (Entry.mem_faults.mp rightFault)
    exact untied.faults left right leftEntered rightEntered ((Fault.order_eq_iff left right).mp tie)
  simp only [report, findings, faults, length_silenced_eq_of_perm permuted]

/-- The finding that is entered first is kept, and leads those that tie with it. -/
theorem eq_of_report_finding_cons {left right : Finding} {other : List Entry}
    (leftFree : left.suppressed = false) (rightFree : right.suppressed = false)
    (sameKey : left.sortKey = right.sortKey)
    (same : (holding (.finding left :: entries)).report path complete =
      (holding (.finding right :: other)).report path complete) : left = right := by
  have kept (finding : Finding) (free : finding.suppressed = false) (rest : List Entry) :
      (holding (.finding finding :: rest)).kept = finding ::
        (Finding.firsts (Entry.unsuppressed rest)).filter fun later => later.key ≠ finding.key := by
    rw [kept_holding, Entry.unsuppressed, List.filterMap_cons, Entry.finding?,
      List.filter_cons_of_pos (by simp [free]), Finding.firsts]
    rfl
  have findings := congrArg Report.findings same
  simp only [report, kept left leftFree, kept right rightFree] at findings
  exact StableSort.eq_of_mergeSort_cons ((Finding.order_eq_iff left right).mpr sameKey) findings

theorem eq_of_report_fault_cons {left right : Fault} {other : List Entry}
    (sameKey : left.sortKey = right.sortKey)
    (same : (holding (.fault left :: entries)).report path complete =
      (holding (.fault right :: other)).report path complete) : left = right := by
  have faults := congrArg Report.faults same
  simp only [report, faults_holding, List.filterMap_cons, Entry.fault?] at faults
  exact StableSort.eq_of_mergeSort_cons ((Fault.order_eq_iff left right).mpr sameKey) faults

end Ties

theorem exists_leading {entries : Multiset Entry} {entry : Entry} (member : entry ∈ entries) :
    ∃ rest : List Entry, ↑(entry :: rest) = entries := by
  obtain ⟨others, rfl⟩ := Multiset.exists_cons_of_mem member
  obtain ⟨rest, rfl⟩ := Quot.exists_rep others
  exact ⟨rest, rfl⟩

/-- The order of the entries shows in a report exactly through ties. -/
theorem report_eq_iff_untied (entries : Multiset Entry) (path : Value) (complete : Bool) :
    ((∀ first second : List Entry, ↑first = entries → ↑second = entries →
        (holding first).report path complete = (holding second).report path complete) ↔
      Untied entries) ∧
    ∀ first second : List Entry, ↑first = entries → ↑second = entries →
      ((holding first).report path complete).suppressedCount =
          ((holding second).report path complete).suppressedCount ∧
        (∀ key, key ∈ ((holding first).report path complete).findings.map Finding.key ↔
          key ∈ ((holding second).report path complete).findings.map Finding.key) ∧
        ((holding first).report path complete).faults.map Fault.sortKey =
          ((holding second).report path complete).faults.map Fault.sortKey := by
  refine ⟨⟨?untied, ?same⟩, ?always⟩
  case untied =>
      intro same
      constructor
      · intro left right leftEntered rightEntered leftFree rightFree sameKey
        obtain ⟨first, firstOrder⟩ := exists_leading leftEntered
        obtain ⟨second, secondOrder⟩ := exists_leading rightEntered
        exact eq_of_report_finding_cons leftFree rightFree sameKey
          (same _ _ firstOrder secondOrder)
      · intro left right leftEntered rightEntered sameKey
        obtain ⟨first, firstOrder⟩ := exists_leading leftEntered
        obtain ⟨second, secondOrder⟩ := exists_leading rightEntered
        exact eq_of_report_fault_cons sameKey (same _ _ firstOrder secondOrder)
  case same =>
      rintro untied first second rfl permuted
      exact untied.report_eq (Multiset.coe_eq_coe.mp permuted.symm)
  case always =>
      rintro first second rfl same
      have permuted := Multiset.coe_eq_coe.mp same.symm
      refine ⟨length_silenced_eq_of_perm permuted, fun key => ?_,
        faults_sortKey_eq_of_perm permuted⟩
      rw [mem_map_key_report, mem_map_key_report,
        ((perm_unsuppressed permuted).map Finding.key).mem_iff]

end Ledger

end TreeLint
