import Mathlib.Data.List.Basic
import TreeLint.Report.Ledger

/-!
# What a stable sort depends on

Sorting by a comparison leaves tied items in the order in which they came. A sorted list is
therefore fixed by its tie classes: two lists that agree on every class are sorted alike, however
the classes are interleaved. The orders of findings and of faults are such comparisons, and no tie
class of theirs has items of two rules.
-/

set_option autoImplicit false

namespace TreeLint

/-! ## Sorting by a comparison -/

namespace StableSort

variable {α : Type}

/-- The items that tie with a given one. -/
def tied (cmp : α → α → Ordering) (item : α) (items : List α) : List α :=
  items.filter fun other => (cmp item other).isEq

theorem mem_tied {cmp : α → α → Ordering} {item other : α} {items : List α} :
    other ∈ tied cmp item items ↔ other ∈ items ∧ cmp item other = .eq := by
  simp [tied, List.mem_filter]

variable (cmp : α → α → Ordering) [Std.TransCmp cmp]

theorem isLE_total (left right : α) : ((cmp left right).isLE || (cmp right left).isLE) = true := by
  have swapped : cmp right left = (cmp left right).swap := Std.OrientedCmp.eq_swap
  rw [swapped]
  cases cmp left right <;> rfl

theorem sorted_mergeSort (items : List α) :
    (items.mergeSort fun a b => (cmp a b).isLE).Pairwise fun a b => (cmp a b).isLE = true :=
  List.pairwise_mergeSort (fun _ _ _ => Std.TransCmp.isLE_trans) (isLE_total cmp) items

variable {cmp}

theorem mem_of_tied {lefts rights : List α}
    (classes : ∀ item, tied cmp item lefts = tied cmp item rights) {item : α}
    (member : item ∈ lefts) : item ∈ rights := by
  have inClass : item ∈ tied cmp item lefts := mem_tied.mpr ⟨member, Std.ReflCmp.compare_self⟩
  rw [classes item] at inClass
  exact (mem_tied.mp inClass).1

private theorem head_isLE {head item : α} {rest : List α}
    (sorted : (head :: rest).Pairwise fun a b => (cmp a b).isLE = true)
    (member : item ∈ head :: rest) : (cmp head item).isLE = true := by
  rcases List.mem_cons.mp member with same | later
  · subst same
    exact Std.ReflCmp.isLE_rfl
  · exact List.rel_of_pairwise_cons sorted later

/-- A sorted list is fixed by its tie classes. -/
theorem eq_of_tied {lefts rights : List α}
    (leftSorted : lefts.Pairwise fun a b => (cmp a b).isLE = true)
    (rightSorted : rights.Pairwise fun a b => (cmp a b).isLE = true)
    (classes : ∀ item, tied cmp item lefts = tied cmp item rights) : lefts = rights := by
  induction lefts generalizing rights with
  | nil =>
      cases rights with
      | nil => rfl
      | cons right rights =>
          have member := mem_of_tied (fun item => (classes item).symm) List.mem_cons_self
          exact absurd member List.not_mem_nil
  | cons left lefts ih =>
      cases rights with
      | nil =>
          have member := mem_of_tied classes List.mem_cons_self
          exact absurd member List.not_mem_nil
      | cons right rights =>
          have leftMember : left ∈ right :: rights := mem_of_tied classes List.mem_cons_self
          have rightMember : right ∈ left :: lefts :=
            mem_of_tied (fun item => (classes item).symm) List.mem_cons_self
          have tie : cmp left right = .eq :=
            Std.OrientedCmp.isLE_antisymm (head_isLE leftSorted rightMember)
              (head_isLE rightSorted leftMember)
          have reflexive : cmp left left = .eq := Std.ReflCmp.compare_self
          -- Both heads lead the class that they share.
          have same : left = right := by
            have leading := classes left
            simp only [tied, List.filter_cons, tie, reflexive, Ordering.isEq_eq, ↓reduceIte,
              List.cons.injEq] at leading
            exact leading.1
          subst same
          have restClasses : ∀ item, tied cmp item lefts = tied cmp item rights := by
            intro item
            have whole := classes item
            simp only [tied, List.filter_cons] at whole
            split at whole
            · exact (List.cons.inj whole).2
            · exact whole
          rw [ih leftSorted.of_cons rightSorted.of_cons restClasses]

theorem tied_mergeSort (item : α) (items : List α) :
    tied cmp item (items.mergeSort fun a b => (cmp a b).isLE) = tied cmp item items := by
  have classSorted : (tied cmp item items).Pairwise fun a b => (cmp a b).isLE = true := by
    refine List.pairwise_of_forall_mem_list fun first firstTied second secondTied => ?_
    have firstEq : cmp first item = .eq := Std.OrientedCmp.eq_symm (mem_tied.mp firstTied).2
    have secondEq : cmp item second = .eq := (mem_tied.mp secondTied).2
    have below : (cmp first item).isLE = true := by rw [firstEq]; rfl
    have above : (cmp item second).isLE = true := by rw [secondEq]; rfl
    exact Std.TransCmp.isLE_trans below above
  have inSorted : (tied cmp item items).Sublist (items.mergeSort fun a b => (cmp a b).isLE) :=
    List.sublist_mergeSort (fun _ _ _ => Std.TransCmp.isLE_trans) (isLE_total cmp) classSorted
      List.filter_sublist
  have inClass := inSorted.filter fun other => (cmp item other).isEq
  rw [tied, List.filter_filter] at inClass
  simp only [Bool.and_self] at inClass
  have sameLength := ((List.mergeSort_perm items fun a b => (cmp a b).isLE).filter
    fun other => (cmp item other).isEq).length_eq
  exact (inClass.eq_of_length sameLength.symm).symm

/-- Lists that agree on every tie class are sorted alike. -/
theorem mergeSort_eq_of_tied {lefts rights : List α}
    (classes : ∀ item, tied cmp item lefts = tied cmp item rights) :
    lefts.mergeSort (fun a b => (cmp a b).isLE) = rights.mergeSort fun a b => (cmp a b).isLE := by
  refine eq_of_tied (sorted_mergeSort cmp lefts) (sorted_mergeSort cmp rights) fun item => ?_
  rw [tied_mergeSort, tied_mergeSort]
  exact classes item

variable (cmp) in
/-- If tied items have one label, lists that agree on the items of every label are sorted alike. -/
theorem mergeSort_eq_of_labels {β : Type} [DecidableEq β] (label : α → β)
    (labelled : ∀ {left right}, cmp left right = .eq → label left = label right)
    {lefts rights : List α}
    (classes : ∀ value, (lefts.filter fun item => label item = value) =
      rights.filter fun item => label item = value) :
    lefts.mergeSort (fun a b => (cmp a b).isLE) = rights.mergeSort fun a b => (cmp a b).isLE := by
  refine mergeSort_eq_of_tied fun item => ?_
  -- A tie class is a part of the class of its label.
  have within (items : List α) : tied cmp item items =
      tied cmp item (items.filter fun other => label other = label item) := by
    rw [tied, tied, List.filter_filter]
    refine List.filter_congr fun other _ => ?_
    cases tie : cmp item other with
    | eq => simp [labelled tie]
    | lt => rfl
    | gt => rfl
  rw [within lefts, within rights, classes]

theorem filter_mergeSort (keep : α → Bool) (items : List α) :
    (items.mergeSort fun a b => (cmp a b).isLE).filter keep =
      (items.filter keep).mergeSort fun a b => (cmp a b).isLE := by
  refine eq_of_tied ((sorted_mergeSort cmp items).sublist List.filter_sublist)
    (sorted_mergeSort cmp _) fun item => ?_
  have sortedClass : tied cmp item (items.mergeSort fun a b => (cmp a b).isLE) =
      tied cmp item items := tied_mergeSort item items
  rw [tied_mergeSort, tied, tied, List.filter_comm, List.filter_comm _ keep]
  exact congrArg (List.filter keep) sortedClass

/-- A further item goes behind the smaller ones and in front of all others, its ties included. -/
theorem mergeSort_cons_eq (item : α) (items : List α) :
    ((item :: items).mergeSort fun a b => (cmp a b).isLE) =
      (items.mergeSort fun a b => (cmp a b).isLE).filter (fun other => !(cmp item other).isLE) ++
        item :: (items.mergeSort fun a b => (cmp a b).isLE).filter
          fun other => (cmp item other).isLE := by
  obtain ⟨smaller, others, whole, rest, below⟩ :=
    List.mergeSort_cons (fun _ _ _ => Std.TransCmp.isLE_trans) (isLE_total cmp) item items
  have sorted := sorted_mergeSort cmp (item :: items)
  rw [whole] at sorted
  have above : ∀ other ∈ others, (cmp item other).isLE = true := fun other member =>
    List.rel_of_pairwise_cons (List.pairwise_append.mp sorted).2.1 member
  have belowKept : smaller.filter (fun other => !(cmp item other).isLE) = smaller :=
    List.filter_eq_self.mpr below
  have belowLeft : smaller.filter (fun other => (cmp item other).isLE) = [] :=
    List.filter_eq_nil_iff.mpr fun other member => by simpa using below other member
  have aboveLeft : others.filter (fun other => !(cmp item other).isLE) = [] :=
    List.filter_eq_nil_iff.mpr fun other member => by simp [above other member]
  rw [whole, rest, List.filter_append, List.filter_append, belowKept, belowLeft, aboveLeft,
    List.filter_eq_self.mpr above, List.append_nil, List.nil_append]

/-- Sorting a part of a list gives a part of the sorted list. -/
theorem sublist_mergeSort {part items : List α} (sublist : part.Sublist items) :
    (part.mergeSort fun a b => (cmp a b).isLE).Sublist
      (items.mergeSort fun a b => (cmp a b).isLE) := by
  induction sublist with
  | slnil => exact List.Sublist.refl _
  | @cons part items item _ ih =>
      obtain ⟨smaller, others, whole, rest, _⟩ :=
        List.mergeSort_cons (fun _ _ _ => Std.TransCmp.isLE_trans) (isLE_total cmp) item items
      rw [rest] at ih
      rw [whole]
      exact ih.trans ((List.sublist_cons_self item others).append_left smaller)
  | cons_cons item _ ih =>
      rw [mergeSort_cons_eq, mergeSort_cons_eq]
      exact (ih.filter _).append ((ih.filter _).cons_cons item)

/-! ## Sorting in spite of the order -/

omit [Std.TransCmp cmp] in
theorem perm_mergeSort {lefts rights : List α} (permuted : lefts.Perm rights) :
    (lefts.mergeSort fun a b => (cmp a b).isLE).Perm
      (rights.mergeSort fun a b => (cmp a b).isLE) :=
  (List.mergeSort_perm lefts _).trans (permuted.trans (List.mergeSort_perm rights _).symm)

theorem mergeSort_eq_of_perm {lefts rights : List α} (permuted : lefts.Perm rights)
    (untied : ∀ left ∈ lefts, ∀ right ∈ lefts, cmp left right = .eq → left = right) :
    (lefts.mergeSort fun a b => (cmp a b).isLE) = rights.mergeSort fun a b => (cmp a b).isLE := by
  refine List.Perm.eq_of_pairwise ?_ (sorted_mergeSort cmp lefts) (sorted_mergeSort cmp rights)
    (perm_mergeSort permuted)
  intro left right leftMember rightMember before after
  have leftListed := List.mem_mergeSort.mp leftMember
  have rightListed := permuted.mem_iff.mpr (List.mem_mergeSort.mp rightMember)
  exact untied left leftListed right rightListed (Std.OrientedCmp.isLE_antisymm before after)

/-- The items of a tie class come in the order in which they were listed, so its first one shows. -/
theorem eq_of_mergeSort_cons {left right : α} {lefts rights : List α} (tie : cmp left right = .eq)
    (same : ((left :: lefts).mergeSort fun a b => (cmp a b).isLE) =
      (right :: rights).mergeSort fun a b => (cmp a b).isLE) : left = right := by
  have reflexive : cmp left left = .eq := Std.ReflCmp.compare_self
  have classes := congrArg (tied cmp left) same
  rw [tied_mergeSort, tied_mergeSort] at classes
  simp only [tied, List.filter_cons, reflexive, tie, Ordering.isEq_eq, ↓reduceIte,
    List.cons.injEq] at classes
  exact classes.1

/-- Where items are sorted in does not hang on the order of listing. -/
theorem map_mergeSort_eq_of_perm {β : Type} {lefts rights : List α} (label : α → β)
    (labelled : ∀ left right, cmp left right = .eq ↔ label left = label right)
    (permuted : lefts.Perm rights) :
    (lefts.mergeSort fun a b => (cmp a b).isLE).map label =
      (rights.mergeSort fun a b => (cmp a b).isLE).map label := by
  let Before (first second : β) : Prop :=
    ∃ left right, label left = first ∧ label right = second ∧ (cmp left right).isLE = true
  have sorted (items : List α) :
      ((items.mergeSort fun a b => (cmp a b).isLE).map label).Pairwise Before :=
    List.pairwise_map.mpr ((sorted_mergeSort cmp items).imp fun {left right} ordered =>
      ⟨left, right, rfl, rfl, ordered⟩)
  refine List.Perm.eq_of_pairwise ?_ (sorted lefts) (sorted rights)
    ((perm_mergeSort permuted).map label)
  rintro first second - - ⟨a, b, rfl, rfl, before⟩ ⟨c, d, sameSecond, sameFirst, after⟩
  -- The witnesses of the two comparisons differ, but they tie.
  have upper : (cmp b c).isLE = true := by
    rw [(labelled b c).mpr sameSecond.symm]
    rfl
  have lower : (cmp d a).isLE = true := by
    rw [(labelled d a).mpr sameFirst]
    rfl
  have back : (cmp b a).isLE = true :=
    Std.TransCmp.isLE_trans (Std.TransCmp.isLE_trans upper after) lower
  exact (labelled a b).mp (Std.OrientedCmp.isLE_antisymm before back)

end StableSort

/-! ## The orders of reports -/

instance : Std.TransCmp Finding.order :=
  inferInstanceAs (Std.TransCmp (compareLex (compareOn fun finding => finding.span.start.offset.amount)
    (compareLex (compareOn Finding.ruleId)
      (compareLex (compareOn fun finding => finding.span.stop.offset.amount)
        (compareOn Finding.message)))))

instance : Std.TransCmp Fault.order :=
  inferInstanceAs (Std.TransCmp (compareLex (compareOn Fault.offset)
    (compareLex (compareOn Fault.ruleId)
      (compareLex (compareOn Fault.errorType) (compareOn Fault.detail)))))

/-- Tied findings are findings of one rule. They may still differ in lines and columns. -/
theorem Finding.ruleId_eq_of_order_eq {left right : Finding} (tie : left.order right = .eq) :
    left.ruleId = right.ruleId := by
  simp only [Finding.order, Ordering.then_eq_eq] at tie
  exact Std.LawfulEqOrd.eq_of_compare tie.2.1

/-- Tied faults are faults of one rule. They may still differ in their nodes. -/
theorem Fault.ruleId_eq_of_order_eq {left right : Fault} (tie : left.order right = .eq) :
    left.ruleId = right.ruleId := by
  simp only [Fault.order, Ordering.then_eq_eq] at tie
  exact Std.LawfulEqOrd.eq_of_compare tie.2.1

end TreeLint
