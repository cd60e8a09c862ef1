import Mathlib.Data.Finset.Card
import Mathlib.Data.List.Forall2
import TreeLint.Policy.Basic

/-!
# Lists and results

Facts that say nothing of trees or rules: of results that may be errors, and of lists whose
members are kept once, sorted, related, paired or split.
-/

set_option autoImplicit false

namespace TreeLint

/-! ## One result after the other -/

section Results

variable {ε δ α β : Type}

theorem bind_eq_error_iff {first : Except ε α} {next : α → Except ε β} {error : ε} :
    (first >>= next) = .error error ↔
      first = .error error ∨ ∃ value, first = .ok value ∧ next value = .error error := by
  cases first with
  | error own => simp [bind, Except.bind]
  | ok value => simp [bind, Except.bind]

theorem bind_eq_ok_iff {first : Except ε α} {next : α → Except ε β} {result : β} :
    (first >>= next) = .ok result ↔ ∃ value, first = .ok value ∧ next value = .ok result := by
  cases first with
  | error own => simp [bind, Except.bind]
  | ok value => simp [bind, Except.bind]

theorem mapError_eq_error_iff {result : Except ε α} {change : ε → δ} {error : δ} :
    result.mapError change = .error error ↔ ∃ own, result = .error own ∧ change own = error := by
  cases result with
  | error own => simp [Except.mapError]
  | ok value => simp [Except.mapError]

theorem mapError_eq_ok_iff {result : Except ε α} {change : ε → δ} {value : α} :
    result.mapError change = .ok value ↔ result = .ok value := by
  cases result with
  | error own => simp [Except.mapError]
  | ok own => simp [Except.mapError]

theorem filterM_eq_ok {answer : α → Except ε Bool} {test : α → Bool} {items : List α}
    (answers : ∀ item ∈ items, answer item = .ok (test item)) :
    items.filterM answer = .ok (items.filter test) := by
  have gathered (kept : List α) :
      items.filterAuxM answer kept = .ok ((items.filter test).reverse ++ kept) := by
    induction items generalizing kept with
    | nil => rfl
    | cons item rest ih =>
        have later := ih fun other member => answers other (List.mem_cons_of_mem item member)
        rw [List.filterAuxM, answers item List.mem_cons_self]
        change rest.filterAuxM answer (cond (test item) (item :: kept) kept) = _
        rw [later, List.filter_cons]
        cases test item <;> simp
  rw [List.filterM, gathered []]
  simp [bind, Except.bind, pure, Except.pure]

end Results

/-! ## Members kept once -/

section Members

variable {α : Type} [DecidableEq α]

theorem mem_insertNew {members : List α} {added member : α} :
    member ∈ insertNew members added ↔ member ∈ members ∨ member = added := by
  unfold insertNew
  split
  next present =>
    constructor
    · exact .inl
    · rintro (old | rfl)
      · exact old
      · exact present
  next => simp

theorem nodup_insertNew {members : List α} (unique : members.Nodup) (added : α) :
    (insertNew members added).Nodup := by
  unfold insertNew
  split
  next => exact unique
  next absent => exact List.nodup_append_comm.mp (List.nodup_cons.mpr ⟨absent, unique⟩)

theorem eraseDups_append_singleton (members : List α) (added : α) :
    (members ++ [added]).eraseDups = insertNew members.eraseDups added := by
  rw [List.eraseDups_append, insertNew]
  by_cases present : added ∈ members
  · simp [List.removeAll, present]
  · simp [List.removeAll, present, List.eraseDups_cons]

theorem eraseDups_append (front back : List α) :
    (front ++ back).eraseDups = union front.eraseDups back := by
  induction back using List.reverseRecOn with
  | nil => simp [union]
  | append_singleton back added ih =>
      rw [← List.append_assoc, eraseDups_append_singleton, ih, union, union, List.foldl_append]
      rfl

theorem nodup_eraseDups (members : List α) : members.eraseDups.Nodup := by
  induction members using List.reverseRecOn with
  | nil => exact List.nodup_nil
  | append_singleton members added ih =>
      rw [eraseDups_append_singleton]
      exact nodup_insertNew ih added

theorem length_eraseDups (members : List α) :
    members.eraseDups.length = members.toFinset.card := by
  rw [← List.toFinset_card_of_nodup (nodup_eraseDups members)]
  congr 1
  ext member
  rw [List.mem_toFinset, List.mem_toFinset, List.mem_eraseDups]

theorem card_insert_sdiff {items known : Finset α} {item : α} (fresh : item ∉ known) :
    (insert item items \ known).card = (items \ insert item known).card + 1 := by
  have split : insert item items \ known = insert item (items \ insert item known) := by
    ext other
    by_cases same : other = item <;> simp [same, fresh]
  rw [split, Finset.card_insert_of_notMem (by simp)]

end Members

/-! ## Sorted texts -/

theorem pairwise_sorted (texts : List String) : (sorted texts).Pairwise (· ≤ ·) := by
  have ordered : (sorted texts).Pairwise fun left right => decide (left ≤ right) = true := by
    apply List.pairwise_mergeSort
    · intro first second third low high
      exact decide_eq_true (String.le_trans (of_decide_eq_true low) (of_decide_eq_true high))
    · intro first second
      simpa using String.le_total first second
  exact ordered.imp of_decide_eq_true

theorem sorted_perm (texts : List String) : (sorted texts).Perm texts :=
  List.mergeSort_perm texts _

theorem pairwise_lt_sorted {texts : List String} (unique : texts.Nodup) :
    (sorted texts).Pairwise (· < ·) := by
  have distinct : (sorted texts).Nodup := (sorted_perm texts).nodup_iff.mpr unique
  exact ((pairwise_sorted texts).and distinct).imp fun both => Std.lt_of_le_of_ne both.1 both.2

/-! ## Related lists and pairs of members -/

section Lists

variable {α β γ : Type}

theorem exists_of_forall₂ {related : α → β → Prop} {lefts : List α} {rights : List β}
    (each : List.Forall₂ related lefts rights) {right : β} (member : right ∈ rights) :
    ∃ left ∈ lefts, related left right := by
  induction each with
  | nil => cases member
  | cons own _ ih =>
      rcases List.mem_cons.mp member with rfl | later
      · exact ⟨_, List.mem_cons_self, own⟩
      · obtain ⟨left, listed, related⟩ := ih later
        exact ⟨left, List.mem_cons_of_mem _ listed, related⟩

theorem forall₂_flatMap {related : β → γ → Prop} {left : α → List β} {right : α → List γ}
    {items : List α} (each : ∀ item ∈ items, List.Forall₂ related (left item) (right item)) :
    List.Forall₂ related (items.flatMap left) (items.flatMap right) := by
  induction items with
  | nil => exact .nil
  | cons item rest ih =>
      obtain ⟨first, later⟩ := List.forall_mem_cons.mp each
      rw [List.flatMap_cons, List.flatMap_cons]
      exact List.rel_append first (ih later)

theorem pairwise_zipIdx (items : List α) :
    items.zipIdx.Pairwise fun left right => left.2 < right.2 := by
  rw [← List.pairwise_map, List.zipIdx_map_snd]
  exact List.pairwise_lt_range'

theorem flatMap_zipIdx (items : List α) (give : α → List β) :
    items.zipIdx.flatMap (fun entry => give entry.1) = items.flatMap give := by
  conv => rhs; rw [← List.zipIdx_map_fst 0 items]
  rw [List.flatMap_map]

theorem pair_sublist_cons_iff {first second head : α} {rest : List α} :
    [first, second].Sublist (head :: rest) ↔
      [first, second].Sublist rest ∨ first = head ∧ second ∈ rest := by
  rw [List.cons_sublist_cons', List.singleton_sublist]

theorem pair_sublist_filter_iff {first second : α} {items : List α} {keep : α → Bool} :
    [first, second].Sublist (items.filter keep) ↔
      [first, second].Sublist items ∧ keep first = true ∧ keep second = true := by
  constructor
  · intro inside
    have firstKept := inside.mem List.mem_cons_self
    have secondKept := inside.mem (List.mem_cons_of_mem first List.mem_cons_self)
    exact ⟨inside.trans List.filter_sublist, (List.mem_filter.mp firstKept).2,
      (List.mem_filter.mp secondKept).2⟩
  · intro ⟨inside, firstKept, secondKept⟩
    have kept := inside.filter keep
    rwa [List.filter_cons_of_pos firstKept, List.filter_cons_of_pos secondKept,
      List.filter_nil] at kept

theorem mem_of_mem_splitOn [BEq α] [LawfulBEq α] {separator : α} {items piece : List α}
    (listed : piece ∈ items.splitOn separator) : separator ∉ piece ∧ piece ⊆ items := by
  induction items generalizing piece with
  | nil =>
      cases List.mem_singleton.mp listed
      exact ⟨List.not_mem_nil, List.Subset.refl []⟩
  | cons item rest ih =>
      have later {other : List α} (member : other ∈ rest.splitOn separator) :
          separator ∉ other ∧ other ⊆ item :: rest := by
        obtain ⟨apart, inside⟩ := ih member
        exact ⟨apart, List.subset_cons_of_subset item inside⟩
      rw [List.splitOn_cons_eq_if_modifyHead] at listed
      split at listed
      next =>
        cases List.mem_cons.mp listed with
        | inl empty =>
            subst empty
            exact ⟨List.not_mem_nil, List.nil_subset _⟩
        | inr member => exact later member
      next different =>
        obtain ⟨first, others, split⟩ :=
          List.exists_cons_of_ne_nil (List.splitOn_ne_nil separator rest)
        rw [split, List.modifyHead_cons] at listed
        cases List.mem_cons.mp listed with
        | inl grown =>
            subst grown
            obtain ⟨apart, inside⟩ := ih (split ▸ List.mem_cons_self)
            refine ⟨?_, List.cons_subset_cons item inside⟩
            refine List.not_mem_cons_of_ne_of_not_mem ?_ apart
            rintro rfl
            exact different (beq_self_eq_true _)
        | inr member => exact later (split ▸ List.mem_cons_of_mem first member)

end Lists

end TreeLint
