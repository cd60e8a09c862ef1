import TreeLint.Glob.Bracket

/-!
# The grammar of brackets

The scan of a pattern's brackets keeps one bit and stops at the first nested bracket. It is compared
with two descriptions that do not scan: where brackets stand in the pattern, and which fragments the
pattern is put together from.
-/

set_option autoImplicit false

namespace TreeLint.Glob

/-! ## Places of brackets -/

/-- Two opening brackets with no closing bracket between them. -/
def Nested (pattern : List Char) : Prop :=
  ∃ second < pattern.length, ∃ first < second,
    pattern[first]? = some '[' ∧ pattern[second]? = some '[' ∧
      ∀ between < second, first < between → pattern[between]? ≠ some ']'

/-- An opening bracket with no closing bracket behind it. -/
def LeftOpen (pattern : List Char) : Prop :=
  ∃ place < pattern.length, pattern[place]? = some '[' ∧
    ∀ later < pattern.length, place < later → pattern[later]? ≠ some ']'

/-- An opening bracket with no closing bracket in front of it. -/
def Reopens (pattern : List Char) : Prop :=
  ∃ place < pattern.length, pattern[place]? = some '[' ∧
    ∀ earlier < place, pattern[earlier]? ≠ some ']'

instance : DecidablePred Nested := fun _ => inferInstanceAs (Decidable (∃ second < _, _))

instance : DecidablePred LeftOpen := fun _ => inferInstanceAs (Decidable (∃ place < _, _))

instance : DecidablePred Reopens := fun _ => inferInstanceAs (Decidable (∃ place < _, _))

section Places

variable {c : Char} {rest : List Char}

-- Below, a place in `c :: rest` is the first one or the next after a place in `rest`.

theorem reopens_cons_iff : Reopens (c :: rest) ↔ c = '[' ∨ (c ≠ ']' ∧ Reopens rest) := by
  simp only [Reopens, List.length_cons, Nat.exists_lt_succ_left, Nat.forall_lt_succ_left,
    List.getElem?_cons_zero, List.getElem?_cons_succ, Option.some.injEq, ne_eq, Nat.not_lt_zero,
    false_implies, implies_true, and_true]
  simp only [and_left_comm (b := ¬ c = ']'), exists_and_left]

theorem nested_cons_iff : Nested (c :: rest) ↔ (c = '[' ∧ Reopens rest) ∨ Nested rest := by
  simp only [Nested, Reopens, List.length_cons, Nat.exists_lt_succ_left, Nat.forall_lt_succ_left,
    List.getElem?_cons_zero, List.getElem?_cons_succ, Option.some.injEq, Nat.not_lt_zero,
    Nat.zero_lt_succ, Nat.add_lt_add_iff_right, false_and, exists_false, false_or, false_implies,
    forall_const, true_and]
  -- The second bracket is in the rest, and the first is `c` or in the rest too.
  simp only [and_or_left, exists_or, and_left_comm (b := c = '['), exists_and_left]

theorem forall_getElem?_ne_iff :
    (∀ place < rest.length, rest[place]? ≠ some ']') ↔ ']' ∉ rest := by
  rw [List.mem_iff_getElem?, not_exists]
  refine forall_congr' fun place => ⟨fun absent found => ?_, fun absent _ => absent⟩
  exact absent (List.getElem?_eq_some_iff.mp found).1 found

theorem leftOpen_cons_iff : LeftOpen (c :: rest) ↔ (c = '[' ∧ ']' ∉ rest) ∨ LeftOpen rest := by
  simp only [LeftOpen, ← forall_getElem?_ne_iff, List.length_cons, Nat.exists_lt_succ_left,
    Nat.forall_lt_succ_left, List.getElem?_cons_zero, List.getElem?_cons_succ, Option.some.injEq,
    Nat.not_lt_zero, Nat.zero_lt_succ, Nat.add_lt_add_iff_right, false_implies, forall_const,
    true_and]

end Places

/-- The verdict of a scan, which may have an open bracket behind it. -/
theorem bracketProblem?_eq (inside : Bool) (chars : List Char) :
    bracketProblem? inside chars =
      if (inside = true ∧ Reopens chars) ∨ Nested chars then some .nested
      else if (inside = true ∧ ']' ∉ chars) ∨ LeftOpen chars then some .unbalanced
      else none := by
  fun_induction bracketProblem? inside chars with
  | case1 => simp [Reopens, Nested, LeftOpen]
  | case2 inside isClosed => simp [Reopens, Nested, LeftOpen, isClosed]
  | case3 rest => simp [reopens_cons_iff]
  | case4 inside rest isClosed ih =>
      rw [ih]
      simp [nested_cons_iff, leftOpen_cons_iff, isClosed]
  | case5 inside rest ih =>
      -- A closing bracket takes away what the bit stood for.
      rw [ih]
      simp [nested_cons_iff, leftOpen_cons_iff, reopens_cons_iff]
  | case6 inside c rest opensNone closesNone ih =>
      have notOpening : c ≠ '[' := opensNone
      have notClosing : c ≠ ']' := closesNone
      rw [ih]
      simp [nested_cons_iff, leftOpen_cons_iff, reopens_cons_iff, notOpening, notClosing,
        notClosing.symm]

/-! ## Fragments -/

/-- What may stand between two brackets. -/
structure Flat (content : List Char) : Prop where
  noOpening : '[' ∉ content
  noClosing : ']' ∉ content

theorem flat_cons_iff {c : Char} {content : List Char} :
    Flat (c :: content) ↔ c ≠ '[' ∧ c ≠ ']' ∧ Flat content := by
  constructor
  · intro flat
    obtain ⟨noOpening, noClosing⟩ := flat
    rw [List.mem_cons, not_or] at noOpening noClosing
    exact ⟨Ne.symm noOpening.1, Ne.symm noClosing.1, noOpening.2, noClosing.2⟩
  · intro parts
    obtain ⟨opensNone, closesNone, flat⟩ := parts
    exact ⟨List.not_mem_cons_of_ne_of_not_mem (Ne.symm opensNone) flat.noOpening,
      List.not_mem_cons_of_ne_of_not_mem (Ne.symm closesNone) flat.noClosing⟩

/-- A part of a pattern in which no bracket is nested or left open. -/
inductive Fragment where
  /-- A character that opens nothing. It may be a closing bracket. -/
  | plain (c : Char) (opensNone : c ≠ '[')
  /-- A pair of brackets with no bracket inside. -/
  | group (content : List Char) (flat : Flat content)

def Fragment.chars : Fragment → List Char
  | plain c _ => [c]
  | group content _ => '[' :: content ++ [']']

theorem bracketProblem?_plain {c : Char} (opensNone : c ≠ '[') (closesNone : c ≠ ']')
    (inside : Bool) (rest : List Char) :
    bracketProblem? inside (c :: rest) = bracketProblem? inside rest := by
  rw [bracketProblem?]
  · exact opensNone
  · exact closesNone

theorem bracketProblem?_content {content : List Char} (flat : Flat content) (inside : Bool)
    (rest : List Char) :
    bracketProblem? inside (content ++ rest) = bracketProblem? inside rest := by
  induction content with
  | nil => rfl
  | cons c content ih =>
      obtain ⟨opensNone, closesNone, flat⟩ := flat_cons_iff.mp flat
      rw [List.cons_append, bracketProblem?_plain opensNone closesNone, ih flat]

/-- A scan without an open bracket passes over a fragment. -/
theorem bracketProblem?_fragment (fragment : Fragment) (rest : List Char) :
    bracketProblem? false (fragment.chars ++ rest) = bracketProblem? false rest := by
  cases fragment with
  | plain c opensNone =>
      by_cases closes : c = ']'
      · subst closes
        rfl
      · exact bracketProblem?_plain opensNone closes false rest
  | group content flat =>
      have opened : bracketProblem? false ((Fragment.group content flat).chars ++ rest) =
          bracketProblem? true (content ++ ']' :: rest) := by
        simp [Fragment.chars, bracketProblem?]
      rw [opened, bracketProblem?_content flat]
      rfl

theorem bracketProblem?_fragments (fragments : List Fragment) :
    bracketProblem? false (fragments.flatMap Fragment.chars) = none := by
  induction fragments with
  | nil => rfl
  | cons fragment fragments ih => rw [List.flatMap_cons, bracketProblem?_fragment, ih]

/-- What a pattern goes on with when nothing is wrong: fragments, or behind an open bracket the rest
of a group and then fragments. -/
def Completes : Bool → List Char → Prop
  | false, chars => ∃ fragments : List Fragment, chars = fragments.flatMap Fragment.chars
  | true, chars => ∃ content, Flat content ∧
      ∃ fragments : List Fragment, chars = content ++ ']' :: fragments.flatMap Fragment.chars

theorem completes_of_eq_none {inside : Bool} {chars : List Char}
    (passed : bracketProblem? inside chars = none) : Completes inside chars := by
  fun_induction bracketProblem? inside chars with
  | case1 => cases passed
  | case2 inside isClosed =>
      cases eq_false_of_ne_true isClosed
      exact ⟨[], rfl⟩
  | case3 => cases passed
  | case4 inside rest isClosed ih =>
      cases eq_false_of_ne_true isClosed
      obtain ⟨content, flat, fragments, split⟩ := ih passed
      exact ⟨.group content flat :: fragments, by simp [Fragment.chars, split]⟩
  | case5 inside rest ih =>
      obtain ⟨fragments, split⟩ := ih passed
      cases inside with
      | false => exact ⟨.plain ']' (by decide) :: fragments, congrArg (']' :: ·) split⟩
      | true => exact ⟨[], ⟨by simp, by simp⟩, fragments, congrArg (']' :: ·) split⟩
  | case6 inside c rest opensNone closesNone ih =>
      cases inside with
      | false =>
          obtain ⟨fragments, split⟩ := ih passed
          exact ⟨.plain c opensNone :: fragments, congrArg (c :: ·) split⟩
      | true =>
          obtain ⟨content, flat, fragments, split⟩ := ih passed
          have grown : Flat (c :: content) := flat_cons_iff.mpr ⟨opensNone, closesNone, flat⟩
          exact ⟨c :: content, grown, fragments, congrArg (c :: ·) split⟩

theorem bracketProblem?_eq_none_iff {chars : List Char} :
    bracketProblem? false chars = none ↔
      ∃ fragments : List Fragment, chars = fragments.flatMap Fragment.chars := by
  refine ⟨completes_of_eq_none, ?_⟩
  intro read
  obtain ⟨fragments, split⟩ := read
  rw [split, bracketProblem?_fragments]

/-! ## Verdicts on patterns -/

theorem problem?_eq_bracketProblem? {pattern : String}
    (written : Text.isBlankText pattern = false) (noNul : Char.ofNat 0 ∉ pattern.toList) :
    problem? pattern = bracketProblem? false pattern.toList := by
  simp [problem?, written, noNul]

/-- A pattern that is not blank and has no NUL character is judged by its brackets: by where they
stand, nesting first, and equally by whether the pattern is a row of fragments. -/
theorem problem?_decides_brackets {pattern : String}
    (written : Text.isBlankText pattern = false) (noNul : Char.ofNat 0 ∉ pattern.toList) :
    (problem? pattern).map Problem.message =
        (if Nested pattern.toList then some "nested '['"
        else if LeftOpen pattern.toList then some "unbalanced '['"
        else none) ∧
      ((problem? pattern).map Problem.message = none ↔
        ∃ fragments : List Fragment, pattern.toList = fragments.flatMap Fragment.chars) := by
  rw [problem?_eq_bracketProblem? written noNul]
  constructor
  · by_cases nested : Nested pattern.toList
    · simp [bracketProblem?_eq, nested, Problem.message]
    · by_cases leftOpen : LeftOpen pattern.toList
      · simp [bracketProblem?_eq, nested, leftOpen, Problem.message]
      · simp [bracketProblem?_eq, nested, leftOpen]
  · rw [Option.map_eq_none_iff, bracketProblem?_eq_none_iff]

/-- A pattern with a bracket that is nested and left open, behind a closing bracket that closes
nothing. -/
theorem problem?_decides_brackets_stray :
    Text.isBlankText "[a]][[b" = false ∧ Char.ofNat 0 ∉ "[a]][[b".toList ∧
      Nested "[a]][[b".toList ∧ LeftOpen "[a]][[b".toList ∧
        (problem? "[a]][[b").map Problem.message = some "nested '['" ∧
          ¬ ∃ fragments : List Fragment, "[a]][[b".toList = fragments.flatMap Fragment.chars := by
  have written : Text.isBlankText "[a]][[b" = false := by decide
  have noNul : Char.ofNat 0 ∉ "[a]][[b".toList := by decide
  have nested : Nested "[a]][[b".toList := by decide
  obtain ⟨verdict, grammatical⟩ := problem?_decides_brackets written noNul
  rw [if_pos nested] at verdict
  rw [verdict] at grammatical
  exact ⟨written, noNul, nested, by decide, verdict, fun read => nomatch grammatical.mpr read⟩

end TreeLint.Glob
