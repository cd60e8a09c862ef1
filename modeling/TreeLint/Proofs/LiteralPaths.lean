import TreeLint.Proofs.ListsAndResults
import TreeLint.Proofs.PathMatching

/-!
# Globs without special characters

A glob in which every character stands for itself covers one text. What is left of matching is to
compare paths: a relative one with the last segments, and a rooted one with all segments and the
root.
-/

set_option autoImplicit false

namespace TreeLint.Glob

/-! ## Characters that stand for themselves -/

def Literal (pattern : List Char) : Prop :=
  ∀ c ∈ pattern, c ≠ '*' ∧ c ≠ '?' ∧ c ≠ '['

theorem pieces_literal {pattern : List Char} (literal : Literal pattern) :
    pieces pattern = pattern.map Piece.literal := by
  induction pattern with
  | nil => rfl
  | cons c rest ih =>
      obtain ⟨first, later⟩ := List.forall_mem_cons.mp literal
      obtain ⟨noStar, noMark, noBracket⟩ := first
      have read : pieces (c :: rest) = .literal c :: pieces rest := by
        rw [pieces, piecesFrom]
        · rfl
        · exact noStar
        · exact noMark
        · exact noBracket
      rw [read, ih later, List.map_cons]

theorem spells_literals {pattern text : List Char} :
    Spells (pattern.map Piece.literal) text ↔ text = pattern := by
  constructor
  · intro spelled
    induction pattern generalizing text with
    | nil =>
        cases spelled
        rfl
    | cons c rest ih =>
        cases spelled with
        | hold held spelled =>
            cases beq_iff_eq.mp held
            cases ih spelled
            rfl
  · intro same
    subst same
    induction text with
    | nil => exact .nil
    | cons c rest ih => exact .hold (beq_self_eq_true c) ih

theorem covers_literal {pattern : List Char} (literal : Literal pattern) {text : List Char} :
    covers pattern text = true ↔ text = pattern := by
  rw [covers_iff_spells, pieces_literal literal, spells_literals]

/-! ## Names between slashes -/

/-- The pieces between slashes that are neither empty nor a single dot. -/
def names (path : List Char) : List (List Char) :=
  (path.splitOn '/').filter fun piece => piece ≠ [] ∧ piece ≠ ['.']

theorem segments_eq_names (path : List Char) : segments path = names path := by
  rw [segments, names]
  apply List.filter_congr
  intro piece _
  rw [Bool.eq_iff_iff]
  simp

theorem mem_of_mem_names {path name : List Char} (listed : name ∈ names path) :
    '/' ∉ name ∧ name ⊆ path :=
  mem_of_mem_splitOn (List.mem_of_mem_filter listed)

theorem Literal.of_mem_names {pattern name : List Char} (literal : Literal pattern)
    (listed : name ∈ names pattern) : Literal name := by
  intro c member
  exact literal c ((mem_of_mem_names listed).2 member)

/-! ## Roots by the number of slashes -/

def leadingSlashes (path : List Char) : Nat :=
  (path.takeWhile (· == '/')).length

/-- Both paths start at a root, and either both or none of them at the root of two slashes. -/
structure SameRoot (path other : List Char) : Prop where
  rooted : 0 < leadingSlashes path
  otherRooted : 0 < leadingSlashes other
  alike : leadingSlashes path = 2 ↔ leadingSlashes other = 2

theorem leadingSlashes_slash (path : List Char) :
    leadingSlashes ('/' :: path) = leadingSlashes path + 1 := rfl

theorem leadingSlashes_pos_iff {path : List Char} :
    0 < leadingSlashes path ↔ path.head? = some '/' := by
  cases path with
  | nil => simp [leadingSlashes]
  | cons c rest => by_cases slash : c = '/' <;> simp [leadingSlashes, slash]

theorem leadingSlashes_eq_zero {path : List Char} (relative : ∀ rest, path ≠ '/' :: rest) :
    leadingSlashes path = 0 := by
  apply Nat.eq_zero_of_not_pos
  intro rooted
  obtain ⟨rest, begins⟩ := List.head?_eq_some_iff.mp (leadingSlashes_pos_iff.mp rooted)
  exact relative rest begins

theorem rootOf_eq (path : List Char) :
    rootOf path =
      if leadingSlashes path = 0 then []
      else if leadingSlashes path = 2 then ['/', '/']
      else ['/'] := by
  unfold rootOf
  -- Two slashes are a root of their own, and more than two count as one.
  split
  next rest =>
    have many : leadingSlashes ('/' :: '/' :: '/' :: rest) = leadingSlashes rest + 3 := rfl
    rw [if_neg (by omega), if_neg (by omega)]
  next rest third =>
    have two : leadingSlashes ('/' :: '/' :: rest) = 2 := by
      rw [leadingSlashes_slash, leadingSlashes_slash, leadingSlashes_eq_zero]
      intro more same
      exact third more (same ▸ rfl)
    rw [if_neg (by omega), if_pos two]
  next rest _ second =>
    have one : leadingSlashes ('/' :: rest) = 1 := by
      rw [leadingSlashes_slash, leadingSlashes_eq_zero]
      intro more same
      exact second more (same ▸ rfl)
    rw [if_neg (by omega), if_neg (by omega)]
  next first => rw [if_pos (leadingSlashes_eq_zero first)]

theorem rootOf_eq_nil_iff {path : List Char} : rootOf path = [] ↔ path.head? ≠ some '/' := by
  rw [rootOf_eq, ne_eq, ← leadingSlashes_pos_iff]
  split
  next none => simp [none]
  next some => split <;> simp [Nat.pos_of_ne_zero some]

theorem rootOf_eq_iff_sameRoot {path other : List Char} (rooted : other.head? = some '/') :
    rootOf other = rootOf path ↔ SameRoot path other := by
  have positive := leadingSlashes_pos_iff.mpr rooted
  rw [rootOf_eq other, rootOf_eq path, if_neg (Nat.ne_of_gt positive)]
  constructor
  · intro same
    by_cases none : leadingSlashes path = 0
    · rw [if_pos none] at same
      split at same <;> cases same
    · refine ⟨Nat.pos_of_ne_zero none, positive, ?_⟩
      rw [if_neg none] at same
      by_cases two : leadingSlashes path = 2 <;> by_cases otherTwo : leadingSlashes other = 2 <;>
        simp [two, otherTwo] at same ⊢
  · intro same
    rw [if_neg (Nat.ne_of_gt same.rooted)]
    by_cases two : leadingSlashes path = 2
    · rw [if_pos two, if_pos (same.alike.mp two)]
    · rw [if_neg two, if_neg fun otherTwo => two (same.alike.mpr otherTwo)]

/-! ## Segments compared -/

variable {pattern path : List Char}

theorem forall₂_covers_iff {patterns texts : List (List Char)}
    (literal : ∀ pattern ∈ patterns, Literal pattern) :
    List.Forall₂ (fun pattern text => covers pattern text = true) patterns texts ↔
      patterns = texts := by
  constructor
  · intro covered
    induction covered with
    | nil => rfl
    | @cons pattern text patterns texts held _ ih =>
        obtain ⟨first, later⟩ := List.forall_mem_cons.mp literal
        rw [(covers_literal first).mp held, ih later]
  · intro same
    subst same
    apply List.forall₂_same.mpr
    intro pattern member
    exact (covers_literal (literal pattern member)).mpr rfl

theorem coversLast_iff_suffix {patterns texts : List (List Char)}
    (literal : ∀ pattern ∈ patterns, Literal pattern) :
    CoversLast patterns texts ↔ patterns <:+ texts := by
  constructor
  · intro covering
    obtain ⟨last, lies, covered⟩ := covering
    cases (forall₂_covers_iff literal).mp covered
    exact lies
  · intro ends
    exact ⟨patterns, ends, (forall₂_covers_iff literal).mpr rfl⟩

/-- The part for the root is made of slashes, so no name agrees with it. -/
theorem names_suffix_parts_iff : names pattern <:+ parts path ↔ names pattern <:+ names path := by
  constructor
  · intro ends
    by_cases rooted : path.head? = some '/'
    · obtain ⟨rest, rfl⟩ := List.head?_eq_some_iff.mp rooted
      obtain ⟨root, shape⟩ := parts_slash rest
      have same : names ('/' :: rest) = segments rest := by
        rw [← segments_eq_names]
        exact segments_append [] rest
      rw [shape] at ends
      cases List.suffix_cons_iff.mp ends with
      | inl whole =>
          -- All parts would be names, the root among them.
          have root : ('/' :: root) ∈ names pattern := whole ▸ List.mem_cons_self
          exact absurd List.mem_cons_self (mem_of_mem_names root).1
      | inr ends => rwa [same]
    · rwa [parts_of_head rooted, segments_eq_names] at ends
  · intro ends
    rw [← segments_eq_names path] at ends
    exact ends.trans (segments_suffix_parts path)

theorem matchesEnd_relative_iff (literal : Literal pattern) (relative : pattern.head? ≠ some '/') :
    matchesEnd path pattern = true ↔ names pattern ≠ [] ∧ names pattern <:+ names path := by
  have each : ∀ name ∈ names pattern, Literal name := fun name => literal.of_mem_names
  rw [matchesEnd_iff relative]
  constructor
  · intro ending
    have ends := ending.covering
    rw [segments_eq_names, coversLast_iff_suffix each, names_suffix_parts_iff] at ends
    exact ⟨segments_eq_names pattern ▸ ending.present, ends⟩
  · intro ⟨present, ends⟩
    rw [← segments_eq_names] at present
    refine ⟨present, ?_⟩
    rw [segments_eq_names, coversLast_iff_suffix each, names_suffix_parts_iff]
    exact ends

theorem matchesEnd_rooted_iff (literal : Literal pattern) (rooted : pattern.head? = some '/') :
    matchesEnd path pattern = true ↔ SameRoot path pattern ∧ names pattern = names path := by
  have each : ∀ name ∈ names pattern, Literal name := fun name => literal.of_mem_names
  have compared : matchesEnd path pattern = true ↔
      rootOf pattern = rootOf path ∧ (names pattern).length = (names path).length ∧
        partsAgree (names pattern) (names path) = true := by
    unfold matchesEnd
    split
    next none => exact absurd rooted (rootOf_eq_nil_iff.mp none)
    next root _ =>
      simp only [segments_eq_names, Bool.and_eq_true, beq_iff_eq, and_assoc]
  rw [compared, rootOf_eq_iff_sameRoot rooted]
  apply and_congr_right
  intro _
  constructor
  · intro ⟨aligned, agreeing⟩
    exact (forall₂_covers_iff each).mp ((partsAgree_append [] aligned).mp agreeing)
  · intro same
    have aligned := congrArg List.length same
    exact ⟨aligned, (partsAgree_append [] aligned).mpr ((forall₂_covers_iff each).mpr same)⟩

/-- A glob without special characters matches the path that it spells, a path that ends in its names
when it is relative, and a path with its root and its names when it is not. -/
theorem pathMatches_literal_iff {path pattern : String} (literal : Literal pattern.toList) :
    pathMatches path pattern = true ↔
      slashed path.toList = pattern.toList ∨
      (pattern.toList.head? ≠ some '/' ∧ names pattern.toList ≠ [] ∧
        names pattern.toList <:+ names (slashed path.toList)) ∨
      (pattern.toList.head? = some '/' ∧ SameRoot (slashed path.toList) pattern.toList ∧
        names pattern.toList = names (slashed path.toList)) := by
  rw [pathMatches, Bool.or_eq_true_iff, covers_literal literal]
  apply or_congr_right
  by_cases rooted : pattern.toList.head? = some '/'
  · rw [matchesEnd_rooted_iff literal rooted]
    simp [rooted]
  · rw [matchesEnd_relative_iff literal rooted]
    simp [rooted]

/-- Names are compared behind backslashes, doubled slashes and dots, and three slashes are the root
of one slash, while two are not. -/
theorem pathMatches_literal_iff_dotted :
    Literal "./pkg//util.go".toList ∧ pathMatches "src\\pkg\\util.go" "./pkg//util.go" = true ∧
      Literal "///src/a.go".toList ∧ pathMatches "/src/./a.go" "///src/a.go" = true ∧
        ¬ pathMatches "//src/a.go" "///src/a.go" = true := by
  have relative : Literal "./pkg//util.go".toList := by simp [Literal]
  have rooted : Literal "///src/a.go".toList := by simp [Literal]
  refine ⟨relative, ?_, rooted, ?_, ?_⟩
  · exact (pathMatches_literal_iff relative).mpr (.inr (.inl (by decide)))
  · have root : SameRoot (slashed "/src/./a.go".toList) "///src/a.go".toList :=
      ⟨by decide, by decide, by decide⟩
    exact (pathMatches_literal_iff rooted).mpr (.inr (.inr ⟨by decide, root, by decide⟩))
  · intro matched
    cases (pathMatches_literal_iff rooted).mp matched with
    | inl same => exact absurd same (by decide)
    | inr others =>
        cases others with
        | inl relative => exact absurd relative.1 (by decide)
        | inr rooted => exact absurd rooted.2.1.alike (by decide)

end TreeLint.Glob
