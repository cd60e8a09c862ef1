import TreeLint.Glob.Bracket
import TreeLint.Proofs.PathMatching

/-!
# Relative globs below directories

A path that a relative glob matches by its last segments is matched below every directory. A path
that only matches as a whole is lost below some directory, unless the glob is open to the left.
-/

set_option autoImplicit false

namespace TreeLint.Glob

/-! ## Globs that are open to the left -/

/-- A star comes first, or only behind pieces that hold every character of a path. Backslashes do
not count, as a path is matched without them. -/
inductive Open : List Piece → Prop where
  | star {pieces : List Piece} : Open (.star :: pieces)
  | behind {piece : Piece} {pieces : List Piece} :
      (∀ c, c ≠ '\\' → piece.holds c = true) → Open pieces → Open (piece :: pieces)

theorem Open.spells_cons {pieces : List Piece} (opened : Open pieces) {text : List Char}
    (spelled : Spells pieces text) (forward : '\\' ∉ text) {c : Char} (other : c ≠ '\\') :
    Spells pieces (c :: text) := by
  induction opened generalizing text c with
  | star => exact .take c spelled
  | behind all _ ih =>
      cases spelled with
      | pass spelled => exact .take c (.pass spelled)
      | take d spelled => exact .take c (.take d spelled)
      | @hold _ _ d _ _ spelled =>
          obtain ⟨first, later⟩ := List.ne_and_not_mem_of_not_mem_cons forward
          exact .hold (all c other) (ih spelled later (Ne.symm first))

theorem Open.spells_append {pieces : List Piece} (opened : Open pieces) {front text : List Char}
    (spelled : Spells pieces text) (forward : '\\' ∉ front ++ text) :
    Spells pieces (front ++ text) := by
  induction front with
  | nil => exact spelled
  | cons c front ih =>
      obtain ⟨first, later⟩ := List.ne_and_not_mem_of_not_mem_cons forward
      exact opened.spells_cons (ih later) later (Ne.symm first)

/-- A glob that is not open to the left tells from the front of some texts that it fails. -/
theorem exists_unspelled {pieces : List Piece} (closed : ¬ Open pieces) :
    ∃ front, '\\' ∉ front ∧ ∀ back, ¬ Spells pieces (front ++ back) := by
  induction pieces with
  | nil => exact ⟨['x'], by decide, fun back spelled => nomatch spelled⟩
  | cons piece pieces ih =>
      have fixed : piece ≠ .star := by
        rintro rfl
        exact closed .star
      by_cases all : ∀ c, c ≠ '\\' → piece.holds c = true
      · obtain ⟨front, forward, unspelled⟩ := ih fun opened => closed (.behind all opened)
        refine ⟨'x' :: front, List.not_mem_cons_of_ne_of_not_mem (by decide) forward, ?_⟩
        intro back spelled
        exact unspelled back (spelled.of_fixed fixed).2
      · push Not at all
        obtain ⟨c, other, refused⟩ := all
        refine ⟨[c], ?_, ?_⟩
        · rw [List.mem_singleton]
          exact Ne.symm other
        · intro back spelled
          exact refused (spelled.of_fixed fixed).1

/-! ## The first segment of a glob -/

theorem untilClosing_cons {c : Char} (other : c ≠ ']') (rest : List Char) :
    untilClosing (c :: rest) = (untilClosing rest).map (c :: ·) := by
  rw [untilClosing]
  exact other

theorem untilClosing_append {text content : List Char} (closed : untilClosing text = some content)
    (more : List Char) : untilClosing (text ++ more) = some content := by
  induction text generalizing content with
  | nil => cases closed
  | cons c rest ih =>
      by_cases closing : c = ']'
      · subst closing
        exact closed
      · rw [untilClosing_cons closing] at closed
        obtain ⟨inner, ended, rfl⟩ := Option.map_eq_some_iff.mp closed
        rw [List.cons_append, untilClosing_cons closing, ih ended]
        rfl

theorem bracketContent?_append {text content : List Char}
    (closed : bracketContent? text = some content) (more : List Char) :
    bracketContent? (text ++ more) = some content := by
  unfold bracketContent? at closed
  split at closed
  next rest =>
    obtain ⟨inner, ended, rfl⟩ := Option.map_eq_some_iff.mp closed
    rw [List.cons_append, List.cons_append, bracketContent?, untilClosing_append ended]
    rfl
  next rest =>
    obtain ⟨inner, ended, rfl⟩ := Option.map_eq_some_iff.mp closed
    rw [List.cons_append, bracketContent?, untilClosing_append ended]
    rfl
  next negated first =>
    -- A closing bracket of `more` cannot come first, as the text has one of its own.
    rw [bracketContent?, untilClosing_append closed]
    · intro rest equal
      rcases text with _ | ⟨c, _ | ⟨d, text⟩⟩
      · cases closed
      · cases equal
        cases closed
      · cases equal
        exact negated _ rfl
    · intro rest equal
      rcases text with _ | ⟨c, text⟩
      · cases closed
      · cases equal
        exact first _ rfl

theorem pieces_star (text : List Char) : ∃ others, pieces ('*' :: text) = .star :: others := by
  rw [pieces, piecesFrom]
  split <;> exact ⟨_, rfl⟩

/-- The first piece of a glob is a star, a character that stands for itself, or a piece that stays
when more text comes behind the glob. -/
theorem pieces_cons (c : Char) (rest : List Char) :
    (∀ more, ∃ others, pieces (c :: rest ++ more) = .star :: others) ∨
      (∃ others, pieces (c :: rest) = .literal c :: others) ∨
        ∃ piece skipped, piece ≠ .star ∧ pieces (c :: rest) = piece :: piecesFrom skipped rest ∧
          ∀ more, pieces (c :: rest ++ more) = piece :: piecesFrom skipped (rest ++ more) := by
  by_cases star : c = '*'
  · subst star
    exact .inl fun more => pieces_star (rest ++ more)
  by_cases any : c = '?'
  · subst any
    exact .inr (.inr ⟨.any, 0, nofun, rfl, fun more => rfl⟩)
  by_cases bracket : c = '['
  · subst bracket
    cases closed : bracketContent? rest with
    | none =>
        refine .inr (.inl ⟨piecesFrom 0 rest, ?_⟩)
        rw [pieces, piecesFrom, closed]
    | some content =>
        refine .inr (.inr ⟨.oneOf (charSet content), content.length + 1, nofun, ?_, ?_⟩)
        · rw [pieces, piecesFrom, closed]
        · intro more
          rw [pieces, List.cons_append, piecesFrom, bracketContent?_append closed]
  · refine .inr (.inl ⟨piecesFrom 0 rest, ?_⟩)
    rw [pieces, piecesFrom]
    · exact star
    · exact any
    · exact bracket

theorem piecesFrom_star {skipped : Nat} {text : List Char} {others : List Piece}
    (first : piecesFrom skipped text = .star :: others) (more : List Char) :
    ∃ others, piecesFrom skipped (text ++ more) = .star :: others := by
  induction text generalizing skipped with
  | nil => cases skipped <;> cases first
  | cons c rest ih =>
      cases skipped with
      | succ skipped => exact ih first
      | zero =>
          rcases pieces_cons c rest with star | ⟨_, literal⟩ | ⟨piece, _, fixed, shape, _⟩
          · exact star more
          · cases literal.symm.trans first
          · cases shape.symm.trans first
            exact absurd rfl fixed

/-- A glob whose first segment covers all segments starts with a star, or with a star behind a
piece that may hold anything but slashes. -/
theorem pieces_of_covers {first : List Char}
    (all : ∀ text, IsSegment text → '\\' ∉ text → covers first text = true) (more : List Char) :
    (∃ others, pieces (first ++ more) = .star :: others) ∨
      ∃ piece rest others, piece ≠ .star ∧ pieces first = piece :: rest ∧
        pieces (first ++ more) = piece :: .star :: others ∧
          ∀ c, c ≠ '/' → c ≠ '\\' → piece.holds c = true := by
  have short : Spells (pieces first) ['x'] :=
    covers_iff_spells.mp (all _ ⟨by decide, by decide, by decide⟩ (by decide))
  have long (c : Char) (unslashed : c ≠ '/') (forward : c ≠ '\\') :
      Spells (pieces first) [c, 'x'] := by
    apply covers_iff_spells.mp (all [c, 'x'] ⟨?_, nofun, nofun⟩ ?_)
    · exact List.not_mem_cons_of_ne_of_not_mem (Ne.symm unslashed) (by decide)
    · exact List.not_mem_cons_of_ne_of_not_mem (Ne.symm forward) (by decide)
  cases first with
  | nil => cases short
  | cons c rest =>
      rcases pieces_cons c rest with
        star | ⟨others, literal⟩ | ⟨piece, skipped, fixed, shape, begins⟩
      · exact .inl (star more)
      · -- A character does not stand for two others.
        rw [literal] at long
        have one : c = 'x' := beq_iff_eq.mp ((long 'x' nofun nofun).of_fixed nofun).1
        have two : c = 'y' := beq_iff_eq.mp ((long 'y' nofun nofun).of_fixed nofun).1
        cases one.symm.trans two
      · rw [shape] at short long
        have empty := (short.of_fixed fixed).2
        have filled := ((long 'x' nofun nofun).of_fixed fixed).2
        obtain ⟨_, starred⟩ := empty.exists_star filled
        obtain ⟨others, starred⟩ := piecesFrom_star starred more
        refine .inr ⟨piece, _, others, fixed, shape, ?_, ?_⟩
        · rw [begins, starred]
        · intro d unslashed forward
          exact ((long d unslashed forward).of_fixed fixed).1

theorem exists_first_segment {pattern : List Char} (relative : pattern.head? ≠ some '/')
    (undotted : ¬ ['.', '/'] <+: pattern) (present : segments pattern ≠ []) :
    ∃ first more others, pattern = first ++ more ∧ segments pattern = first :: others := by
  by_cases slash : '/' ∈ pattern
  · obtain ⟨first, rest, rfl, unslashed⟩ := List.eq_append_cons_of_mem slash
    have single : IsSegment first := by
      refine ⟨unslashed, ?_, ?_⟩
      · rintro rfl
        exact relative rfl
      · rintro rfl
        exact undotted ⟨rest, rfl⟩
    refine ⟨first, '/' :: rest, segments rest, rfl, ?_⟩
    rw [segments_append, single.segments, List.singleton_append]
  · exact ⟨pattern, [], [], (List.append_nil pattern).symm,
      (isSegment_of_segments slash present).segments⟩

/-! ## Directories -/

theorem segments_repeat {text : List Char} (single : IsSegment text) (front : List Char)
    (count : Nat) :
    segments (front ++ (List.replicate count ('/' :: text)).flatten) =
      segments front ++ List.replicate count text := by
  induction count generalizing front with
  | zero =>
      rw [List.replicate_zero, List.flatten_nil, List.append_nil, List.replicate_zero,
        List.append_nil]
  | succ count ih =>
      rw [List.replicate_succ, List.flatten_cons, ← List.append_assoc, ih, segments_append,
        single.segments, List.append_assoc, List.singleton_append, ← List.replicate_succ]

theorem segments_suffix_below (dir path : List Char) :
    segments path <:+ parts (dir ++ '/' :: path) := by
  apply List.IsSuffix.trans _ (segments_suffix_parts _)
  rw [segments_append]
  exact List.suffix_append _ _

variable {pattern path : List Char}

/-- A segment that the first segment of a glob does not cover can stand in front of a path often
enough for the glob not to match the last segments. -/
theorem not_coversLast_repeat {first text : List Char} {others : List (List Char)}
    (shape : segments pattern = first :: others) (exceeds : (segments path).length ≤ others.length)
    (single : IsSegment text) (uncovered : ¬ covers first text = true) (front : List Char) :
    ¬ CoversLast (segments pattern)
      (parts (front ++ (List.replicate (others.length + 1) ('/' :: text)).flatten ++
        '/' :: path)) := by
  intro covering
  have ends : List.replicate (others.length + 1) text ++ segments path <:+
      parts (front ++ (List.replicate (others.length + 1) ('/' :: text)).flatten ++
        '/' :: path) := by
    apply List.IsSuffix.trans _ (segments_suffix_parts _)
    rw [segments_append, segments_repeat single, List.append_assoc]
    exact List.suffix_append _ _
  have fits : (segments pattern).length ≤
      (List.replicate (others.length + 1) text ++ segments path).length := by
    rw [shape, List.length_append, List.length_replicate]
    exact Nat.le_add_right _ _
  have covering := covering.of_length_le ends fits
  rw [shape] at covering
  obtain ⟨_, member, covered⟩ := covering.exists_first exceeds
  cases List.eq_of_mem_replicate member
  exact uncovered covered

/-- A glob that is not open to the left, but whose first segment covers all segments, refuses the
slash of the root. -/
theorem unmatched_root {first more : List Char} {others : List (List Char)}
    (all : ∀ text, IsSegment text → '\\' ∉ text → covers first text = true)
    (closed : ¬ Open (pieces (first ++ more)))
    (exceeds : (segments path).length ≤ others.length) :
    ¬ Spells (pieces (first ++ more)) ('/' :: path) ∧
      ¬ CoversLast (first :: others) (parts ('/' :: path)) := by
  rcases pieces_of_covers all more with
    ⟨others, starred⟩ | ⟨piece, rest, back, fixed, own, begins, held⟩
  · rw [starred] at closed
    exact absurd .star closed
  have refused : ¬ piece.holds '/' = true := by
    intro slash
    rw [begins] at closed
    apply closed (.behind _ .star)
    intro c forward
    by_cases same : c = '/'
    · rwa [same]
    · exact held c same forward
  refine ⟨?whole, ?last⟩
  case whole =>
    intro spelled
    rw [begins] at spelled
    exact refused (spelled.of_fixed fixed).1
  case last =>
    intro covering
    obtain ⟨root, slashes⟩ := parts_slash path
    have covering : CoversLast (first :: others) (['/' :: root] ++ segments path) := by
      rwa [slashes] at covering
    obtain ⟨_, member, covered⟩ := covering.exists_first exceeds
    cases List.mem_singleton.mp member
    have spelled := covers_iff_spells.mp covered
    rw [own] at spelled
    exact refused (spelled.of_fixed fixed).1

/-- A path that a glob does not match by its last segments is lost below some directory, unless the
glob is open to the left. -/
theorem exists_dir_of_not_open (relative : pattern.head? ≠ some '/')
    (undotted : ¬ ['.', '/'] <+: pattern) (closed : ¬ Open (pieces pattern))
    (missed : ¬ EndsIn pattern (segments path)) :
    ∃ dir, '\\' ∉ dir ∧ ¬ Spells (pieces pattern) (dir ++ '/' :: path) ∧
      ¬ EndsIn pattern (parts (dir ++ '/' :: path)) := by
  obtain ⟨front, forward, unspelled⟩ := exists_unspelled closed
  by_cases fits : (segments pattern).length ≤ (segments path).length
  · refine ⟨front, forward, unspelled _, ?_⟩
    rintro ⟨present, covering⟩
    exact missed ⟨present, covering.of_length_le (segments_suffix_below front path) fits⟩
  have present : segments pattern ≠ [] := by
    intro none
    rw [none] at fits
    exact fits (Nat.zero_le _)
  obtain ⟨first, more, others, rfl, shape⟩ := exists_first_segment relative undotted present
  have exceeds : (segments path).length ≤ others.length := by
    rw [shape, List.length_cons] at fits
    omega
  by_cases all : ∀ text, IsSegment text → '\\' ∉ text → covers first text = true
  · obtain ⟨whole, last⟩ := unmatched_root all closed exceeds
    refine ⟨[], List.not_mem_nil, whole, ?_⟩
    rintro ⟨_, covering⟩
    rw [shape] at covering
    exact last covering
  · push Not at all
    obtain ⟨text, single, backward, uncovered⟩ := all
    refine ⟨front ++ (List.replicate (others.length + 1) ('/' :: text)).flatten, ?_, ?_, ?_⟩
    · intro member
      rcases List.mem_append.mp member with before | repeated
      · exact forward before
      · obtain ⟨_, listed, inside⟩ := List.mem_flatten.mp repeated
        cases List.eq_of_mem_replicate listed
        exact List.not_mem_cons_of_ne_of_not_mem (by decide) backward inside
    · rw [List.append_assoc]
      exact unspelled _
    · rintro ⟨_, covering⟩
      exact not_coversLast_repeat shape exceeds single uncovered front covering

/-! ## Matching below all directories -/

theorem not_mem_slashed (path : List Char) : '\\' ∉ slashed path := by
  intro member
  obtain ⟨c, _, same⟩ := List.mem_map.mp member
  split at same
  next => cases same
  next other =>
    subst same
    exact other rfl

theorem slashed_of_not_mem {path : List Char} (forward : '\\' ∉ path) : slashed path = path := by
  induction path with
  | nil => rfl
  | cons c rest ih =>
      obtain ⟨first, later⟩ := List.ne_and_not_mem_of_not_mem_cons forward
      rw [slashed, List.map_cons, ← slashed, ih later, if_neg]
      rw [beq_iff_eq]
      exact Ne.symm first

theorem slashed_below (dir path : String) :
    slashed (dir ++ "/" ++ path).toList = slashed dir.toList ++ '/' :: slashed path.toList := by
  rw [slashed, String.toList_append, String.toList_append, List.map_append, List.map_append,
    List.append_assoc]
  rfl

/-- A glob accounts for the last segments of a path, or for the path as a whole and is open to the
left. -/
def Carries (pattern path : List Char) : Prop :=
  EndsIn pattern (segments path) ∨ Open (pieces pattern) ∧ covers pattern path = true

theorem Carries.pathMatches {pattern path : String} (relative : pattern.toList.head? ≠ some '/')
    (carries : Carries pattern.toList (slashed path.toList)) (dir : String) :
    pathMatches (dir ++ "/" ++ path) pattern = true := by
  apply (pathMatches_iff relative).mpr
  rw [slashed_below]
  rcases carries with ⟨present, covering⟩ | ⟨opened, covered⟩
  · exact .inr ⟨present, covering.mono (segments_suffix_below _ _)⟩
  · have forward := not_mem_slashed (dir ++ "/" ++ path).toList
    rw [slashed_below, ← List.singleton_append, ← List.append_assoc] at forward
    rw [← List.singleton_append, ← List.append_assoc]
    exact .inl (opened.spells_append (covers_iff_spells.mp covered) forward)

theorem head?_slashed {path : List Char} (unslashed : path.head? ≠ some '/')
    (forward : path.head? ≠ some '\\') : (slashed path).head? ≠ some '/' := by
  cases path with
  | nil => nofun
  | cons c rest =>
      have other : (c == '\\') = false := beq_eq_false_iff_ne.mpr fun same => forward (same ▸ rfl)
      rw [slashed, List.map_cons, other]
      exact unslashed

/-- A relative glob that matches a relative path matches it below all directories when it accounts
for its last segments, or for all of it and is open to the left. In no other case does it match
below all directories, save for a path behind a backslash or a glob behind a single dot. -/
theorem pathMatches_below {pattern path : String} (relative : pattern.toList.head? ≠ some '/')
    (unslashed : path.toList.head? ≠ some '/') (matched : pathMatches path pattern = true) :
    (Carries pattern.toList (slashed path.toList) →
        ∀ dir, pathMatches (dir ++ "/" ++ path) pattern = true) ∧
      ((∀ dir, pathMatches (dir ++ "/" ++ path) pattern = true) →
        Carries pattern.toList (slashed path.toList) ∨ path.toList.head? = some '\\' ∨
          ['.', '/'] <+: pattern.toList) := by
  refine ⟨fun carries dir => carries.pathMatches relative dir, ?_⟩
  intro below
  by_contra lost
  obtain ⟨uncarried, forward, undotted⟩ : ¬ Carries pattern.toList (slashed path.toList) ∧
      path.toList.head? ≠ some '\\' ∧ ¬ ['.', '/'] <+: pattern.toList := by
    rwa [not_or, not_or] at lost
  have missed : ¬ EndsIn pattern.toList (segments (slashed path.toList)) :=
    fun ended => uncarried (.inl ended)
  have spelled : Spells (pieces pattern.toList) (slashed path.toList) := by
    rcases (pathMatches_iff relative).mp matched with spelled | ended
    · exact spelled
    · rw [parts_of_head (head?_slashed unslashed forward)] at ended
      exact absurd ended missed
  have closed : ¬ Open (pieces pattern.toList) :=
    fun opened => uncarried (.inr ⟨opened, covers_iff_spells.mpr spelled⟩)
  obtain ⟨dir, unescaped, unspelled, uncovered⟩ :=
    exists_dir_of_not_open relative undotted closed missed
  have found := (pathMatches_iff relative).mp (below (String.ofList dir))
  rw [slashed_below, String.toList_ofList, slashed_of_not_mem unescaped] at found
  rcases found with spelled | ended
  · exact unspelled spelled
  · exact uncovered ended

theorem pathMatches_below_vendor :
    pathMatches "vendor/lib.go" "vendor/*" = true ∧
      Carries "vendor/*".toList (slashed "vendor/lib.go".toList) ∧
        ∀ dir, pathMatches (dir ++ "/" ++ "vendor/lib.go") "vendor/*" = true := by
  have matched : pathMatches "vendor/lib.go" "vendor/*" = true := by decide
  have carries : Carries "vendor/*".toList (slashed "vendor/lib.go".toList) :=
    .inl ⟨by decide, coversLast_iff.mpr (by decide)⟩
  exact ⟨matched, carries, (pathMatches_below (by decide) (by decide) matched).1 carries⟩

/-- A usable glob for all that is below a directory loses a deeper file once that directory is not
the first of the path. -/
theorem pathMatches_loses_nested :
    problem? "vendor/*" = none ∧ "vendor/*".toList.head? ≠ some '/' ∧
      "vendor/lib/lib.go".toList.head? ≠ some '/' ∧
        pathMatches "vendor/lib/lib.go" "vendor/*" = true ∧
          pathMatches ("/src/repo" ++ "/" ++ "vendor/lib/lib.go") "vendor/*" = false := by
  decide

end TreeLint.Glob
