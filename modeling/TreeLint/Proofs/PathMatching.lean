import Mathlib.Data.List.Forall2
import Mathlib.Data.List.Infix
import TreeLint.Glob.Path

/-!
# Texts and segments of a glob

What it means that the pieces of a glob account for a text, how a path falls into segments at its
slashes, and which paths a relative glob matches by their last segments.
-/

set_option autoImplicit false

namespace TreeLint.Glob

/-! ## Spelling -/

/-- The pieces of a glob stand for a text: a star for any characters, one by one, and another piece
for a character that it holds. -/
inductive Spells : List Piece → List Char → Prop where
  | nil : Spells [] []
  | pass {pieces : List Piece} {text : List Char} :
      Spells pieces text → Spells (.star :: pieces) text
  | take {pieces : List Piece} {text : List Char} (c : Char) :
      Spells (.star :: pieces) text → Spells (.star :: pieces) (c :: text)
  | hold {piece : Piece} {pieces : List Piece} {c : Char} {text : List Char} :
      piece.holds c = true → Spells pieces text → Spells (piece :: pieces) (c :: text)

theorem Spells.of_suffix {pieces : List Piece} {back text : List Char}
    (spelled : Spells pieces back) (ends : back <:+ text) : Spells (.star :: pieces) text := by
  obtain ⟨front, rfl⟩ := ends
  induction front with
  | nil => exact .pass spelled
  | cons c front ih => exact .take c ih

theorem Spells.of_fixed {piece : Piece} {pieces : List Piece} {c : Char} {text : List Char}
    (spelled : Spells (piece :: pieces) (c :: text)) (fixed : piece ≠ .star) :
    piece.holds c = true ∧ Spells pieces text := by
  cases spelled with
  | pass | take => exact absurd rfl fixed
  | hold held spelled => exact ⟨held, spelled⟩

theorem Spells.exists_star {pieces : List Piece} {c : Char} {text : List Char}
    (empty : Spells pieces []) (filled : Spells pieces (c :: text)) :
    ∃ others, pieces = .star :: others := by
  cases empty with
  | nil => cases filled
  | pass => exact ⟨_, rfl⟩

/-- Whether the pieces account for the whole text. A star makes this try every tail of the text. -/
def accepts : List Piece → List Char → Bool
  | [], text => text.isEmpty
  | .star :: pieces, text => text.tails.any (accepts pieces)
  | _ :: _, [] => false
  | piece :: pieces, c :: rest => piece.holds c && accepts pieces rest

theorem spells_of_accepts {pieces : List Piece} {text : List Char}
    (accepted : accepts pieces text = true) : Spells pieces text := by
  induction pieces generalizing text with
  | nil =>
      cases List.isEmpty_iff.mp accepted
      exact .nil
  | cons piece pieces ih =>
      cases piece with
      | star =>
          obtain ⟨back, remaining, accepted⟩ := List.any_eq_true.mp accepted
          exact (ih accepted).of_suffix ((List.mem_tails _ _).mp remaining)
      | any | literal | oneOf =>
          cases text with
          | nil => cases accepted
          | cons c rest =>
              obtain ⟨held, accepted⟩ := Bool.and_eq_true_iff.mp accepted
              exact .hold held (ih accepted)

theorem Spells.accepts {pieces : List Piece} {text : List Char} (spelled : Spells pieces text) :
    accepts pieces text = true := by
  induction spelled with
  | nil => rfl
  | pass _ ih => exact List.any_eq_true.mpr ⟨_, (List.mem_tails _ _).mpr List.suffix_rfl, ih⟩
  | take c _ ih =>
      obtain ⟨back, remaining, accepted⟩ := List.any_eq_true.mp ih
      exact List.any_eq_true.mpr ⟨back, List.mem_cons_of_mem _ remaining, accepted⟩
  | @hold piece _ _ _ held _ ih =>
      cases piece with
      | star => cases held
      | any | literal | oneOf => exact Bool.and_eq_true_iff.mpr ⟨held, ih⟩

/-! ### The verdicts on all tails -/

theorem tails_eq_cons (text : List Char) : ∃ others, text.tails = text :: others := by
  cases text with
  | nil => exact ⟨[], rfl⟩
  | cons c rest => exact ⟨rest.tails, rfl⟩

theorem anyFrom_map (judge : List Char → Bool) (text : List Char) :
    anyFrom (text.tails.map judge) = text.tails.map fun back => back.tails.any judge := by
  induction text with
  | nil => simp [anyFrom]
  | cons c rest ih =>
      obtain ⟨others, shape⟩ := tails_eq_cons rest
      simp only [List.tails_cons, List.map_cons, anyFrom, ih]
      simp [shape]

theorem oneMore_map (holds : Char → Bool) (judge : List Char → Bool) (text : List Char) :
    oneMore holds text (text.tails.map judge) =
      text.tails.map fun back =>
        match back with
        | [] => false
        | c :: rest => holds c && judge rest := by
  induction text with
  | nil => simp [oneMore]
  | cons c rest ih =>
      obtain ⟨others, shape⟩ := tails_eq_cons rest
      rw [shape, List.map_cons] at ih
      simp only [List.tails_cons, shape, List.map_cons, oneMore, ih]

theorem verdicts_eq_map (text : List Char) (pieces : List Piece) :
    verdicts text pieces = text.tails.map (accepts pieces) := by
  induction pieces with
  | nil =>
      rw [verdicts]
      induction text with
      | nil => rfl
      | cons c rest ih =>
          rw [List.tails_cons, List.map_cons, List.map_cons, List.cons_append, ih]
          rfl
  | cons piece pieces ih =>
      cases piece with
      | star =>
          rw [verdicts, ih, anyFrom_map]
          exact List.map_congr_left fun back _ => by rw [accepts]
      | any | literal | oneOf =>
          simp only [verdicts, ih, oneMore_map]
          refine List.map_congr_left fun back _ => ?_
          cases back <;> simp [accepts]

theorem covers_eq_accepts (pattern text : List Char) :
    covers pattern text = accepts (pieces pattern) text := by
  obtain ⟨others, shape⟩ := tails_eq_cons text
  simp [covers, verdicts_eq_map, shape]

theorem covers_iff_spells {pattern text : List Char} :
    covers pattern text = true ↔ Spells (pieces pattern) text := by
  rw [covers_eq_accepts]
  exact ⟨spells_of_accepts, Spells.accepts⟩

/-! ## Segments -/

theorem segments_append (front back : List Char) :
    segments (front ++ '/' :: back) = segments front ++ segments back := by
  rw [segments, List.splitOn_append_cons_self, List.filter_append]
  rfl

/-- A text that is a segment of its own. -/
structure IsSegment (text : List Char) : Prop where
  unslashed : '/' ∉ text
  nonempty : text ≠ []
  undotted : text ≠ ['.']

theorem IsSegment.segments {text : List Char} (single : IsSegment text) :
    segments text = [text] := by
  rw [Glob.segments, List.splitOn_eq_singleton single.unslashed]
  apply List.filter_eq_self.mpr
  intro piece member
  cases List.mem_singleton.mp member
  rw [Bool.and_eq_true_iff, Bool.not_eq_true', List.isEmpty_eq_false_iff, bne_iff_ne]
  exact ⟨single.nonempty, single.undotted⟩

theorem isSegment_of_segments {text : List Char} (unslashed : '/' ∉ text)
    (present : segments text ≠ []) : IsSegment text := by
  refine ⟨unslashed, ?_, ?_⟩ <;>
    · rintro rfl
      exact present rfl

theorem rootOf_of_head {path : List Char} (relative : path.head? ≠ some '/') :
    rootOf path = [] := by
  unfold rootOf
  split
  next => exact absurd rfl relative
  next => exact absurd rfl relative
  next => exact absurd rfl relative
  next => rfl

theorem parts_of_head {path : List Char} (relative : path.head? ≠ some '/') :
    parts path = segments path := by
  rw [parts, rootOf_of_head relative]

/-- A path that starts at the root has one more part than segments, made of slashes. -/
theorem parts_slash (path : List Char) :
    ∃ root, parts ('/' :: path) = ('/' :: root) :: segments path := by
  have same : segments ('/' :: path) = segments path := segments_append [] path
  obtain ⟨root, slashes⟩ : ∃ root, rootOf ('/' :: path) = '/' :: root := by
    rcases path with _ | ⟨c, path⟩
    · exact ⟨_, rfl⟩
    unfold rootOf
    split
    next => exact ⟨_, rfl⟩
    next => exact ⟨_, rfl⟩
    next => exact ⟨_, rfl⟩
    next other => exact absurd rfl (other _)
  rw [parts, slashes, same]
  exact ⟨root, rfl⟩

theorem segments_suffix_parts (path : List Char) : segments path <:+ parts path := by
  unfold parts
  split
  · exact List.suffix_rfl
  · exact List.suffix_cons _ _

/-! ## Last segments -/

/-- The patterns cover the last of the texts, one by one. -/
def CoversLast (patterns texts : List (List Char)) : Prop :=
  ∃ last, last <:+ texts ∧
    List.Forall₂ (fun pattern text => covers pattern text = true) patterns last

namespace CoversLast

variable {patterns texts more : List (List Char)}

theorem mono (covering : CoversLast patterns texts) (ends : texts <:+ more) :
    CoversLast patterns more := by
  obtain ⟨last, lies, covered⟩ := covering
  exact ⟨last, lies.trans ends, covered⟩

theorem of_length_le (covering : CoversLast patterns more) (ends : texts <:+ more)
    (fits : patterns.length ≤ texts.length) : CoversLast patterns texts := by
  obtain ⟨last, lies, covered⟩ := covering
  refine ⟨last, List.suffix_of_suffix_length_le lies ends ?_, covered⟩
  rwa [← covered.length_eq]

/-- With more patterns than texts at the end, the first pattern covers a text in front of these. -/
theorem exists_first {pattern : List Char}
    (covering : CoversLast (pattern :: patterns) (more ++ texts))
    (exceeds : texts.length ≤ patterns.length) :
    ∃ text ∈ more, covers pattern text = true := by
  obtain ⟨last, ⟨front, whole⟩, pairs⟩ := covering
  obtain ⟨text, rest, covered, others, rfl⟩ := List.forall₂_cons_left_iff.mp pairs
  have inside : texts <:+ rest := by
    apply List.suffix_of_suffix_length_le (List.suffix_append more texts)
    · exact ⟨front ++ [text], by rw [← whole, List.append_assoc, List.singleton_append]⟩
    · rwa [← others.length_eq]
  obtain ⟨gap, rfl⟩ := inside
  have cut : (front ++ text :: gap) ++ texts = more ++ texts := by
    rw [← whole, List.append_assoc, List.cons_append]
  cases List.append_cancel_right cut
  exact ⟨text, List.mem_append_right front List.mem_cons_self, covered⟩

end CoversLast

theorem partsAgree_append {patterns last : List (List Char)} (front : List (List Char))
    (same : patterns.length = last.length) :
    partsAgree patterns (front ++ last) = true ↔
      List.Forall₂ (fun pattern text => covers pattern text = true) patterns last := by
  have aligned : patterns.reverse.length = last.reverse.length := by
    rwa [List.length_reverse, List.length_reverse]
  have zipped : patterns.reverse.zip (front ++ last).reverse =
      patterns.reverse.zip last.reverse := by
    have joined := @List.zip_append _ _ patterns.reverse [] last.reverse front.reverse aligned
    rwa [List.append_nil, List.zip_nil_left, List.append_nil, ← List.reverse_append] at joined
  rw [partsAgree, zipped, List.all_eq_true, ← List.forall₂_reverse_iff, List.forall₂_iff_zip]
  constructor
  · intro held
    exact ⟨aligned, fun member => held _ member⟩
  · rintro ⟨_, held⟩ ⟨pattern, text⟩ member
    exact held member

theorem coversLast_iff {patterns texts : List (List Char)} :
    CoversLast patterns texts ↔
      patterns.length ≤ texts.length ∧ partsAgree patterns texts = true := by
  constructor
  · rintro ⟨last, ⟨front, rfl⟩, pairs⟩
    have same := pairs.length_eq
    refine ⟨?_, (partsAgree_append front same).mpr pairs⟩
    rw [same, List.length_append]
    exact Nat.le_add_left _ _
  · rintro ⟨fits, agreeing⟩
    have cut := List.take_append_drop (texts.length - patterns.length) texts
    rw [← cut] at agreeing
    refine ⟨_, List.drop_suffix (texts.length - patterns.length) texts, ?_⟩
    refine (partsAgree_append _ ?_).mp agreeing
    rw [List.length_drop, Nat.sub_sub_self fits]

/-- A glob has segments, and these cover the last of the texts. -/
structure EndsIn (pattern : List Char) (texts : List (List Char)) : Prop where
  present : segments pattern ≠ []
  covering : CoversLast (segments pattern) texts

theorem matchesEnd_iff {path pattern : List Char} (relative : pattern.head? ≠ some '/') :
    matchesEnd path pattern = true ↔ EndsIn pattern (parts path) := by
  rw [matchesEnd, rootOf_of_head relative]
  simp only [Bool.and_eq_true, Bool.not_eq_true', List.isEmpty_eq_false_iff, decide_eq_true_eq]
  constructor
  · rintro ⟨⟨present, fits⟩, agreeing⟩
    exact ⟨present, coversLast_iff.mpr ⟨fits, agreeing⟩⟩
  · rintro ⟨present, covering⟩
    obtain ⟨fits, agreeing⟩ := coversLast_iff.mp covering
    exact ⟨⟨present, fits⟩, agreeing⟩

/-- A relative glob matches a path as a whole or by its last parts. -/
theorem pathMatches_iff {path pattern : String} (relative : pattern.toList.head? ≠ some '/') :
    pathMatches path pattern = true ↔
      Spells (pieces pattern.toList) (slashed path.toList) ∨
        EndsIn pattern.toList (parts (slashed path.toList)) := by
  rw [← covers_iff_spells, ← matchesEnd_iff relative, pathMatches, Bool.or_eq_true_iff]

end TreeLint.Glob
