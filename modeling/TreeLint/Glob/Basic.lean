/-!
# Glob patterns

`*` stands for any characters, `?` for one, and a bracketed set for one of its characters. Other
characters stand for themselves, and so does an opening bracket that is never closed. No character
is special in the text that is matched; `*` runs over slashes too.
-/

set_option autoImplicit false

namespace TreeLint.Glob

/-- A closed range of characters, empty when its ends are reversed. -/
structure CharRange where
  first : Char
  last : Char
  deriving DecidableEq, Repr

def CharRange.holds (range : CharRange) (c : Char) : Bool :=
  range.first ≤ c && c ≤ range.last

/-- The characters of a set of ranges, or all others. -/
structure CharSet where
  negated : Bool
  ranges : List CharRange
  deriving DecidableEq, Repr

def CharSet.holds (set : CharSet) (c : Char) : Bool :=
  set.ranges.any (·.holds c) != set.negated

inductive Piece where
  /-- Any number of characters. -/
  | star
  /-- Any one character. -/
  | any
  | literal (c : Char)
  | oneOf (set : CharSet)
  deriving DecidableEq, Repr

/-- The ranges that a bracket's content writes, from left to right: three characters with a hyphen
in the middle are a range, and any other character is a range of its own. -/
def charRanges : List Char → List CharRange
  | first :: '-' :: last :: rest => ⟨first, last⟩ :: charRanges rest
  | c :: rest => ⟨c, c⟩ :: charRanges rest
  | [] => []

/-- The content without the reversed ranges at its front. -/
def dropReversed : List Char → List Char
  | first :: '-' :: last :: rest =>
      if last < first then dropReversed rest else first :: '-' :: last :: rest
  | content => content

/-- The set that a bracket's content writes. A `!` at the front negates it, also when only reversed
ranges stand in front of it. In that case a hyphen right behind the `!` stands for itself, and so
does the character behind the hyphen. -/
def charSet : List Char → CharSet
  | '!' :: content => ⟨true, charRanges content⟩
  | content =>
      match dropReversed content with
      | '!' :: '-' :: c :: rest => ⟨true, ⟨'-', '-'⟩ :: ⟨c, c⟩ :: charRanges rest⟩
      | '!' :: rest => ⟨true, charRanges rest⟩
      | rest => ⟨false, charRanges rest⟩

/-- The characters in front of the first closing bracket, if there is one. -/
def untilClosing : List Char → Option (List Char)
  | [] => none
  | ']' :: _ => some []
  | c :: rest => (untilClosing rest).map (c :: ·)

/-- The content of the bracket that was just opened, if it is closed. A closing bracket at the very
front of the content, a `!` aside, belongs to the content. -/
def bracketContent? : List Char → Option (List Char)
  | '!' :: ']' :: rest => (untilClosing rest).map ('!' :: ']' :: ·)
  | ']' :: rest => (untilClosing rest).map (']' :: ·)
  | rest => untilClosing rest

/-- Reads the pieces of a pattern; `skipped` characters were read as part of a bracket already.
Neighbouring stars are one piece. -/
def piecesFrom : Nat → List Char → List Piece
  | _, [] => []
  | skipped + 1, _ :: rest => piecesFrom skipped rest
  | 0, c :: rest =>
      match c with
      | '*' =>
          match piecesFrom 0 rest with
          | .star :: pieces => .star :: pieces
          | pieces => .star :: pieces
      | '?' => .any :: piecesFrom 0 rest
      | '[' =>
          match bracketContent? rest with
          | some content => .oneOf (charSet content) :: piecesFrom (content.length + 1) rest
          | none => .literal '[' :: piecesFrom 0 rest
      | c => .literal c :: piecesFrom 0 rest

def pieces (pattern : List Char) : List Piece :=
  piecesFrom 0 pattern

def Piece.holds : Piece → Char → Bool
  | .star, _ => false
  | .any, _ => true
  | .literal c, d => c == d
  | .oneOf set, d => set.holds d

/-!
## Matching without going back

Trying every remainder of the text for a star, and each of them again for the next star, takes long.
Below, the verdicts on all remainders of the text are found together, piece after piece from the
last one on.
-/

def anyFrom : List Bool → List Bool
  | [] => []
  | verdict :: rest =>
      match anyFrom rest with
      | [] => [verdict]
      | later :: others => (verdict || later) :: later :: others

/-- The verdicts for one more character in front, from the verdicts `row` without it. -/
def oneMore (holds : Char → Bool) : List Char → List Bool → List Bool
  | c :: text, _ :: verdict :: row => (holds c && verdict) :: oneMore holds text (verdict :: row)
  | _, _ => [false]

/-- For each remainder of the text, whether the pieces account for it. -/
def verdicts (text : List Char) : List Piece → List Bool
  | [] => text.map (fun _ => false) ++ [true]
  | .star :: pieces => anyFrom (verdicts text pieces)
  | piece :: pieces => oneMore piece.holds text (verdicts text pieces)

def covers (pattern text : List Char) : Bool :=
  (verdicts text (pieces pattern)).headD false

end TreeLint.Glob
