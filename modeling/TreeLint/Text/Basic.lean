/-!
# Texts

Character properties as tables of code points, blanks, and texts set in columns and rows. A property
is kept as a list of rows in ascending order. A look-up stops at the first row that starts beyond
the code point, so it is right only for ascending tables.
-/

set_option autoImplicit false

namespace TreeLint.Text

/-- Whether a code point lies in one of the closed ranges. -/
def inRanges : List (Nat × Nat) → Nat → Bool
  | [], _ => false
  | (first, last) :: rest, code =>
      if code < first then false else if code ≤ last then true else inRanges rest code

/-- Whether a code point lies in one of the rows `first, first + step, ..., last`. -/
def inRows : List (Nat × Nat × Nat) → Nat → Bool
  | [], _ => false
  | (first, last, step) :: rest, code =>
      if code < first then false
      else if code ≤ last && (code - first) % step == 0 then true
      else inRows rest code

/-! ## Blanks -/

/-- The blank code points, ascending: spaces, tabs, line and page breaks, and the four
separator controls. -/
def blanks : List (Nat × Nat) :=
  [(0x09, 0x0D), (0x1C, 0x20), (0x85, 0x85), (0xA0, 0xA0), (0x1680, 0x1680), (0x2000, 0x200A),
   (0x2028, 0x2029), (0x202F, 0x202F), (0x205F, 0x205F), (0x3000, 0x3000)]

def isBlank (c : Char) : Bool :=
  inRanges blanks c.toNat

def trimChars (text : List Char) : List Char :=
  ((text.dropWhile isBlank).reverse.dropWhile isBlank).reverse

/-- Whether a text has nothing but blanks; the empty text has not even those. -/
def isBlankText (text : String) : Bool :=
  text.toList.all isBlank

/-! ## Columns and rows -/

/-- The text filled up with spaces to a least width. A text that is wider stays as it is. -/
def padRight (width : Nat) (text : String) : String :=
  text ++ String.ofList (List.replicate (width - text.length) ' ')

@[inherit_doc padRight]
def padLeft (width : Nat) (text : String) : String :=
  String.ofList (List.replicate (width - text.length) ' ') ++ text

def row (width : Nat) (c : Char) : String :=
  String.ofList (List.replicate width c)

def join (separator : String) : List String → String
  | [] => ""
  | [text] => text
  | text :: rest => text ++ separator ++ join separator rest

def unlines (lines : List String) : String :=
  lines.foldr (fun line rest => line ++ "\n" ++ rest) ""

end TreeLint.Text
