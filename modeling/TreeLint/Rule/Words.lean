/-!
# The words of an identifier

Capitals and small letters tell where the words of an identifier start. A word is a run of
capitals, or small letters and digits with at most one capital in front. When small letters follow
a run of capitals, the last capital of the run belongs to them; digits leave the run whole. All
other characters separate words.
-/

set_option autoImplicit false

namespace TreeLint.Words

/-- The word that is being read, its characters from the last to the first. -/
inductive Current where
  | none
  /-- Capitals, the last of them apart. -/
  | capitals (earlier : List Char) (last : Char)
  /-- Small letters and digits, perhaps behind a capital. -/
  | small (word : List Char)

namespace Current

def finished : Current → List (List Char)
  | none => []
  | capitals earlier last => [(last :: earlier).reverse]
  | small word => [word.reverse]

/-- Reads a capital: the words that end in front of it and the word that it belongs to. -/
def capital (c : Char) : Current → List (List Char) × Current
  | capitals earlier last => ([], capitals (last :: earlier) c)
  | current => (current.finished, capitals [] c)

def letter (c : Char) : Current → List (List Char) × Current
  | none => ([], small [c])
  | capitals [] last => ([], small [c, last])
  | capitals earlier last => ([earlier.reverse], small [c, last])
  | small word => ([], small (c :: word))

def digit (c : Char) : Current → List (List Char) × Current
  | none => ([], small [c])
  | capitals [] last => ([], small [c, last])
  | capitals earlier last => ([(last :: earlier).reverse], small [c])
  | small word => ([], small (c :: word))

def step (c : Char) (current : Current) : List (List Char) × Current :=
  if c.isUpper then current.capital c
  else if c.isLower then current.letter c
  else if c.isDigit then current.digit c
  else (current.finished, none)

end Current

def splitFrom (current : Current) : List Char → List (List Char)
  | [] => current.finished
  | c :: rest =>
      let (words, next) := current.step c
      words ++ splitFrom next rest

def split (identifier : List Char) : List (List Char) :=
  splitFrom .none identifier

end TreeLint.Words
