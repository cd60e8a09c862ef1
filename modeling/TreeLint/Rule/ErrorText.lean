import TreeLint.Rule.Reading
import TreeLint.Text.LetterCase

/-!
# Error texts are fragments

An error text starts in lower case and ends without punctuation, so that it can be wrapped into
another. A first word all in capitals is an acronym and keeps its case.
-/

set_option autoImplicit false

namespace TreeLint.ErrorText

def info : RuleInfo where
  family := "ErrorStringRule"
  id := "errors.string-format"
  title := "Error string formatting"
  recommendation :=
    "Start error strings lower-case and drop trailing punctuation; they are often wrapped."
  severity := .warning
  kinds := [.literal]
  scope := .node

/-- Whether a literal is marked as an error text and holds a text. -/
def isErrorText (node : Node) : Bool :=
  match node.attribute? "errorString", node.attribute? "value" with
  | some (.bool true), some (.text _) => true
  | _, _ => false

/-- Whether a text starts with a capital, in a word that is not all in capitals. -/
def isCapitalised (text : List Char) : Except Failure Bool := do
  let word ← Text.firstWord text
  let first ← Text.firstCharacter word
  return Text.isUpper first && !Text.isUpperWord word

def isPunctuated (text : List Char) : Bool :=
  text.getLast?.any fun c => c == '.' || c == '!' || c == '?' || c == ':'

def capitalMessage : String := "error strings should not be capitalized."

def punctuationMessage : String := "error strings should not end with punctuation."

/-- What is found in a trimmed text; an empty one is passed over. -/
def findings (node : Node) (text : List Char) : Except Failure (List Candidate) :=
  if text.isEmpty then .ok []
  else do
    let capitalised ← isCapitalised text
    return (if capitalised then [info.finding node capitalMessage] else []) ++
      (if isPunctuated text then [info.finding node punctuationMessage] else [])

def rule : Rule where
  toRuleInfo := info
  applies cursor := .ok (isErrorText cursor.node)
  evaluate cursor _ := do
    let text ← ((cursor.node.attribute? "value").getD .null).trimmed
    findings cursor.node text

end TreeLint.ErrorText
