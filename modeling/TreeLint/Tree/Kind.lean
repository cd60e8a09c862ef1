import TreeLint.Value.Display

/-!
# Node kinds

The syntactic categories that rules are dispatched on. A document names a kind by its plain name or
by its name in capitals.
-/

set_option autoImplicit false

namespace TreeLint

inductive Kind where
  | file
  | declaration
  | importing
  | functionLiteral
  | structLiteral
  | identifier
  | comment
  | literal
  | call
  | block
  | other
  deriving DecidableEq, Repr

namespace Kind

def all : List Kind :=
  [file, declaration, importing, functionLiteral, structLiteral, identifier, comment, literal,
   call, block, other]

def name : Kind → String
  | file => "File"
  | declaration => "Declaration"
  | importing => "Import"
  | functionLiteral => "FunctionLiteral"
  | structLiteral => "StructLiteral"
  | identifier => "Identifier"
  | comment => "Comment"
  | literal => "Literal"
  | call => "Call"
  | block => "Block"
  | other => "Other"

/-- The name in capitals, with underscores between words. -/
def capitalName : Kind → String
  | file => "FILE"
  | declaration => "DECLARATION"
  | importing => "IMPORT"
  | functionLiteral => "FUNCTION_LITERAL"
  | structLiteral => "STRUCT_LITERAL"
  | identifier => "IDENTIFIER"
  | comment => "COMMENT"
  | literal => "LITERAL"
  | call => "CALL"
  | block => "BLOCK"
  | other => "OTHER"

def ofName? (name : String) : Option Kind :=
  all.find? fun kind => name == kind.name || name == kind.capitalName

/-- The kind that a value names; only texts name one. -/
def ofValue? : Value → Option Kind
  | .text name => ofName? name
  | _ => none

def unknownMessage (given : Value) : String :=
  "unknown node kind " ++ given.literal

end Kind

end TreeLint
