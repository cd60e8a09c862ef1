import TreeLint.Tree.Cursor
import TreeLint.Waiver.Basic
import TreeLint.Waiver.Directive

/-!
# The waivers of a tree

A directive covers the nearest declaration around its comment. Outside declarations it covers the
first declaration among the comment's siblings that starts behind the comment. With neither, it is
noted and left out.
-/

set_option autoImplicit false

namespace TreeLint

structure WaiverSheet where
  path : Value
  inline : List InlineWaiver
  exclusions : List Exclusion

namespace WaiverSheet

/-- The declaration that a directive in a comment covers. -/
def anchor? (comment : Cursor) : Option Node :=
  match comment.enclosing? .declaration with
  | some declaration => some declaration.node
  | none =>
      comment.parent?.bind fun parent =>
        parent.node.children.find? fun sibling =>
          sibling.kind == .declaration &&
            comment.node.span.stop.offset ≤ sibling.span.start.offset

/-- The rules that a comment's directive names, if its text is one and holds a directive. -/
def directive? (comment : Cursor) : Option (List String) :=
  match comment.node.attribute? "text" with
  | some (.text text) => Directive.parse? text
  | _ => none

def unanchoredNote (tree : Tree) (comment : Cursor) : Note :=
  ⟨.warning, "convcheck.suppression",
    "Ignoring " ++ Directive.token ++ " directive at " ++ comment.node.span.label ++ " in " ++
      tree.pathText ++ ": no declaration to cover"⟩

/-- The directives in comments, in the order given, and notes on those that cover nothing. -/
def collect (tree : Tree) : List Cursor → List InlineWaiver × Journal
  | [] => ([], [])
  | comment :: rest =>
      let (waivers, journal) := collect tree rest
      match directive? comment with
      | none => (waivers, journal)
      | some ruleIds =>
          match anchor? comment with
          | some declaration =>
              (⟨declaration.span, ruleIds, some comment.node.span⟩ :: waivers, journal)
          | none => (waivers, unanchoredNote tree comment :: journal)

def inlineWaivers (tree : Tree) : List InlineWaiver × Journal :=
  collect tree (tree.nodesOfKind .comment)

def ofTree (tree : Tree) (policy : Policy) : WaiverSheet × Journal :=
  let (inline, journal) := inlineWaivers tree
  (⟨tree.path, inline, policy.allExclusions⟩, journal)

/-- All waivers, the inline ones first. -/
def waivers (sheet : WaiverSheet) : List Waiver :=
  sheet.inline.map .inline ++ sheet.exclusions.map .exclusion

def covers (sheet : WaiverSheet) (finding : Finding) : Except PathNotText Bool :=
  Waiver.anyCovers finding sheet.path sheet.waivers

end WaiverSheet

end TreeLint
