import TreeLint.Tree.Node

/-!
# Reading trees from documents

A node is an object with a `kind`, a `span` and, if it has any, `attributes` and `children`. A
document is the root node itself, or an object that holds the root node under `root`. Every child
lies within its parent. An error names the node at fault, except that an infinite coordinate is
reported without a place.
-/

set_option autoImplicit false

namespace TreeLint

inductive NodeFault where
  | notMapping
  | missing (key : String)
  | unknownKind (name : String)
  | location (error : LocationError)
  | attributesNotMapping
  | childrenNotList
  | childOutside (child parent : String)
  /-- An integer has too many digits to be shown. -/
  | unwritable

def NodeFault.message : NodeFault → String
  | notMapping => "node must be a mapping"
  | missing key => "missing " ++ Text.quoted key
  | unknownKind name => Kind.unknownMessage (.text name)
  | location error => error.message
  | attributesNotMapping => "attributes must be a mapping"
  | childrenNotList => "children must be a list"
  | childOutside child parent => child ++ " extends outside its parent " ++ parent
  | unwritable => Number.unwritableMessage

inductive TreeError where
  | notMapping
  /-- The path of the document holds an integer of too many digits. -/
  | unwritablePath
  | infiniteCoordinate
  /-- A fault of the node at a place, which is given by the positions among siblings on the path
  from the root down. -/
  | node (place : List Nat) (fault : NodeFault)

namespace TreeError

def placeText (place : List Nat) : String :=
  place.foldl (fun text index => text ++ ".children[" ++ toString index ++ "]") "root"

def message : TreeError → String
  | notMapping => "syntax tree must be a mapping"
  | unwritablePath => Number.unwritableMessage
  | infiniteCoordinate => CoordinateError.infinite.message
  | node place fault => placeText place ++ ": " ++ fault.message

/-- The name of the kind of error: an infinite coordinate overflows, and all else is a matter of
unfit values. -/
def errorType : TreeError → String
  | infiniteCoordinate => "OverflowError"
  | _ => "ValueError"

def ofLocation (place : List Nat) : LocationError → TreeError
  | .coordinate .infinite => infiniteCoordinate
  | .missing key => node place (.missing key)
  | error => node place (.location error)

end TreeError

namespace Node

/-- Reads the kind. Any value is taken as messages display it. -/
def readKind (place : List Nat) (members : Members) : Except TreeError Kind :=
  match members.get? "kind" with
  | none => .error (.node place (.missing "kind"))
  | some value =>
      if value.isWritable then
        match Kind.ofName? value.display with
        | some kind => .ok kind
        | none => .error (.node place (.unknownKind value.display))
      else .error (.node place .unwritable)

def readSpan (place : List Nat) (members : Members) : Except TreeError Span :=
  match members.get? "span" with
  | none => .error (.node place (.missing "span"))
  | some value => (Span.ofValue value).mapError (TreeError.ofLocation place)

/-- Reads the attributes; falsy ones count as absent. -/
def readAttributes (place : List Nat) (members : Members) : Except TreeError Members :=
  match Value.orElse (members.get? "attributes") (.object []) with
  | .object attributes => .ok attributes
  | _ => .error (.node place .attributesNotMapping)

/-- Puts a node together, if its children lie within it. -/
def enclose (place : List Nat) (node : Node) : Except TreeError Node :=
  match node.children.find? fun child => !node.span.contains child.span with
  | some child =>
      if child.span.isWritable && node.span.isWritable then
        .error (.node place (.childOutside child.label node.label))
      else .error (.node place .unwritable)
  | none => .ok node

mutual

/-- Reads the node at a place. Its own kind, span, attributes and form come before its children,
and those before the check that they lie within it. -/
def read (place : List Nat) : Value → Except TreeError Node
  | .object members => do
      let kind ← readKind place members
      let span ← readSpan place members
      let attributes ← readAttributes place members
      let children ← readChildren place members
      enclose place ⟨kind, span, attributes, children⟩
  | _ => .error (.node place .notMapping)

def readChildren (place : List Nat) : List (String × Value) → Except TreeError (List Node)
  | [] => .ok []
  | (key, value) :: rest =>
      if key = "children" then readList place value else readChildren place rest

/-- Reads a list of children; a falsy value counts as no children. -/
def readList (place : List Nat) : Value → Except TreeError (List Node)
  | .list items => readItems place 0 items
  | other => if other.isFalsy then .ok [] else .error (.node place .childrenNotList)

def readItems (place : List Nat) (index : Nat) : List Value → Except TreeError (List Node)
  | [] => .ok []
  | item :: rest => do
      let node ← read (place ++ [index]) item
      let nodes ← readItems place (index + 1) rest
      return node :: nodes

end

end Node

namespace Tree

/-- The path of a tree: the one given, else the document's own, else the unnamed one. A given path
is kept as it is; the document's is taken as messages display it. -/
def choosePath (given : Value) (members : Members) : Except TreeError Value :=
  if given.isFalsy then
    let own := Value.orElse (members.get? "path") (.text unnamed)
    if own.isWritable then .ok (.text own.display) else .error .unwritablePath
  else .ok given

def ofDocument (path : Value) : Value → Except TreeError Tree
  | .object members => do
      let path ← choosePath path members
      let root ← Node.read [] ((Members.get? members "root").getD (.object members))
      return ⟨root, path⟩
  | _ => .error .notMapping

end Tree

end TreeLint
