import TreeLint.Tree.Node

/-!
# Assembling nodes one by one

Nodes are built bottom up and kept in slots. A new node adopts its children from left to right; a
child that is adopted already, or that lies outside the new node, stops the construction. The slot
of a failed construction stays empty, and children adopted by it stay adopted, though they have no
parent.
-/

set_option autoImplicit false

namespace TreeLint

structure Cell where
  node : Node
  /-- The slots of the children, from left to right. -/
  children : List Nat
  /-- The slot of the node that adopted this one. -/
  owner : Option Nat

/-- The slots in the order of construction. A slot whose construction failed is empty. -/
structure Assembly where
  cells : List (Option Cell)

inductive AssemblyError where
  /-- A slot that holds no node. -/
  | empty (slot : Nat)
  | owned (child : String)
  | outside (child parent : String)
  | notRoot
  deriving DecidableEq, Repr

def AssemblyError.message : AssemblyError → String
  | empty slot => "no node in slot " ++ toString slot
  | owned child => child ++ " already belongs to another node"
  | outside child parent => child ++ " extends outside its parent " ++ parent
  | notRoot => "tree root must not have a parent"

namespace Assembly

def initial : Assembly := ⟨[]⟩

def cell? (assembly : Assembly) (slot : Nat) : Option Cell :=
  (assembly.cells[slot]?).join

/-- The slot of the node that a node belongs to. One adopted by a failed construction has none. -/
def parent? (assembly : Assembly) (slot : Nat) : Option Nat := do
  let cell ← assembly.cell? slot
  let owner ← cell.owner
  let _ ← assembly.cell? owner
  return owner

/-- Follows the links upwards until a node without a parent is met, if one is met in fewer than
`steps` steps. -/
def climb? (assembly : Assembly) : Nat → Nat → Option (List Nat)
  | 0, _ => none
  | steps + 1, slot =>
      match assembly.parent? slot with
      | none => some []
      | some owner => (assembly.climb? steps owner).map (owner :: ·)

/-- The slots of the nodes above a node, from its parent upwards. There is no answer if the links
run in a circle, as they do when more of them can be followed than there are slots. -/
def ancestors? (assembly : Assembly) (slot : Nat) : Option (List Nat) :=
  assembly.climb? (assembly.cells.length + 1) slot

def setOwner (assembly : Assembly) (slot owner : Nat) : Assembly :=
  ⟨assembly.cells.modify slot (Option.map fun cell => { cell with owner := some owner })⟩

/-- Adopts children from left to right into the node of a slot. The children in front of the one
at fault stay adopted. -/
def adopt (owner : Nat) (span : Span) (label : String) :
    List Nat → Assembly → Except AssemblyError Unit × Assembly
  | [], assembly => (.ok (), assembly)
  | slot :: rest, assembly =>
      match assembly.cell? slot with
      | none => (.error (.empty slot), assembly)
      | some cell =>
          if cell.owner.isSome then (.error (.owned cell.node.label), assembly)
          else if !span.contains cell.node.span then
            (.error (.outside cell.node.label label), assembly)
          else adopt owner span label rest (assembly.setOwner slot owner)

/-- Fills the next slot with a new node, or leaves it empty when the construction fails. -/
def construct (assembly : Assembly) (kind : Kind) (span : Span) (attributes : Members)
    (children : List Nat) : Except AssemblyError Nat × Assembly :=
  let slot := assembly.cells.length
  let nodes := children.filterMap fun child => (assembly.cell? child).map (·.node)
  let node : Node := ⟨kind, span, attributes, nodes⟩
  match adopt slot span node.label children assembly with
  | (.ok (), adopted) => (.ok slot, ⟨adopted.cells ++ [some ⟨node, children, none⟩]⟩)
  | (.error error, adopted) => (.error error, ⟨adopted.cells ++ [none]⟩)

def tree (assembly : Assembly) (slot : Nat) (path : Value) : Except AssemblyError Tree :=
  match assembly.cell? slot with
  | none => .error (.empty slot)
  | some cell =>
      if (assembly.parent? slot).isSome then .error .notRoot else .ok ⟨cell.node, path⟩

end Assembly

end TreeLint
