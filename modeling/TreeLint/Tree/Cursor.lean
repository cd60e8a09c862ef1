import TreeLint.Tree.Node

/-!
# Cursors and the walk of a tree

A cursor is a node together with its place in a tree: the nodes above it and the positions of the
path among their children. Two cursors of one tree are the same node exactly when their addresses
agree, even if the nodes look alike.
-/

set_option autoImplicit false

namespace TreeLint

structure Cursor where
  /-- The positions among siblings on the path from the node up to the root. -/
  address : List Nat
  node : Node
  /-- The nodes above, from the parent up to the root. -/
  above : List Node

namespace Cursor

def children (cursor : Cursor) : List Cursor :=
  cursor.node.children.mapIdx fun index child =>
    ⟨index :: cursor.address, child, cursor.node :: cursor.above⟩

/-- The nodes above, from the parent up to the root. -/
def ancestors (cursor : Cursor) : List Cursor :=
  climb cursor.address cursor.above
where
  climb : List Nat → List Node → List Cursor
    | _ :: address, node :: above => ⟨address, node, above⟩ :: climb address above
    | _, _ => []

def parent? (cursor : Cursor) : Option Cursor :=
  cursor.ancestors.head?

/-- The nearest node above that has the given kind. -/
def enclosing? (cursor : Cursor) (kind : Kind) : Option Cursor :=
  cursor.ancestors.find? fun ancestor => ancestor.node.kind == kind

def isRoot (cursor : Cursor) : Bool :=
  cursor.address.isEmpty

theorem map_node_children (cursor : Cursor) :
    cursor.children.map (·.node) = cursor.node.children := by
  rw [children]
  apply List.ext_getElem <;> simp

end Cursor

namespace Tree

def cursor (tree : Tree) : Cursor :=
  ⟨[], tree.root, []⟩

/-- Visits the nodes on a stack and everything below them, each node before its children. -/
def walkFrom : List Cursor → List Cursor
  | [] => []
  | cursor :: stack => cursor :: walkFrom (cursor.children ++ stack)
termination_by stack => Node.sizeAll (stack.map (·.node))
decreasing_by
  rw [List.map_append, Cursor.map_node_children, Node.sizeAll_append, List.map_cons, Node.sizeAll,
    Node.size_eq cursor.node]
  omega

/-- The nodes of the tree, each before its children, siblings from left to right. -/
def walk (tree : Tree) : List Cursor :=
  walkFrom [tree.cursor]

def size (tree : Tree) : Nat :=
  tree.walk.length

def nodesOfKind (tree : Tree) (kind : Kind) : List Cursor :=
  tree.walk.filter fun cursor => cursor.node.kind == kind

end Tree

end TreeLint
