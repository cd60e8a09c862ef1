import TreeLint.Source.Span
import TreeLint.Tree.Kind

/-!
# Nodes and trees

A node owns its children. A tree is a root and the path of the file that it was parsed from. The
path is a document value: it is a text in all but careless documents, and it is kept as it is.
-/

set_option autoImplicit false

namespace TreeLint

structure Node where
  kind : Kind
  span : Span
  attributes : Members
  children : List Node

namespace Node

def attribute? (node : Node) (name : String) : Option Value :=
  node.attributes.get? name

/-- The attribute `name`, empty unless it is a text. -/
def name (node : Node) : String :=
  match node.attribute? "name" with
  | some (.text name) => name
  | _ => ""

def labelOf (kind : Kind) (name : String) (span : Span) : String :=
  "<" ++ kind.name ++ (if name.isEmpty then "" else " " ++ name) ++ " @" ++ span.label ++ ">"

def label (node : Node) : String :=
  labelOf node.kind node.name node.span

mutual

def size : Node → Nat
  | ⟨_, _, _, children⟩ => 1 + sizeAll children

def sizeAll : List Node → Nat
  | [] => 0
  | node :: rest => node.size + sizeAll rest

end

theorem size_eq (node : Node) : node.size = 1 + sizeAll node.children := by
  cases node
  rw [size]

theorem sizeAll_append (first second : List Node) :
    sizeAll (first ++ second) = sizeAll first + sizeAll second := by
  induction first with
  | nil => simp [sizeAll]
  | cons node rest ih => simp only [List.cons_append, sizeAll, ih, Nat.add_assoc]

end Node

structure Tree where
  root : Node
  path : Value

namespace Tree

/-- The path that stands for an unnamed source. -/
def unnamed : String := "<memory>"

def span (tree : Tree) : Span :=
  tree.root.span

def pathText (tree : Tree) : String :=
  tree.path.display

end Tree

end TreeLint
