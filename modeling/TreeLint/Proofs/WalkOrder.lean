import Mathlib.Data.List.Chain
import Mathlib.Data.List.Nodup
import TreeLint.Proofs.DocumentTrees
import TreeLint.Tree.Cursor

/-!
# The order of the walk

The walk with a stack lists the nodes as recursion does: a node, and then the listings of its
children from left to right. It meets every place of the tree once, and a node behind all those
above it.
-/

set_option autoImplicit false

namespace TreeLint

/-! ## The listing by recursion -/

namespace Cursor

theorem mem_children_iff {cursor child : Cursor} :
    child ∈ cursor.children ↔
      ∃ index node, cursor.node.children[index]? = some node ∧
        child = ⟨index :: cursor.address, node, cursor.node :: cursor.above⟩ := by
  simp only [children, List.mem_iff_getElem?, List.getElem?_mapIdx, Option.map_eq_some_iff]
  grind

theorem node_mem_of_mem_children {cursor child : Cursor} (member : child ∈ cursor.children) :
    child.node ∈ cursor.node.children := by
  rw [← map_node_children]
  exact List.mem_map_of_mem member

theorem size_lt_of_mem_children {cursor child : Cursor} (member : child ∈ cursor.children) :
    child.node.size < cursor.node.size := by
  obtain ⟨front, back, split⟩ := List.append_of_mem (node_mem_of_mem_children member)
  rw [Node.size_eq cursor.node, split, Node.sizeAll_append, Node.sizeAll]
  omega

/-- The node, and then the listings of its children from left to right. -/
def preorder (cursor : Cursor) : List Cursor :=
  cursor :: cursor.children.attach.flatMap fun ⟨child, _⟩ => child.preorder
termination_by cursor.node.size
decreasing_by exact size_lt_of_mem_children ‹_›

theorem preorder_eq (cursor : Cursor) :
    cursor.preorder = cursor :: cursor.children.flatMap preorder := by
  rw [preorder]
  simp only [List.flatMap_subtype, List.unattach_attach]

theorem mem_preorder_self (cursor : Cursor) : cursor ∈ cursor.preorder := by
  rw [preorder_eq]
  exact List.mem_cons_self

theorem preorder_sublist_of_mem_children {cursor child : Cursor}
    (member : child ∈ cursor.children) :
    child.preorder.Sublist (cursor.children.flatMap preorder) := by
  rw [List.flatMap]
  exact List.sublist_flatten_of_mem (List.mem_map_of_mem member)

/-- What holds of a node, and passes from nodes below it to their children, holds of all below. -/
theorem preorder_induction {motive : Cursor → Prop} {cursor : Cursor} (top : motive cursor)
    (step : ∀ parent ∈ cursor.preorder, motive parent → ∀ child ∈ parent.children, motive child) :
    ∀ inner ∈ cursor.preorder, motive inner := by
  induction cursor using preorder.induct with
  | case1 cursor ih =>
      intro inner member
      rw [preorder_eq, List.mem_cons, List.mem_flatMap] at member
      rcases member with rfl | ⟨child, listed, member⟩
      · exact top
      · have begun := step cursor cursor.mem_preorder_self top child listed
        refine ih child listed begun ?_ inner member
        intro parent below
        refine step parent ?_
        rw [preorder_eq]
        exact List.mem_cons_of_mem _ ((preorder_sublist_of_mem_children listed).mem below)

theorem preorder_sublist_of_mem {cursor inner : Cursor} (member : inner ∈ cursor.preorder) :
    inner.preorder.Sublist cursor.preorder := by
  refine preorder_induction (motive := fun inner => inner.preorder.Sublist cursor.preorder)
    (.refl cursor.preorder) ?_ inner member
  intro parent _ within child listed
  refine .trans ?_ within
  rw [preorder_eq parent]
  exact (preorder_sublist_of_mem_children listed).cons parent

theorem mem_preorder_of_mem_children {cursor inner child : Cursor}
    (member : inner ∈ cursor.preorder) (listed : child ∈ inner.children) :
    child ∈ cursor.preorder := by
  refine (preorder_sublist_of_mem member).mem ?_
  rw [preorder_eq]
  exact List.mem_cons_of_mem inner
    ((preorder_sublist_of_mem_children listed).mem (mem_preorder_self child))

/-! ## Places -/

/-- The address of a listed node leads to it, read from its end. -/
theorem at?_of_mem_preorder {cursor inner : Cursor} (member : inner ∈ cursor.preorder) :
    ∃ place, inner.address = place.reverse ++ cursor.address ∧
      cursor.node.at? place = some inner.node := by
  induction cursor using preorder.induct with
  | case1 cursor ih =>
      rw [preorder_eq, List.mem_cons, List.mem_flatMap] at member
      rcases member with rfl | ⟨child, listed, member⟩
      · exact ⟨[], rfl, rfl⟩
      · obtain ⟨place, leads, found⟩ := ih child listed member
        obtain ⟨index, node, present, rfl⟩ := mem_children_iff.mp listed
        refine ⟨index :: place, by simpa using leads, ?_⟩
        rw [Node.at?, present]
        exact found

theorem mem_preorder_of_at? (cursor : Cursor) {place : List Nat} {node : Node}
    (found : cursor.node.at? place = some node) :
    ∃ inner ∈ cursor.preorder, inner.address = place.reverse ++ cursor.address ∧
      inner.node = node := by
  induction place generalizing cursor with
  | nil =>
      cases found
      exact ⟨cursor, mem_preorder_self cursor, rfl, rfl⟩
  | cons index place ih =>
      obtain ⟨own, present, found⟩ := Option.bind_eq_some_iff.mp found
      have listed := mem_children_iff.mpr ⟨index, own, present, rfl⟩
      obtain ⟨inner, member, leads, rfl⟩ := ih ⟨_, own, _⟩ found
      refine ⟨inner, ?_, by simpa using leads, rfl⟩
      rw [preorder_eq]
      exact List.mem_cons_of_mem cursor ((preorder_sublist_of_mem_children listed).mem member)

theorem pairwise_children (cursor : Cursor) :
    cursor.children.Pairwise fun left right =>
      ∀ first ∈ left.preorder, ∀ second ∈ right.preorder, first.address ≠ second.address := by
  rw [List.pairwise_iff_getElem]
  intro i j lower upper before first firstMember second secondMember same
  obtain ⟨_, firstLeads, _⟩ := at?_of_mem_preorder firstMember
  obtain ⟨_, secondLeads, _⟩ := at?_of_mem_preorder secondMember
  rw [firstLeads, secondLeads] at same
  -- Both addresses end in that of a child, and these have one length.
  have ends := List.append_inj_right' same (by simp [children])
  simp [children] at ends
  omega

/-- No place is listed twice. -/
theorem nodup_address_preorder (cursor : Cursor) : (cursor.preorder.map (·.address)).Nodup := by
  induction cursor using preorder.induct with
  | case1 cursor ih =>
      rw [preorder_eq, List.map_cons, List.nodup_cons]
      constructor
      · simp only [List.mem_map, List.mem_flatMap, not_exists, not_and]
        rintro inner ⟨child, listed, member⟩ same
        obtain ⟨place, leads, _⟩ := at?_of_mem_preorder member
        obtain ⟨index, node, _, rfl⟩ := mem_children_iff.mp listed
        have lengths := congrArg List.length (leads.symm.trans same)
        simp at lengths
        omega
      · rw [List.Nodup, List.pairwise_map, List.pairwise_flatMap]
        exact ⟨fun child listed => List.pairwise_map.mp (ih child listed), pairwise_children cursor⟩

/-! ## Ancestors -/

theorem ancestors_of_mem_children {cursor child : Cursor} (member : child ∈ cursor.children) :
    child.ancestors = cursor :: cursor.ancestors := by
  obtain ⟨index, node, _, rfl⟩ := mem_children_iff.mp member
  rfl

theorem enclosing?_eq_some_iff {cursor ancestor : Cursor} {kind : Kind} :
    cursor.enclosing? kind = some ancestor ↔
      ancestor.node.kind = kind ∧ ∃ nearer further,
        cursor.ancestors = nearer ++ ancestor :: further ∧
        ∀ other ∈ nearer, other.node.kind ≠ kind := by
  rw [enclosing?, List.find?_eq_some_iff_append]
  simp

theorem enclosing?_eq_none_iff {cursor : Cursor} {kind : Kind} :
    cursor.enclosing? kind = none ↔ ∀ ancestor ∈ cursor.ancestors, ancestor.node.kind ≠ kind := by
  simp [enclosing?]

end Cursor

/-! ## The walk -/

namespace Tree

/-- What is on the stack is listed one after the other. -/
theorem walkFrom_eq (stack : List Cursor) : walkFrom stack = stack.flatMap Cursor.preorder := by
  induction stack using walkFrom.induct with
  | case1 => rw [walkFrom, List.flatMap_nil]
  | case2 cursor stack ih =>
      rw [walkFrom, ih, List.flatMap_append, List.flatMap_cons, cursor.preorder_eq,
        List.cons_append]

theorem walk_eq_preorder (tree : Tree) : tree.walk = tree.cursor.preorder := by
  rw [walk, walkFrom_eq, List.flatMap_singleton]

theorem length_walkFrom (stack : List Cursor) :
    (walkFrom stack).length = Node.sizeAll (stack.map (·.node)) := by
  induction stack using walkFrom.induct with
  | case1 =>
      rw [walkFrom]
      rfl
  | case2 cursor stack ih =>
      rw [walkFrom, List.length_cons, ih, List.map_append, Cursor.map_node_children,
        Node.sizeAll_append, List.map_cons, Node.sizeAll, Node.size_eq cursor.node]
      omega

section Above

variable {tree : Tree} {cursor : Cursor}

/-- What holds of the root, and passes to children, holds throughout the walk. -/
theorem walk_induction {motive : Cursor → Prop} (top : motive tree.cursor)
    (step : ∀ parent ∈ tree.walk, motive parent → ∀ child ∈ parent.children, motive child) :
    ∀ cursor ∈ tree.walk, motive cursor := by
  rw [walk_eq_preorder] at step ⊢
  exact Cursor.preorder_induction top step

theorem at?_eq_some_iff {place : List Nat} {node : Node} :
    tree.root.at? place = some node ↔
      ∃ cursor ∈ tree.walk, cursor.address = place.reverse ∧ cursor.node = node := by
  rw [walk_eq_preorder]
  constructor
  · intro found
    obtain ⟨inner, member, leads, same⟩ := Cursor.mem_preorder_of_at? tree.cursor found
    exact ⟨inner, member, by simpa [Tree.cursor] using leads, same⟩
  · rintro ⟨inner, member, leads, rfl⟩
    obtain ⟨own, address, found⟩ := Cursor.at?_of_mem_preorder member
    have same : own = place := by simpa [address, Tree.cursor] using leads
    rwa [same] at found

theorem isChain_ancestors (member : cursor ∈ tree.walk) :
    List.IsChain (fun below above => below ∈ above.children) (cursor :: cursor.ancestors) ∧
      (cursor :: cursor.ancestors).getLast? = some tree.cursor := by
  refine walk_induction (motive := fun cursor =>
    List.IsChain (fun below above => below ∈ above.children) (cursor :: cursor.ancestors) ∧
      (cursor :: cursor.ancestors).getLast? = some tree.cursor) ⟨.singleton _, rfl⟩ ?_ cursor member
  rintro parent _ ⟨chain, last⟩ child listed
  rw [Cursor.ancestors_of_mem_children listed]
  exact ⟨.cons_cons listed chain, by rw [List.getLast?_cons_cons, last]⟩

/-- A node is listed below each of its ancestors. -/
theorem mem_flatMap_of_mem_ancestors (member : cursor ∈ tree.walk) :
    ∀ ancestor ∈ cursor.ancestors, ancestor ∈ tree.walk ∧
      cursor ∈ ancestor.children.flatMap Cursor.preorder := by
  refine walk_induction (motive := fun cursor => ∀ ancestor ∈ cursor.ancestors,
    ancestor ∈ tree.walk ∧ cursor ∈ ancestor.children.flatMap Cursor.preorder)
    nofun ?_ cursor member
  intro parent met below child listed ancestor above
  rw [Cursor.ancestors_of_mem_children listed] at above
  rcases List.mem_cons.mp above with rfl | further
  · exact ⟨met, List.mem_flatMap.mpr ⟨child, listed, child.mem_preorder_self⟩⟩
  · obtain ⟨ancestorMet, lies⟩ := below ancestor further
    obtain ⟨branch, grows, lies⟩ := List.mem_flatMap.mp lies
    have deeper := Cursor.mem_preorder_of_mem_children lies listed
    exact ⟨ancestorMet, List.mem_flatMap.mpr ⟨branch, grows, deeper⟩⟩

theorem ancestor_sublist_walk (member : cursor ∈ tree.walk) {ancestor : Cursor}
    (above : ancestor ∈ cursor.ancestors) : [ancestor, cursor].Sublist tree.walk := by
  obtain ⟨met, below⟩ := mem_flatMap_of_mem_ancestors member ancestor above
  rw [walk_eq_preorder] at met ⊢
  refine .trans ?_ (Cursor.preorder_sublist_of_mem met)
  rw [Cursor.preorder_eq]
  exact (List.singleton_sublist.mpr below).cons_cons ancestor

end Above

end Tree

/-! ## Spans -/

/-- Every child of the node lies within it, and so on downwards. -/
inductive Node.Nested : Node → Prop where
  | intro {node : Node} :
      (∀ child ∈ node.children, node.span.contains child.span = true) →
      (∀ child ∈ node.children, Nested child) → Nested node

theorem Node.nested_of_read {place : List Nat} {entry : Value} {node : Node}
    (read : Node.read place entry = .ok node) : node.Nested := by
  induction entry using Entry.induction generalizing place node with
  | step entry ih =>
      obtain ⟨_, items, encloses⟩ := read_eq_ok read
      refine .intro encloses fun child member => ?_
      obtain ⟨item, listed, _, own⟩ := mem_of_readItems items member
      exact ih item listed own

namespace Tree

theorem nested_of_ofDocument {path document : Value} {tree : Tree}
    (read : ofDocument path document = .ok tree) : tree.root.Nested := by
  cases document with
  | object members =>
      obtain ⟨_, _, read⟩ := bind_eq_ok_iff.mp read
      obtain ⟨root, own, same⟩ := bind_eq_ok_iff.mp read
      cases same
      exact Node.nested_of_read own
  | _ => cases read

variable {tree : Tree} {cursor : Cursor}

/-- In a nested tree, every node lies within those above it. -/
theorem contains_of_mem_ancestors (nested : tree.root.Nested) (member : cursor ∈ tree.walk) :
    ∀ ancestor ∈ cursor.ancestors, ancestor.node.span.contains cursor.node.span = true := by
  have both := walk_induction (motive := fun cursor => cursor.node.Nested ∧
    ∀ ancestor ∈ cursor.ancestors, ancestor.node.span.contains cursor.node.span = true)
    ⟨nested, nofun⟩ ?_ cursor member
  · exact both.2
  rintro parent _ ⟨⟨inside, below⟩, around⟩ child listed
  have own := Cursor.node_mem_of_mem_children listed
  refine ⟨below child.node own, fun ancestor above => ?_⟩
  rw [Cursor.ancestors_of_mem_children listed] at above
  rcases List.mem_cons.mp above with rfl | further
  · exact inside child.node own
  · exact Span.contains_trans (around ancestor further) (inside child.node own)

theorem span_contains_of_mem_walk (nested : tree.root.Nested) (member : cursor ∈ tree.walk) :
    tree.span.contains cursor.node.span = true := by
  have last := List.mem_of_getLast? (isChain_ancestors member).2
  rcases List.mem_cons.mp last with rfl | above
  · exact Span.contains_iff.mpr ⟨Int.le_refl _, Int.le_refl _⟩
  · exact contains_of_mem_ancestors nested member tree.cursor above

/-- What the walk of a tree lists and in which order, and what lies above a node of it. -/
structure Walked (tree : Tree) : Prop where
  walk_eq : tree.walk = tree.cursor.preorder
  once : (tree.walk.map (·.address)).Nodup
  /-- The nodes listed are those of the tree, each at its place. -/
  places : ∀ place node, tree.root.at? place = some node ↔
    ∃ cursor ∈ tree.walk, cursor.address = place.reverse ∧ cursor.node = node
  size_eq : tree.size = tree.root.size
  ofKind : ∀ kind, tree.nodesOfKind kind =
    tree.cursor.preorder.filter fun cursor => cursor.node.kind = kind
  /-- The ancestors follow each other from the parent up to the root. -/
  upwards : ∀ cursor ∈ tree.walk,
    List.IsChain (fun below above => below ∈ above.children) (cursor :: cursor.ancestors) ∧
      (cursor :: cursor.ancestors).getLast? = some tree.cursor
  before : ∀ cursor ∈ tree.walk, ∀ ancestor ∈ cursor.ancestors,
    [ancestor, cursor].Sublist tree.walk
  around : ∀ cursor ∈ tree.walk, ∀ ancestor ∈ cursor.ancestors,
    ancestor.node.span.contains cursor.node.span = true
  within : ∀ cursor ∈ tree.walk, tree.span.contains cursor.node.span = true
  /-- The enclosing node of a kind is the first ancestor of that kind, if there is one. -/
  enclosing : ∀ cursor ∈ tree.walk, ∀ kind,
    (∀ ancestor, cursor.enclosing? kind = some ancestor ↔
      ancestor.node.kind = kind ∧ ∃ nearer further,
        cursor.ancestors = nearer ++ ancestor :: further ∧
        ∀ other ∈ nearer, other.node.kind ≠ kind) ∧
    (cursor.enclosing? kind = none ↔ ∀ ancestor ∈ cursor.ancestors, ancestor.node.kind ≠ kind)

/-- The walk of a tree that was read is the listing by recursion. Every node is met once and behind
its ancestors, which lie around it. -/
theorem ofDocument_walked {path document : Value} {tree : Tree}
    (read : ofDocument path document = .ok tree) : tree.Walked := by
  have nested := nested_of_ofDocument read
  refine {
    walk_eq := tree.walk_eq_preorder, once := ?once, places := fun _ _ => at?_eq_some_iff,
    size_eq := ?size_eq, ofKind := ?ofKind, upwards := fun _ => isChain_ancestors,
    before := fun _ member _ above => ancestor_sublist_walk member above,
    around := fun _ => contains_of_mem_ancestors nested,
    within := fun _ => span_contains_of_mem_walk nested,
    enclosing := fun _ _ _ =>
      ⟨fun _ => Cursor.enclosing?_eq_some_iff, Cursor.enclosing?_eq_none_iff⟩ }
  case once =>
      rw [walk_eq_preorder]
      exact tree.cursor.nodup_address_preorder
  case size_eq =>
      rw [size, walk, length_walkFrom]
      simp [Node.sizeAll, cursor]
  case ofKind =>
      intro kind
      rw [nodesOfKind, walk_eq_preorder]
      rfl

/-- A file with a comment behind a block of two nodes. -/
def blockAndComment : Members :=
  [("root", Entry.upTo "File" 9
    [Entry.upTo "Block" 5 [Entry.upTo "Call" 2 [], Entry.upTo "Literal" 4 []],
      Entry.upTo "Comment" 7 []])]

theorem ofDocument_walked_blockAndComment :
    ∃ tree, ofDocument .null (.object blockAndComment) = .ok tree ∧ tree.Walked := by
  obtain ⟨tree, read⟩ : ∃ tree, ofDocument .null (.object blockAndComment) = .ok tree := ⟨_, rfl⟩
  exact ⟨tree, read, ofDocument_walked read⟩

end Tree

end TreeLint
