import TreeLint.Proofs.WaiverProperties
import TreeLint.Proofs.WalkOrder

/-!
# What directives cover

A directive covers a declaration and nothing else: the nearest one above its comment or, where there
is none, the first among the comment's siblings that starts behind it. Each comment with a directive
gives one waiver for that declaration, or one note that there is nothing to cover. A finding outside
all these declarations is left to the exclusions.
-/

set_option autoImplicit false

namespace TreeLint

/-! ## Anchors -/

namespace Cursor

/-- The children of the parent, the node itself among them. -/
def siblings (cursor : Cursor) : List Cursor :=
  match cursor.parent? with
  | some parent => parent.children
  | none => []

/-- The declaration lies above the comment, and below all others that do. -/
structure NearestAbove (declaration comment : Cursor) : Prop where
  above : declaration ∈ comment.ancestors
  isDeclaration : declaration.node.kind = .declaration
  nearest : ∀ other ∈ comment.ancestors, other.node.kind = .declaration →
    other = declaration ∨ other ∈ declaration.ancestors

/-- The declaration is a sibling that starts where the comment ends, or further on. -/
structure StartsBehind (declaration comment : Cursor) : Prop where
  beside : declaration ∈ comment.siblings
  isDeclaration : declaration.node.kind = .declaration
  behind : comment.node.span.stop.offset ≤ declaration.node.span.start.offset

/-- With no declaration above the comment, the first of the siblings that may be covered. -/
structure FirstBehind (declaration comment : Cursor) : Prop where
  outside : ∀ ancestor ∈ comment.ancestors, ancestor.node.kind ≠ .declaration
  startsBehind : declaration.StartsBehind comment
  first : ∀ other, other.StartsBehind comment →
    other = declaration ∨ [declaration, other].Sublist comment.siblings

def Anchors (declaration comment : Cursor) : Prop :=
  declaration.NearestAbove comment ∨ declaration.FirstBehind comment

/-- There is a declaration above the comment or one beside it that starts behind it. -/
def HasAnchor (comment : Cursor) : Prop :=
  (∃ ancestor ∈ comment.ancestors, ancestor.node.kind = .declaration) ∨
    ∃ sibling ∈ comment.siblings, sibling.node.kind = .declaration ∧
      comment.node.span.stop.offset ≤ sibling.node.span.start.offset

instance : DecidablePred HasAnchor := fun _ => inferInstanceAs (Decidable (_ ∨ _))

/-- The node is a comment whose text is a text and holds a directive for the given rules. -/
def Carries (comment : Cursor) (ruleIds : List String) : Prop :=
  comment.node.kind = .comment ∧ ∃ text, comment.node.attribute? "text" = some (.text text) ∧
    Directive.parse? text = some ruleIds

theorem carries_iff {comment : Cursor} {ruleIds : List String} :
    comment.Carries ruleIds ↔
      comment.node.kind = .comment ∧ WaiverSheet.directive? comment = some ruleIds := by
  unfold Carries WaiverSheet.directive?
  refine and_congr_right fun _ => ?_
  cases comment.node.attribute? "text" with
  | none => simp
  | some value => cases value <;> simp

/-- The node is a comment with a directive. -/
def Directs (comment : Cursor) : Prop :=
  ∃ ruleIds, comment.Carries ruleIds

theorem directs_iff {comment : Cursor} :
    comment.Directs ↔
      comment.node.kind = .comment ∧ (WaiverSheet.directive? comment).isSome = true := by
  simp only [Directs, carries_iff, exists_and_left, Option.isSome_iff_exists]

instance : DecidablePred Directs := fun _ => decidable_of_iff' _ directs_iff

/-! ## The search for an anchor -/

section Search

variable {comment declaration : Cursor}

/-- Behind an ancestor, the ancestors are its own. -/
theorem ancestors_eq_of_split {cursor ancestor : Cursor} {nearer further : List Cursor}
    (split : cursor.ancestors = nearer ++ ancestor :: further) : ancestor.ancestors = further := by
  obtain ⟨address, node, above⟩ := cursor
  rw [ancestors] at split
  induction above generalizing address nearer with
  | nil => cases address <;> simp [ancestors.climb] at split
  | cons parent above ih =>
      cases address with
      | nil => simp [ancestors.climb] at split
      | cons index address =>
          cases nearer with
          | nil =>
              cases split
              rfl
          | cons first nearer => exact ih address (List.cons.inj split).2

theorem nearestAbove_of_enclosing? (found : comment.enclosing? .declaration = some declaration) :
    declaration.NearestAbove comment := by
  obtain ⟨isDeclaration, nearer, further, split, others⟩ := enclosing?_eq_some_iff.mp found
  refine ⟨by simp [split], isDeclaration, ?_⟩
  intro other above kind
  rw [ancestors_eq_of_split split]
  rw [split] at above
  rcases List.mem_append.mp above with near | rest
  · exact absurd kind (others other near)
  · exact List.mem_cons.mp rest

def mayCover (comment sibling : Cursor) : Bool :=
  sibling.node.kind == .declaration &&
    comment.node.span.stop.offset ≤ sibling.node.span.start.offset

theorem startsBehind_iff :
    declaration.StartsBehind comment ↔
      declaration ∈ comment.siblings ∧ mayCover comment declaration = true := by
  simp only [mayCover, Bool.and_eq_true, beq_iff_eq, decide_eq_true_eq]
  constructor
  · rintro ⟨beside, isDeclaration, behind⟩
    exact ⟨beside, isDeclaration, behind⟩
  · rintro ⟨beside, isDeclaration, behind⟩
    exact ⟨beside, isDeclaration, behind⟩

theorem firstBehind_of_find? (outside : comment.enclosing? .declaration = none)
    (found : comment.siblings.find? (mayCover comment) = some declaration) :
    declaration.FirstBehind comment := by
  obtain ⟨covers, front, back, split, passed⟩ := List.find?_eq_some_iff_append.mp found
  have beside : declaration ∈ comment.siblings := by simp [split]
  refine ⟨enclosing?_eq_none_iff.mp outside, startsBehind_iff.mpr ⟨beside, covers⟩, ?_⟩
  intro other startsBehind
  obtain ⟨listed, mayCover⟩ := startsBehind_iff.mp startsBehind
  rw [split] at listed
  rcases List.mem_append.mp listed with early | rest
  · simpa [mayCover] using passed other early
  · rcases List.mem_cons.mp rest with same | later
    · exact .inl same
    · rw [split]
      exact .inr ((List.singleton_sublist.mpr later).cons_cons declaration |>.trans
        (List.sublist_append_right front _))

theorem anchor?_eq (comment : Cursor) :
    WaiverSheet.anchor? comment =
      match comment.enclosing? .declaration with
      | some declaration => some declaration.node
      | none => (comment.siblings.find? (mayCover comment)).map (·.node) := by
  unfold WaiverSheet.anchor? siblings
  cases comment.enclosing? .declaration with
  | some declaration => rfl
  | none =>
      cases comment.parent? with
      | none => rfl
      | some parent =>
          simp only [Option.bind_some, ← map_node_children, List.find?_map]
          rfl

theorem anchors_of_anchor? {node : Node} (found : WaiverSheet.anchor? comment = some node) :
    ∃ declaration : Cursor, declaration.Anchors comment ∧ declaration.node = node := by
  rw [anchor?_eq] at found
  cases enclosing : comment.enclosing? .declaration with
  | some declaration =>
      rw [enclosing] at found
      cases found
      exact ⟨declaration, .inl (nearestAbove_of_enclosing? enclosing), rfl⟩
  | none =>
      rw [enclosing] at found
      obtain ⟨declaration, first, rfl⟩ := Option.map_eq_some_iff.mp found
      exact ⟨declaration, .inr (firstBehind_of_find? enclosing first), rfl⟩

theorem isSome_anchor?_iff : (WaiverSheet.anchor? comment).isSome = true ↔ comment.HasAnchor := by
  rw [anchor?_eq, HasAnchor]
  cases enclosing : comment.enclosing? .declaration with
  | some declaration =>
      have nearest := nearestAbove_of_enclosing? enclosing
      exact iff_of_true rfl (.inl ⟨declaration, nearest.above, nearest.isDeclaration⟩)
  | none =>
      have outside := enclosing?_eq_none_iff.mp enclosing
      rw [or_iff_right (by simpa using outside)]
      simp [mayCover]

end Search

end Cursor

/-! ## Spans of anchors -/

section Spans

variable {tree : Tree} {comment declaration : Cursor}

namespace Cursor

theorem mem_walk_of_mem_siblings (member : comment ∈ tree.walk) {sibling : Cursor}
    (beside : sibling ∈ comment.siblings) : sibling ∈ tree.walk := by
  unfold siblings at beside
  split at beside
  next parent up =>
    have above : parent ∈ comment.ancestors := List.mem_of_head? up
    have met := (Tree.mem_flatMap_of_mem_ancestors member parent above).1
    rw [Tree.walk_eq_preorder] at met ⊢
    exact mem_preorder_of_mem_children met beside
  next => cases beside

theorem Anchors.mem_walk (anchors : declaration.Anchors comment) (member : comment ∈ tree.walk) :
    declaration ∈ tree.walk := by
  rcases anchors with nearest | first
  · exact (Tree.mem_flatMap_of_mem_ancestors member declaration nearest.above).1
  · exact mem_walk_of_mem_siblings member first.startsBehind.beside

/-- The nearest declaration is the smallest around the comment. -/
theorem NearestAbove.spans (nearest : declaration.NearestAbove comment)
    (nested : tree.root.Nested) (member : comment ∈ tree.walk) :
    declaration.node.span.contains comment.node.span = true ∧
      ∀ other ∈ comment.ancestors, other.node.kind = .declaration →
        other.node.span.contains declaration.node.span = true := by
  have met := (Tree.mem_flatMap_of_mem_ancestors member declaration nearest.above).1
  refine ⟨Tree.contains_of_mem_ancestors nested member declaration nearest.above, ?_⟩
  intro other above isDeclaration
  rcases nearest.nearest other above isDeclaration with rfl | further
  · exact Span.contains_iff.mpr ⟨Int.le_refl _, Int.le_refl _⟩
  · exact Tree.contains_of_mem_ancestors nested met other further

/-- Among siblings in order, the first declaration behind a comment starts earliest. -/
theorem FirstBehind.start_le (first : declaration.FirstBehind comment)
    (ordered : comment.siblings.Pairwise fun left right =>
      left.node.span.start.offset ≤ right.node.span.start.offset)
    {other : Cursor} (startsBehind : other.StartsBehind comment) :
    declaration.node.span.start.offset ≤ other.node.span.start.offset := by
  rcases first.first other startsBehind with rfl | later
  · exact Int.le_refl _
  · exact List.rel_of_pairwise_cons (ordered.sublist later) List.mem_cons_self

end Cursor

end Spans

/-! ## The waivers of a tree -/

namespace WaiverSheet

/-- The waiver is for the rules that the comment names, within a declaration that anchors it. -/
def Obeys (tree : Tree) (comment : Cursor) (waiver : InlineWaiver) : Prop :=
  ∃ ruleIds declaration, comment.Carries ruleIds ∧ declaration ∈ tree.walk ∧
    declaration.Anchors comment ∧
    waiver = ⟨declaration.node.span, ruleIds, some comment.node.span⟩

section Collecting

variable {tree : Tree} {comments : List Cursor}
  (met : ∀ comment ∈ comments, comment ∈ tree.walk ∧ comment.node.kind = .comment)

include met

/-- The comments with a directive give their waivers and notes one after the other. -/
theorem collect_obeys :
    List.Forall₂ (Obeys tree)
        (comments.filter fun comment => comment.Directs ∧ comment.HasAnchor)
        (collect tree comments).1 ∧
      (collect tree comments).2 =
        (comments.filter fun comment => comment.Directs ∧ ¬ comment.HasAnchor).map
          (unanchoredNote tree) := by
  induction comments with
  | nil => exact ⟨.nil, rfl⟩
  | cons comment rest ih =>
      obtain ⟨⟨member, kind⟩, later⟩ := List.forall_mem_cons.mp met
      have collected := ih later
      cases carried : directive? comment with
      | none =>
          have silent : ¬ comment.Directs := by simp [Cursor.directs_iff, carried]
          simpa [collect, carried, silent] using collected
      | some ruleIds =>
          have carries : comment.Carries ruleIds := Cursor.carries_iff.mpr ⟨kind, carried⟩
          have directs : comment.Directs := ⟨ruleIds, carries⟩
          cases found : anchor? comment with
          | none =>
              have bare : ¬ comment.HasAnchor := by simp [← Cursor.isSome_anchor?_iff, found]
              simpa [collect, carried, found, directs, bare] using collected
          | some node =>
              have anchored : comment.HasAnchor := by simp [← Cursor.isSome_anchor?_iff, found]
              obtain ⟨declaration, anchors, rfl⟩ := Cursor.anchors_of_anchor? found
              have obeys : Obeys tree comment ⟨declaration.node.span, ruleIds,
                  some comment.node.span⟩ :=
                ⟨ruleIds, declaration, carries, anchors.mem_walk member, anchors, rfl⟩
              simpa [collect, carried, found, directs, anchored, obeys] using collected

end Collecting

/-- Only comments direct anything, so the walk may be searched for them as a whole. -/
theorem inlineWaivers_obeys (tree : Tree) :
    List.Forall₂ (Obeys tree)
        (tree.walk.filter fun comment => comment.Directs ∧ comment.HasAnchor)
        (inlineWaivers tree).1 ∧
      (inlineWaivers tree).2 =
        (tree.walk.filter fun comment => comment.Directs ∧ ¬ comment.HasAnchor).map
          (unanchoredNote tree) := by
  have isComment {comment : Cursor} (directs : comment.Directs) :
      comment.node.kind = .comment := (Cursor.directs_iff.mp directs).1
  have searched (further : Cursor → Prop) [DecidablePred further] :
      (tree.nodesOfKind .comment).filter (fun comment => comment.Directs ∧ further comment) =
        tree.walk.filter fun comment => comment.Directs ∧ further comment := by
    rw [Tree.nodesOfKind, List.filter_filter]
    refine List.filter_congr fun comment _ => ?_
    by_cases directs : comment.Directs
    · simp [directs, isComment directs]
    · simp [directs]
  have met : ∀ comment ∈ tree.nodesOfKind .comment,
      comment ∈ tree.walk ∧ comment.node.kind = .comment := by
    intro comment member
    simpa [Tree.nodesOfKind] using member
  have collected := collect_obeys met
  rw [searched Cursor.HasAnchor, searched fun comment => ¬ comment.HasAnchor] at collected
  exact collected

/-- A finding outside the anchors is left to the exclusions. -/
theorem covers_of_outside {tree : Tree} {finding : Finding}
    (outside : ∀ comment ∈ tree.walk, comment.Directs → ∀ declaration ∈ tree.walk,
      declaration.Anchors comment → declaration.node.span.encloses finding.span = false)
    (policy : Policy) :
    (ofTree tree policy).1.covers finding =
      Waiver.anyCovers finding tree.path (policy.allExclusions.map .exclusion) := by
  have uncovered : ∀ waiver ∈ (ofTree tree policy).1.inline, waiver.covers finding = false := by
    intro waiver (member : waiver ∈ (inlineWaivers tree).1)
    obtain ⟨comment, listed, ruleIds, declaration, carries, met, anchors, rfl⟩ :=
      exists_of_forall₂ (inlineWaivers_obeys tree).1 member
    have walked := (List.mem_filter.mp listed).1
    have apart := outside comment walked ⟨ruleIds, carries⟩ declaration met anchors
    simp [InlineWaiver.covers, apart]
  rw [covers, waivers, Waiver.anyCovers_inline_append, if_neg]
  · rfl
  · simpa using uncovered

end WaiverSheet

namespace Tree

/-- What the directives in the comments of a tree come to. -/
structure Directed (tree : Tree) : Prop where
  waivers : List.Forall₂ (WaiverSheet.Obeys tree)
    (tree.walk.filter fun comment => comment.Directs ∧ comment.HasAnchor)
    (WaiverSheet.inlineWaivers tree).1
  notes : (WaiverSheet.inlineWaivers tree).2 =
    (tree.walk.filter fun comment => comment.Directs ∧ ¬ comment.HasAnchor).map
      (WaiverSheet.unanchoredNote tree)
  anchor : ∀ comment ∈ tree.walk,
    (∀ node, WaiverSheet.anchor? comment = some node →
      ∃ declaration ∈ tree.walk, declaration.Anchors comment ∧ declaration.node = node) ∧
    (WaiverSheet.anchor? comment = none ↔ ¬ comment.HasAnchor)
  smallest : ∀ comment ∈ tree.walk, ∀ declaration : Cursor, declaration.NearestAbove comment →
    declaration.node.span.contains comment.node.span = true ∧
      ∀ other ∈ comment.ancestors, other.node.kind = .declaration →
        other.node.span.contains declaration.node.span = true
  earliest : ∀ comment ∈ tree.walk, ∀ declaration : Cursor, declaration.FirstBehind comment →
    (comment.siblings.Pairwise fun left right =>
      left.node.span.start.offset ≤ right.node.span.start.offset) →
    ∀ other : Cursor, other.StartsBehind comment →
      declaration.node.span.start.offset ≤ other.node.span.start.offset
  /-- Outside all anchors the exclusions decide alone. -/
  outside : ∀ finding : Finding,
    (∀ comment ∈ tree.walk, comment.Directs → ∀ declaration ∈ tree.walk,
      declaration.Anchors comment → declaration.node.span.encloses finding.span = false) →
    ∀ policy, (WaiverSheet.ofTree tree policy).1.covers finding =
      Waiver.anyCovers finding tree.path (policy.allExclusions.map .exclusion)

/-- The directives of a tree that was read cover declarations and nothing else. -/
theorem ofDocument_directed {path document : Value} {tree : Tree}
    (read : ofDocument path document = .ok tree) : tree.Directed := by
  have nested := nested_of_ofDocument read
  obtain ⟨waivers, notes⟩ := WaiverSheet.inlineWaivers_obeys tree
  refine ⟨waivers, notes, ?anchor, ?smallest, ?earliest, ?outside⟩
  case anchor =>
      intro comment member
      constructor
      · intro node found
        obtain ⟨declaration, anchors, same⟩ := Cursor.anchors_of_anchor? found
        exact ⟨declaration, anchors.mem_walk member, anchors, same⟩
      · rw [← Cursor.isSome_anchor?_iff, Option.not_isSome_iff_eq_none]
  case smallest =>
      intro comment member declaration nearest
      exact nearest.spans nested member
  case earliest =>
      intro comment _ declaration first ordered other startsBehind
      exact first.start_le ordered startsBehind
  case outside =>
      intro finding apart policy
      exact WaiverSheet.covers_of_outside apart policy

/-- An entry over a stretch of the first line, with a text. -/
def stretch (kind text : String) (start stop : Int) (children : List Value) : Value :=
  .object [("kind", .text kind),
    ("span", .object [("start", position start), ("end", position stop)]),
    ("attributes", .object [("text", .text text)]), ("children", .list children)]
where
  position (offset : Int) : Value :=
    .list [.integer 1, .integer offset, .integer offset]

/-- A directive that ends where a declaration starts, one in the declaration, and one behind it. -/
def directing : Members :=
  [("root", stretch "File" "" 0 60
    [stretch "Comment" "// convcheck:ignore" 0 19 [],
      stretch "Declaration" "" 19 39 [stretch "Comment" "convcheck:ignore a.b" 19 39 []],
      stretch "Comment" "// convcheck:ignore" 40 59 []])]

theorem ofDocument_directed_directing :
    ∃ tree, ofDocument .null (.object directing) = .ok tree ∧ tree.Directed ∧
      (WaiverSheet.inlineWaivers tree).1.map (fun waiver =>
        (waiver.scope.start.offset, waiver.ruleIds)) = [(19, []), (19, ["a.b"])] ∧
      (WaiverSheet.inlineWaivers tree).2.length = 1 := by
  refine ⟨_, rfl, @ofDocument_directed .null (.object directing) _ rfl, ?_, ?_⟩
  · decide +kernel
  · decide +kernel

end Tree

end TreeLint
