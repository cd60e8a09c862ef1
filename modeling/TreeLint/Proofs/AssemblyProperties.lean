import Mathlib.Data.List.Nodup
import TreeLint.Tree.Assembly

/-!
# What a call does to the nodes in slots

A construction adopts children up to the first that is at fault, and then takes the next slot, which
it fills only if no child was at fault. Nothing else changes. Whatever is said of nodes in slots
follows from this.
-/

set_option autoImplicit false

namespace TreeLint

/-- The cell of a node once it is adopted. -/
def Cell.adopted (cell : Cell) (owner : Nat) : Cell :=
  { cell with owner := some owner }

namespace Assembly

/-! ## Slots -/

theorem cell?_eq_none {assembly : Assembly} {slot : Nat} (beyond : assembly.cells.length ≤ slot) :
    assembly.cell? slot = none := by
  rw [cell?, List.getElem?_eq_none beyond]
  rfl

theorem cell?_lt {assembly : Assembly} {slot : Nat} {cell : Cell}
    (held : assembly.cell? slot = some cell) : slot < assembly.cells.length := by
  by_contra beyond
  rw [cell?_eq_none (Nat.le_of_not_lt beyond)] at held
  cases held

theorem parent?_eq_some_iff {assembly : Assembly} {slot owner : Nat} :
    assembly.parent? slot = some owner ↔
      (∃ cell, assembly.cell? slot = some cell ∧ cell.owner = some owner) ∧
        ∃ cell, assembly.cell? owner = some cell := by
  simp only [parent?, Option.bind_eq_bind, Option.bind_eq_some_iff, Option.pure_def,
    Option.some.injEq]
  constructor
  · rintro ⟨cell, held, link, linked, above, live, rfl⟩
    exact ⟨⟨cell, held, linked⟩, above, live⟩
  · rintro ⟨⟨cell, held, linked⟩, above, live⟩
    exact ⟨cell, held, owner, linked, above, live, rfl⟩

theorem cell?_setOwner (assembly : Assembly) (slot owner other : Nat) :
    (assembly.setOwner slot owner).cell? other =
      if other = slot then (assembly.cell? other).map (·.adopted owner)
      else assembly.cell? other := by
  simp only [cell?, setOwner, List.getElem?_modify]
  by_cases same : other = slot
  · subst same
    cases assembly.cells[other]? with
    | none => simp
    | some cell =>
        simp only [↓reduceIte, Option.map_eq_map, Option.map_some, Option.join_some]
        rfl
  · cases assembly.cells[other]? <;> simp [same, Ne.symm same]

theorem length_setOwner (assembly : Assembly) (slot owner : Nat) :
    (assembly.setOwner slot owner).cells.length = assembly.cells.length :=
  List.length_modify _ _ _

/-- One more slot, filled or empty. -/
def push (assembly : Assembly) (cell : Option Cell) : Assembly :=
  ⟨assembly.cells ++ [cell]⟩

theorem cell?_push (assembly : Assembly) (cell : Option Cell) (slot : Nat) :
    (assembly.push cell).cell? slot =
      if slot = assembly.cells.length then cell else assembly.cell? slot := by
  rw [cell?, push, cell?, List.getElem?_append]
  split
  next before => rw [if_neg (Nat.ne_of_lt before)]
  next beyond =>
    by_cases last : slot = assembly.cells.length
    · simp [last]
    · have absent : assembly.cells[slot]? = none := List.getElem?_eq_none (by omega)
      have far : slot - assembly.cells.length ≠ 0 := by omega
      simp [last, absent, far]

/-- Records that the nodes in some slots were adopted. -/
def adoptAll (assembly : Assembly) (owner : Nat) (slots : List Nat) : Assembly :=
  slots.foldl (fun adopted slot => adopted.setOwner slot owner) assembly

theorem length_adoptAll (assembly : Assembly) (owner : Nat) (slots : List Nat) :
    (assembly.adoptAll owner slots).cells.length = assembly.cells.length := by
  induction slots generalizing assembly with
  | nil => rfl
  | cons first rest ih => exact (ih (assembly.setOwner first owner)).trans (assembly.length_setOwner _ _)

theorem cell?_adoptAll (assembly : Assembly) (owner : Nat) (slots : List Nat) (slot : Nat) :
    (assembly.adoptAll owner slots).cell? slot =
      if slot ∈ slots then (assembly.cell? slot).map (·.adopted owner)
      else assembly.cell? slot := by
  induction slots generalizing assembly with
  | nil => simp [adoptAll]
  | cons first rest ih =>
      have onward : assembly.adoptAll owner (first :: rest) =
          (assembly.setOwner first owner).adoptAll owner rest := rfl
      rw [onward, ih, cell?_setOwner]
      by_cases same : slot = first
      · cases assembly.cell? slot <;> simp [same, Cell.adopted]
      · simp [same]

/-- The nodes in front are adopted into the next slot, which is then filled or left empty. -/
def grow (assembly : Assembly) (front : List Nat) (cell : Option Cell) : Assembly :=
  (assembly.adoptAll assembly.cells.length front).push cell

theorem length_grow (assembly : Assembly) (front : List Nat) (cell : Option Cell) :
    (assembly.grow front cell).cells.length = assembly.cells.length + 1 := by
  rw [grow, push, List.length_append, length_adoptAll, List.length_singleton]

theorem cell?_grow (assembly : Assembly) (front : List Nat) (cell : Option Cell) (slot : Nat) :
    (assembly.grow front cell).cell? slot =
      if slot = assembly.cells.length then cell
      else if slot ∈ front then (assembly.cell? slot).map (·.adopted assembly.cells.length)
      else assembly.cell? slot := by
  rw [grow, cell?_push, length_adoptAll, cell?_adoptAll]

/-! ## Constructions -/

/-- A node that can be adopted into a span: it is there, it is not adopted yet, and it lies
within. -/
def Free (assembly : Assembly) (span : Span) (slot : Nat) : Prop :=
  ∃ cell, assembly.cell? slot = some cell ∧ cell.owner = none ∧
    span.contains cell.node.span = true

theorem free_setOwner_iff {assembly : Assembly} {span : Span} {slot owner other : Nat} :
    (assembly.setOwner slot owner).Free span other ↔ other ≠ slot ∧ assembly.Free span other := by
  unfold Free
  rw [cell?_setOwner]
  by_cases same : other = slot
  · simp [same, Cell.adopted]
  · simp [same]

/-- Nodes that can be adopted into a span one after the other. -/
structure Adoptable (assembly : Assembly) (span : Span) (front : List Nat) : Prop where
  once : front.Nodup
  free : ∀ slot ∈ front, assembly.Free span slot

theorem Adoptable.cons {assembly : Assembly} {span : Span} {first owner : Nat} {rest : List Nat}
    (free : assembly.Free span first)
    (later : (assembly.setOwner first owner).Adoptable span rest) :
    assembly.Adoptable span (first :: rest) := by
  refine ⟨List.nodup_cons.mpr ⟨fun repeated => ?_, later.once⟩, ?_⟩
  · exact (free_setOwner_iff.mp (later.free first repeated)).1 rfl
  · intro slot member
    rcases List.mem_cons.mp member with rfl | behind
    · exact free
    · exact (free_setOwner_iff.mp (later.free slot behind)).2

/-- A child is at fault, now that those in front of it are adopted. -/
inductive Faulty (assembly : Assembly) (span : Span) (label : String) (front : List Nat) :
    Nat → AssemblyError → Prop where
  | empty {slot : Nat} :
      assembly.cell? slot = none → Faulty assembly span label front slot (.empty slot)
  | owned {slot : Nat} {cell : Cell} :
      assembly.cell? slot = some cell → cell.owner ≠ none ∨ slot ∈ front →
      Faulty assembly span label front slot (.owned cell.node.label)
  | outside {slot : Nat} {cell : Cell} :
      assembly.cell? slot = some cell → cell.owner = none → slot ∉ front →
      span.contains cell.node.span = false →
      Faulty assembly span label front slot (.outside cell.node.label label)

theorem Faulty.of_setOwner {assembly : Assembly} {span : Span} {label : String} {front : List Nat}
    {first owner slot : Nat} {error : AssemblyError}
    (faulty : (assembly.setOwner first owner).Faulty span label front slot error) :
    assembly.Faulty span label (first :: front) slot error := by
  have cells := cell?_setOwner assembly first owner slot
  by_cases same : slot = first
  · rw [if_pos same] at cells
    cases faulty with
    | empty absent =>
        rw [cells, Option.map_eq_none_iff] at absent
        exact .empty absent
    | owned held _ =>
        rw [cells] at held
        obtain ⟨cell, own, rfl⟩ := Option.map_eq_some_iff.mp held
        change assembly.Faulty span label (first :: front) slot (.owned cell.node.label)
        exact .owned own (.inr (same ▸ List.mem_cons_self))
    | outside held unowned _ _ =>
        rw [cells] at held
        obtain ⟨cell, own, rfl⟩ := Option.map_eq_some_iff.mp held
        cases unowned
  · rw [if_neg same] at cells
    cases faulty with
    | empty absent => exact .empty (cells ▸ absent)
    | owned held taken =>
        exact .owned (cells ▸ held) (taken.imp_right (List.mem_cons_of_mem first))
    | outside held unowned fresh outside =>
        exact .outside (cells ▸ held) unowned (List.not_mem_cons_of_ne_of_not_mem same fresh) outside

/-- Adoption takes all children, or those in front of the first at fault. -/
theorem adopt_cases (owner : Nat) (span : Span) (label : String) (children : List Nat)
    (assembly : Assembly) :
    (assembly.Adoptable span children ∧
      adopt owner span label children assembly = (.ok (), assembly.adoptAll owner children)) ∨
    ∃ front slot back error, children = front ++ slot :: back ∧ assembly.Adoptable span front ∧
      assembly.Faulty span label front slot error ∧
      adopt owner span label children assembly =
        (.error error, assembly.adoptAll owner front) := by
  induction children generalizing assembly with
  | nil => exact .inl ⟨⟨List.nodup_nil, nofun⟩, rfl⟩
  | cons first rest ih =>
      have nothing : assembly.Adoptable span [] := ⟨List.nodup_nil, nofun⟩
      cases held : assembly.cell? first with
      | none =>
          refine .inr ⟨[], first, rest, _, rfl, nothing, .empty held, ?_⟩
          simp [adopt, held, adoptAll]
      | some cell =>
          cases owned : cell.owner with
          | some other =>
              refine .inr ⟨[], first, rest, _, rfl, nothing, .owned held (.inl ?_), ?_⟩
              · simp [owned]
              · simp [adopt, held, owned, adoptAll]
          | none =>
              cases within : span.contains cell.node.span with
              | false =>
                  refine .inr ⟨[], first, rest, _, rfl, nothing,
                    .outside held owned List.not_mem_nil within, ?_⟩
                  simp [adopt, held, owned, within, adoptAll]
              | true =>
                  have free : assembly.Free span first := ⟨cell, held, owned, within⟩
                  have onward : adopt owner span label (first :: rest) assembly =
                      adopt owner span label rest (assembly.setOwner first owner) := by
                    simp [adopt, held, owned, within]
                  rcases ih (assembly.setOwner first owner) with ⟨adoptable, result⟩ |
                    ⟨front, slot, back, error, rfl, adoptable, faulty, result⟩
                  · exact .inl ⟨.cons free adoptable, onward.trans result⟩
                  · exact .inr ⟨first :: front, slot, back, error, rfl, .cons free adoptable,
                      faulty.of_setOwner, onward.trans result⟩

/-- The node that a construction is for. -/
def planned (assembly : Assembly) (kind : Kind) (span : Span) (attributes : Members)
    (children : List Nat) : Node :=
  ⟨kind, span, attributes, children.filterMap fun child => (assembly.cell? child).map (·.node)⟩

theorem construct_eq (assembly : Assembly) (kind : Kind) (span : Span) (attributes : Members)
    (children : List Nat) :
    assembly.construct kind span attributes children =
      match adopt assembly.cells.length span
          (assembly.planned kind span attributes children).label children assembly with
      | (.ok (), adopted) => (.ok assembly.cells.length, adopted.push
          (some ⟨assembly.planned kind span attributes children, children, none⟩))
      | (.error error, adopted) => (.error error, adopted.push none) := rfl

/-- All that a construction can do. -/
theorem construct_cases (assembly : Assembly) (kind : Kind) (span : Span) (attributes : Members)
    (children : List Nat) :
    (assembly.Adoptable span children ∧
      assembly.construct kind span attributes children =
        (.ok assembly.cells.length, assembly.grow children
          (some ⟨assembly.planned kind span attributes children, children, none⟩))) ∨
    ∃ front slot back error, children = front ++ slot :: back ∧ assembly.Adoptable span front ∧
      assembly.Faulty span (assembly.planned kind span attributes children).label front slot error ∧
      assembly.construct kind span attributes children =
        (.error error, assembly.grow front none) := by
  rw [construct_eq]
  rcases adopt_cases assembly.cells.length span
      (assembly.planned kind span attributes children).label children assembly with
    ⟨adoptable, result⟩ | ⟨front, slot, back, error, split, adoptable, faulty, result⟩
  · refine .inl ⟨adoptable, ?_⟩
    rw [result]
    rfl
  · refine .inr ⟨front, slot, back, error, split, adoptable, faulty, ?_⟩
    rw [result]
    rfl

/-! ## Programs of calls -/

/-- A call: for a new node, or for a tree with a node as its root. -/
inductive Call where
  | node (kind : Kind) (span : Span) (attributes : Members) (children : List Nat)
  | tree (root : Nat) (path : Value)

/-- The nodes in slots after a call. Making a tree leaves them as they are. -/
def perform (assembly : Assembly) : Call → Assembly
  | .node kind span attributes children => (assembly.construct kind span attributes children).2
  | .tree _ _ => assembly

def performAll (assembly : Assembly) (calls : List Call) : Assembly :=
  calls.foldl perform assembly

/-- Whether a call goes through. -/
def accepts (assembly : Assembly) : Call → Bool
  | .node kind span attributes children => (assembly.construct kind span attributes children).1.isOk
  | .tree root path => (assembly.tree root path).isOk

end Assembly

end TreeLint
