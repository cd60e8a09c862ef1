import TreeLint.Proofs.DocumentErrors

/-!
# Which documents are trees

A document is described by its entries: the values that stand for nodes, each found at a place, by
the positions among siblings on the way down to it. Reading gives a tree exactly when every entry is
fit by itself and around its children. The tree has a node at the same places as the document has
entries, and an error names the place of an entry at fault.
-/

set_option autoImplicit false

namespace TreeLint

/-! ## Positions and spans -/

namespace Position

/-- The value holds three coordinates, in a list or under their names, that read as those of the
position. -/
def Reads (value : Value) (position : Position) : Prop :=
  ∃ line column offset, given value = [some line, some column, some offset] ∧
    line.toCoordinate = .ok position.line ∧ column.toCoordinate = .ok position.column ∧
    offset.toCoordinate = .ok position.offset

theorem coordinate_eq_ok_iff {value : Value} {number : Int} :
    coordinate value = .ok number ↔ value.toCoordinate = .ok number :=
  mapError_eq_ok_iff

theorem coordinateAt_eq_ok_iff {members : Members} {key : String} {number : Int} :
    coordinateAt members key = .ok number ↔
      ∃ value, members.get? key = some value ∧ value.toCoordinate = .ok number := by
  unfold coordinateAt
  cases members.get? key with
  | none => simp
  | some value => simp [coordinate_eq_ok_iff]

theorem ofValue_eq_ok_iff {value : Value} {position : Position} :
    ofValue value = .ok position ↔ Reads value position := by
  obtain ⟨line, column, offset⟩ := position
  unfold ofValue Reads given
  split
  next members =>
    simp only [bind_eq_ok_iff, coordinateAt_eq_ok_iff, pure, Except.pure, Except.ok.injEq, mk.injEq,
      List.map_cons, List.map_nil, List.cons.injEq, and_true]
    constructor
    · rintro ⟨_, ⟨first, named, reads⟩, _, ⟨second, found, fits⟩, _, ⟨third, present, works⟩,
        rfl, rfl, rfl⟩
      exact ⟨first, second, third, ⟨named, found, present⟩, reads, fits, works⟩
    · rintro ⟨first, second, third, ⟨named, found, present⟩, reads, fits, works⟩
      exact ⟨line, ⟨first, named, reads⟩, column, ⟨second, found, fits⟩, offset,
        ⟨third, present, works⟩, rfl, rfl, rfl⟩
  next first second third =>
    simp only [bind_eq_ok_iff, coordinate_eq_ok_iff, pure, Except.pure, Except.ok.injEq, mk.injEq,
      List.cons.injEq, Option.some.injEq, and_true]
    constructor
    · rintro ⟨_, reads, _, fits, _, works, rfl, rfl, rfl⟩
      exact ⟨first, second, third, ⟨rfl, rfl, rfl⟩, reads, fits, works⟩
    · rintro ⟨_, _, _, ⟨rfl, rfl, rfl⟩, reads, fits, works⟩
      exact ⟨line, reads, column, fits, offset, works, rfl, rfl, rfl⟩
  next => simp

end Position

namespace Span

/-- The value is an object whose `start` and `end` read as those of the span. That the end does not
lie in front of the start is a part of being a span. -/
def Reads (value : Value) (span : Span) : Prop :=
  ∃ ends start stop, value = .object ends ∧ Members.get? ends "start" = some start ∧
    Members.get? ends "end" = some stop ∧ Position.Reads start span.start ∧
    Position.Reads stop span.stop

theorem between_eq_ok_iff {start stop : Position} {span : Span} :
    between start stop = .ok span ↔ span.start = start ∧ span.stop = stop := by
  obtain ⟨ownStart, ownStop, ordered⟩ := span
  unfold between
  split
  next =>
    simp only [Except.ok.injEq, mk.injEq]
    exact and_congr eq_comm eq_comm
  next reversed =>
    simp only [reduceCtorEq, false_iff, not_and]
    rintro rfl rfl
    exact reversed ordered

theorem ofValue_eq_ok_iff {value : Value} {span : Span} :
    ofValue value = .ok span ↔ Reads value span := by
  unfold ofValue Reads
  split
  next ends =>
    simp only [bind_eq_ok_iff, positionAt_eq_ok_iff, between_eq_ok_iff, Position.ofValue_eq_ok_iff,
      Value.object.injEq]
    constructor
    · rintro ⟨_, ⟨start, started, reads⟩, _, ⟨stop, stopped, fits⟩, rfl, rfl⟩
      exact ⟨ends, start, stop, rfl, started, stopped, reads, fits⟩
    · rintro ⟨_, start, stop, rfl, started, stopped, reads, fits⟩
      exact ⟨span.start, ⟨start, started, reads⟩, span.stop, ⟨stop, stopped, fits⟩, rfl, rfl⟩
  next other =>
    simp only [reduceCtorEq, false_iff]
    rintro ⟨ends, _, _, rfl, _⟩
    exact other ends rfl

end Span

theorem Kind.ofName?_eq_some_iff {name : String} {kind : Kind} :
    ofName? name = some kind ↔ name = kind.name ∨ name = kind.capitalName := by
  constructor
  · intro found
    simpa using List.find?_some found
  · intro named
    cases kind <;> rcases named with rfl | rfl <;> rfl

/-! ## Writable values -/

namespace Value

theorem isWritable_of_mem_members {members : Members} (writable : membersAreWritable members = true)
    {key : String} {value : Value} (member : (key, value) ∈ members) : value.isWritable = true := by
  induction members with
  | nil => cases member
  | cons first rest ih =>
      obtain ⟨name, own⟩ := first
      rw [membersAreWritable, Bool.and_eq_true] at writable
      rcases List.mem_cons.mp member with same | later
      · cases same
        exact writable.1
      · exact ih writable.2 later

theorem isWritable_of_mem_items {items : List Value} (writable : areWritable items = true)
    {value : Value} (member : value ∈ items) : value.isWritable = true := by
  induction items with
  | nil => cases member
  | cons first rest ih =>
      rw [areWritable, Bool.and_eq_true] at writable
      rcases List.mem_cons.mp member with rfl | later
      · exact writable.1
      · exact ih writable.2 later

theorem isWritable_of_get? {members : Members} (writable : (object members).isWritable = true)
    {key : String} {value : Value} (present : members.get? key = some value) :
    value.isWritable = true := by
  rw [isWritable] at writable
  obtain ⟨front, back, rfl, _⟩ := List.lookup_eq_some_iff.mp present
  exact isWritable_of_mem_members writable (List.mem_append_right front List.mem_cons_self)

end Value

/-! ## Entries and nodes at places -/

/-- The node at a place, which is given by the positions among siblings from here down. -/
def Node.at? (node : Node) : List Nat → Option Node
  | [] => some node
  | index :: place => node.children[index]?.bind fun child => child.at? place

/-- What stands under `children` is absent, falsy or a list. -/
def Node.ListsChildren (members : Members) : Prop :=
  ∀ given, members.get? "children" = some given →
    given.isFalsy = true ∨ ∃ items, given = .list items

/-- The members give the kind, the span and the attributes of a node, and children in a fit form.
What the children are plays no part. -/
structure Node.Declared (members : Members) (node : Node) : Prop where
  kind : ∃ given, members.get? "kind" = some given ∧
    (given.display = node.kind.name ∨ given.display = node.kind.capitalName)
  span : ∃ given, members.get? "span" = some given ∧ Span.Reads given node.span
  /-- Absent or falsy attributes are none. -/
  attributes : members.get? "attributes" = some (.object node.attributes) ∨
    node.attributes = [] ∧
      ∀ given, members.get? "attributes" = some given → given.isFalsy = true
  children : ListsChildren members

namespace Entry

/-- The entry is an object that gives the node, its children apart. -/
def Shows (entry : Value) (node : Node) : Prop :=
  ∃ members, entry = .object members ∧ node.Declared members

/-- The entries that an entry lists as its children. -/
def children : Value → List Value
  | .object members =>
      match Members.get? members "children" with
      | some (.list items) => items
      | _ => []
  | _ => []

/-- The entry at a place. -/
def at? (entry : Value) : List Nat → Option Value
  | [] => some entry
  | index :: place => (children entry)[index]?.bind fun child => at? child place

/-- The entry has all that a node needs, its children apart. -/
def Fit (entry : Value) : Prop :=
  ∃ node, Shows entry node

/-- A child of the entry extends outside it. -/
def Overflows (entry : Value) : Prop :=
  ∃ node child inner, Shows entry node ∧ child ∈ children entry ∧ Shows child inner ∧
    node.span.contains inner.span = false

/-- Every entry of the document is fit and encloses its children. -/
def WellFormed (document : Value) : Prop :=
  ∀ place entry, at? document place = some entry → Fit entry ∧ ¬ Overflows entry

/-- At every place, either the document has an entry and the tree the node that it shows, or neither
has anything. -/
def Mirrors (document : Value) (root : Node) : Prop :=
  ∀ place, Option.Rel Shows (at? document place) (root.at? place)

/-- No position of the document, neither in this entry nor below it, has an infinite coordinate. -/
def Finite (entry : Value) : Prop :=
  ∀ negative, ¬ Node.Gives (.real (.infinite negative)) entry

theorem sizeOf_lt_of_mem_children {entry child : Value} (member : child ∈ children entry) :
    sizeOf child < sizeOf entry := by
  unfold children at member
  split at member
  next members =>
    split at member
    next items listed => exact Node.sizeOf_child_lt listed member
    next => cases member
  next => cases member

/-- Entries are met from the children upwards. -/
theorem induction {motive : Value → Prop}
    (step : ∀ entry, (∀ child ∈ children entry, motive child) → motive entry) (entry : Value) :
    motive entry :=
  step entry fun child _ => induction step child
termination_by sizeOf entry
decreasing_by exact sizeOf_lt_of_mem_children ‹_›

theorem Shows.span_eq {entry : Value} {node other : Node} (shown : Shows entry node)
    (otherShown : Shows entry other) : node.span = other.span := by
  obtain ⟨members, rfl, declared⟩ := shown
  obtain ⟨_, ⟨⟩, otherDeclared⟩ := otherShown
  obtain ⟨given, present, reads⟩ := declared.span
  obtain ⟨_, again, otherReads⟩ := otherDeclared.span
  rw [present] at again
  cases again
  rw [← Span.ofValue_eq_ok_iff] at reads otherReads
  exact Except.ok.inj (reads.symm.trans otherReads)

theorem wellFormed_of_children {entry : Value} (fit : Fit entry) (encloses : ¬ Overflows entry)
    (below : ∀ child ∈ children entry, WellFormed child) : WellFormed entry := by
  intro place inner found
  cases place with
  | nil =>
      cases found
      exact ⟨fit, encloses⟩
  | cons index place =>
      obtain ⟨child, listed, found⟩ := Option.bind_eq_some_iff.mp found
      exact below child (List.mem_of_getElem? listed) place inner found

theorem mirrors_of_children {entry : Value} {node : Node} (shown : Shows entry node)
    (below : List.Forall₂ Mirrors (children entry) node.children) : Mirrors entry node := by
  intro place
  cases place with
  | nil => exact .some shown
  | cons index place =>
      rw [at?, Node.at?]
      generalize children entry = entries at below
      generalize node.children = nodes at below
      induction below generalizing index with
      | nil => exact .none
      | cons first _ ih =>
          cases index with
          | zero => exact first place
          | succ index => exact ih index

theorem not_overflows {entry : Value} {node : Node} (shown : Shows entry node)
    (below : List.Forall₂ Mirrors (children entry) node.children)
    (encloses : ∀ child ∈ node.children, node.span.contains child.span = true) :
    ¬ Overflows entry := by
  rintro ⟨other, child, inner, otherShown, listed, innerShown, outside⟩
  obtain ⟨index, bound, rfl⟩ := List.mem_iff_getElem.mp listed
  obtain ⟨sameLength, mirrored⟩ := List.forall₂_iff_get.mp below
  have within : index < node.children.length := sameLength ▸ bound
  have childShown : Shows (children entry)[index] node.children[index] := by
    have top := mirrored index bound within []
    cases top
    assumption
  have inside := encloses _ (List.getElem_mem within)
  rw [shown.span_eq otherShown, childShown.span_eq innerShown, outside] at inside
  cases inside

end Entry

/-! ## Reading one entry -/

namespace Node

variable {place : List Nat} {members : Members}

theorem readKind_eq_ok_iff {kind : Kind} :
    readKind place members = .ok kind ↔
      ∃ given, members.get? "kind" = some given ∧ given.isWritable = true ∧
        (given.display = kind.name ∨ given.display = kind.capitalName) := by
  unfold readKind
  cases members.get? "kind" with
  | none => simp
  | some given =>
      simp only [Option.some.injEq, ← Kind.ofName?_eq_some_iff, exists_eq_left']
      by_cases writable : given.isWritable = true
      · simp only [writable, ↓reduceIte, true_and]
        cases Kind.ofName? given.display <;> simp
      · simp [writable]

theorem readSpan_eq_ok_iff {span : Span} :
    readSpan place members = .ok span ↔
      ∃ given, members.get? "span" = some given ∧ Span.Reads given span := by
  unfold readSpan
  cases members.get? "span" with
  | none => simp
  | some given => simp [mapError_eq_ok_iff, Span.ofValue_eq_ok_iff]

theorem orElse_eq_object_iff {given : Option Value} {attributes : Members} :
    Value.orElse given (.object []) = .object attributes ↔
      given = some (.object attributes) ∨
        attributes = [] ∧ ∀ value, given = some value → value.isFalsy = true := by
  cases given with
  | none =>
      constructor
      · intro empty
        cases empty
        exact .inr ⟨rfl, nofun⟩
      · rintro (impossible | ⟨rfl, _⟩)
        · cases impossible
        · rfl
  | some value =>
      by_cases falsy : value.isFalsy = true
      · simp only [Value.orElse, falsy, ↓reduceIte, Value.object.injEq, Option.some.injEq,
          forall_eq', and_true]
        constructor
        · intro empty
          exact .inr empty.symm
        · rintro (rfl | rfl)
          · cases attributes with
            | nil => rfl
            | cons first rest => cases falsy
          · rfl
      · simp [Value.orElse, falsy]

theorem readAttributes_eq_ok_iff {attributes : Members} :
    readAttributes place members = .ok attributes ↔
      members.get? "attributes" = some (.object attributes) ∨
        attributes = [] ∧
          ∀ given, members.get? "attributes" = some given → given.isFalsy = true := by
  rw [← orElse_eq_object_iff, readAttributes]
  split
  next found => simp [found]
  next other =>
    simp only [reduceCtorEq, false_iff]
    exact other attributes

theorem readChildren_of_listsChildren (lists : ListsChildren members) :
    readChildren place members = readItems place 0 (Entry.children (.object members)) := by
  rw [readChildren_eq, Entry.children]
  cases present : members.get? "children" with
  | none => rw [readItems]
  | some given =>
      rcases lists given present with falsy | ⟨items, rfl⟩
      · cases given with
        | list items => rfl
        | _ => simp [readList, readItems, falsy]
      · rfl

theorem readChildren_of_not_listsChildren (unlisted : ¬ ListsChildren members) :
    readChildren place members = .error (.node place .childrenNotList) := by
  simp only [ListsChildren, not_forall, not_or, not_exists] at unlisted
  obtain ⟨given, present, truthy, other⟩ := unlisted
  rw [readChildren_eq, present]
  cases given with
  | list items => exact absurd rfl (other items)
  | _ => simp [readList, truthy]

theorem enclose_eq_ok_iff {node result : Node} :
    enclose place node = .ok result ↔
      result = node ∧ ∀ child ∈ node.children, node.span.contains child.span = true := by
  unfold enclose
  cases found : node.children.find? fun child => !node.span.contains child.span with
  | none =>
      have all : ∀ child ∈ node.children, node.span.contains child.span = true := by
        simpa using found
      simp only [Except.ok.injEq, and_iff_left all]
      exact eq_comm
  | some child =>
      have member := List.mem_of_find?_eq_some found
      have outside : node.span.contains child.span = false := by simpa using List.find?_some found
      refine iff_of_false ?_ fun all => ?_
      · dsimp only
        split <;> simp
      · rw [all.2 child member] at outside
        cases outside

theorem declared_of_parts {kind : Kind} {span : Span} {attributes : Members}
    (known : readKind place members = .ok kind) (spanned : readSpan place members = .ok span)
    (described : readAttributes place members = .ok attributes) (lists : ListsChildren members)
    (children : List Node) : Declared members ⟨kind, span, attributes, children⟩ := by
  obtain ⟨given, present, _, named⟩ := readKind_eq_ok_iff.mp known
  exact ⟨⟨given, present, named⟩, readSpan_eq_ok_iff.mp spanned,
    readAttributes_eq_ok_iff.mp described, lists⟩

/-- What a node that was read has to do with its entry. -/
theorem read_eq_ok {entry : Value} {node : Node} (read : Node.read place entry = .ok node) :
    Entry.Shows entry node ∧ readItems place 0 (Entry.children entry) = .ok node.children ∧
      ∀ child ∈ node.children, node.span.contains child.span = true := by
  cases entry with
  | object members =>
      rw [Node.read] at read
      obtain ⟨kind, known, read⟩ := bind_eq_ok_iff.mp read
      obtain ⟨span, spanned, read⟩ := bind_eq_ok_iff.mp read
      obtain ⟨attributes, described, read⟩ := bind_eq_ok_iff.mp read
      obtain ⟨children, listed, read⟩ := bind_eq_ok_iff.mp read
      obtain ⟨rfl, encloses⟩ := enclose_eq_ok_iff.mp read
      by_cases lists : ListsChildren members
      · rw [readChildren_of_listsChildren lists] at listed
        have declared := declared_of_parts known spanned described lists children
        exact ⟨⟨members, rfl, declared⟩, listed, encloses⟩
      · rw [readChildren_of_not_listsChildren lists] at listed
        cases listed
  | _ => cases read

theorem readKind_eq_error {error : TreeError} (failed : readKind place members = .error error) :
    ∃ fault, error = .node place fault := by
  unfold readKind at failed
  split at failed
  · cases failed
    exact ⟨_, rfl⟩
  · split at failed
    · split at failed
      · cases failed
      · cases failed
        exact ⟨_, rfl⟩
    · cases failed
      exact ⟨_, rfl⟩

theorem readSpan_eq_error {error : TreeError} (failed : readSpan place members = .error error) :
    error = .infiniteCoordinate ∨ ∃ fault, error = .node place fault := by
  unfold readSpan at failed
  split at failed
  · cases failed
    exact .inr ⟨_, rfl⟩
  · obtain ⟨own, _, rfl⟩ := mapError_eq_error_iff.mp failed
    unfold TreeError.ofLocation
    split
    · exact .inl rfl
    · exact .inr ⟨_, rfl⟩
    · exact .inr ⟨_, rfl⟩

theorem readAttributes_eq_error {error : TreeError}
    (failed : readAttributes place members = .error error) :
    ∃ fault, error = .node place fault := by
  unfold readAttributes at failed
  split at failed
  · cases failed
  · cases failed
    exact ⟨_, rfl⟩

theorem enclose_eq_error {node : Node} {error : TreeError}
    (failed : enclose place node = .error error) :
    (∃ fault, error = .node place fault) ∧
      ∃ child ∈ node.children, node.span.contains child.span = false := by
  unfold enclose at failed
  split at failed
  next child found =>
    have outside : node.span.contains child.span = false := by simpa using List.find?_some found
    refine ⟨?_, child, List.mem_of_find?_eq_some found, outside⟩
    split at failed
    · cases failed
      exact ⟨_, rfl⟩
    · cases failed
      exact ⟨_, rfl⟩
  next => cases failed

/-- All that keeps an entry from being read: the entry is not fit, or a child is not read, or one
that is read extends outside. -/
theorem read_eq_error {entry : Value} {error : TreeError} (writable : entry.isWritable = true)
    (finite : Entry.Finite entry) (failed : Node.read place entry = .error error) :
    (¬ Entry.Fit entry ∧ ∃ fault, error = .node place fault) ∨
      readItems place 0 (Entry.children entry) = .error error ∨
      ∃ node, Entry.Shows entry node ∧
        readItems place 0 (Entry.children entry) = .ok node.children ∧
        (∃ child ∈ node.children, node.span.contains child.span = false) ∧
        ∃ fault, error = .node place fault := by
  cases entry with
  | object members =>
      have unfit {part : Node → Prop} (declares : ∀ node, Declared members node → part node)
          (missing : ∀ node, ¬ part node) : ¬ Entry.Fit (.object members) := by
        rintro ⟨node, _, ⟨⟩, declared⟩
        exact missing node (declares node declared)
      rw [Node.read] at failed
      rcases bind_eq_error_iff.mp failed with failed | ⟨kind, known, failed⟩
      · refine .inl ⟨unfit (fun _ declared => declared.kind) ?_, readKind_eq_error failed⟩
        rintro node ⟨given, present, named⟩
        have shown := Value.isWritable_of_get? writable present
        rw [readKind_eq_ok_iff.mpr ⟨given, present, shown, named⟩] at failed
        cases failed
      rcases bind_eq_error_iff.mp failed with failed | ⟨span, spanned, failed⟩
      · rcases readSpan_eq_error failed with rfl | located
        · obtain ⟨given, present, meets⟩ := readSpan_eq_infinite_iff.mp failed
          obtain ⟨negative, gives⟩ := (MeetsInfinite.own known present meets).gives
          exact absurd gives (finite negative)
        · refine .inl ⟨unfit (fun _ declared => declared.span) fun node spanned => ?_, located⟩
          rw [readSpan_eq_ok_iff.mpr spanned] at failed
          cases failed
      rcases bind_eq_error_iff.mp failed with failed | ⟨attributes, described, failed⟩
      · refine .inl ⟨unfit (fun _ declared => declared.attributes) fun node described => ?_,
          readAttributes_eq_error failed⟩
        rw [readAttributes_eq_ok_iff.mpr described] at failed
        cases failed
      by_cases lists : ListsChildren members
      · rw [readChildren_of_listsChildren lists] at failed
        rcases bind_eq_error_iff.mp failed with failed | ⟨children, listed, failed⟩
        · exact .inr (.inl failed)
        · obtain ⟨located, outside⟩ := enclose_eq_error failed
          have declared := declared_of_parts known spanned described lists children
          exact .inr (.inr ⟨_, ⟨members, rfl, declared⟩, listed, outside, located⟩)
      · rw [readChildren_of_not_listsChildren lists] at failed
        cases failed
        exact .inl ⟨unfit (fun _ declared => declared.children) fun _ => lists, _, rfl⟩
  | _ =>
      cases failed
      exact .inl ⟨by rintro ⟨_, _, ⟨⟩, _⟩, _, rfl⟩

theorem readItems_eq_ok {index : Nat} {items : List Value} {nodes : List Node}
    (read : readItems place index items = .ok nodes) :
    List.Forall₂ (fun item node => ∃ below, Node.read below item = .ok node) items nodes := by
  induction items generalizing index nodes with
  | nil =>
      rw [readItems] at read
      cases read
      exact .nil
  | cons item rest ih =>
      obtain ⟨node, later, first, others, rfl⟩ := readItems_cons_eq_ok_iff.mp read
      exact .cons ⟨_, first⟩ (ih others)

theorem mem_of_readItems {index : Nat} {items : List Value} {nodes : List Node} {node : Node}
    (read : readItems place index items = .ok nodes) (member : node ∈ nodes) :
    ∃ item ∈ items, ∃ below, Node.read below item = .ok node := by
  have pairs := readItems_eq_ok read
  clear read
  induction pairs with
  | nil => cases member
  | @cons item _ _ _ first _ ih =>
      rcases List.mem_cons.mp member with rfl | later
      · exact ⟨item, List.mem_cons_self, first⟩
      · obtain ⟨other, listed, read⟩ := ih later
        exact ⟨other, List.mem_cons_of_mem item listed, read⟩

end Node

/-! ## Reading whole documents -/

namespace Entry

theorem children_object {members : Members} {child : Value}
    (member : child ∈ children (.object members)) :
    ∃ items, members.get? "children" = some (.list items) ∧ child ∈ items := by
  rw [children] at member
  split at member
  next items listed => exact ⟨items, listed, member⟩
  next => cases member

theorem isWritable_of_mem_children {entry child : Value} (writable : entry.isWritable = true)
    (member : child ∈ children entry) : child.isWritable = true := by
  cases entry with
  | object members =>
      obtain ⟨items, listed, member⟩ := children_object member
      have all := Value.isWritable_of_get? writable listed
      rw [Value.isWritable] at all
      exact Value.isWritable_of_mem_items all member
  | _ => cases member

theorem finite_of_mem_children {entry child : Value} (finite : Finite entry)
    (member : child ∈ children entry) : Finite child := by
  cases entry with
  | object members =>
      obtain ⟨items, listed, member⟩ := children_object member
      intro negative gives
      exact finite negative (.child listed member gives)
  | _ => cases member

/-- What is read is well formed, and the node mirrors it. -/
theorem mirrors_of_read {place : List Nat} {entry : Value} {node : Node}
    (read : Node.read place entry = .ok node) : WellFormed entry ∧ Mirrors entry node := by
  induction entry using Entry.induction generalizing place node with
  | step entry ih =>
      obtain ⟨shown, items, encloses⟩ := Node.read_eq_ok read
      have below : List.Forall₂ (fun child node => WellFormed child ∧ Mirrors child node)
          (children entry) node.children := by
        refine ((List.forall₂_and_left _ _).mpr ⟨ih, Node.readItems_eq_ok items⟩).imp ?_
        rintro child node ⟨known, _, read⟩
        exact known read
      obtain ⟨wellFormed, mirrored⟩ := (List.forall₂_and_left _ _).mp below
      have fit : Fit entry := ⟨node, shown⟩
      exact ⟨wellFormed_of_children fit (not_overflows shown mirrored encloses) wellFormed,
        mirrors_of_children shown mirrored⟩

/-- The place of an error is that of an entry at fault. -/
theorem located_of_read {place : List Nat} {entry : Value} {error : TreeError}
    (writable : entry.isWritable = true) (finite : Finite entry)
    (failed : Node.read place entry = .error error) :
    ∃ below fault culprit, error = .node (place ++ below) fault ∧
      at? entry below = some culprit ∧ (¬ Fit culprit ∨ Overflows culprit) := by
  induction entry using Entry.induction generalizing place with
  | step entry ih =>
      rcases Node.read_eq_error writable finite failed with
        ⟨unfit, fault, rfl⟩ | failed | ⟨node, shown, items, ⟨inner, member, outside⟩, fault, rfl⟩
      · exact ⟨[], fault, entry, by rw [List.append_nil], rfl, .inl unfit⟩
      · obtain ⟨front, child, back, _, listed, _, failed⟩ := Node.readItems_eq_error_iff.mp failed
        have member : child ∈ children entry := by
          rw [listed]
          exact List.mem_append_right front List.mem_cons_self
        obtain ⟨below, fault, culprit, located, found, bad⟩ :=
          ih child member (isWritable_of_mem_children writable member)
            (finite_of_mem_children finite member) failed
        refine ⟨front.length :: below, fault, culprit, by simp [located], ?_, bad⟩
        rw [at?, listed]
        simpa using found
      · obtain ⟨child, listed, _, read⟩ := Node.mem_of_readItems items member
        obtain ⟨innerShown, _⟩ := Node.read_eq_ok read
        refine ⟨[], fault, entry, by rw [List.append_nil], rfl, .inr ?_⟩
        exact ⟨node, child, inner, shown, listed, innerShown, outside⟩

/-- An entry without infinite coordinates is read exactly when it is well formed. -/
theorem read_isOk_iff (place : List Nat) {entry : Value} (writable : entry.isWritable = true)
    (finite : Finite entry) : (∃ node, Node.read place entry = .ok node) ↔ WellFormed entry := by
  constructor
  · rintro ⟨node, read⟩
    exact (mirrors_of_read read).1
  · intro wellFormed
    cases read : Node.read place entry with
    | ok node => exact ⟨node, rfl⟩
    | error error =>
        obtain ⟨below, _, culprit, _, found, bad⟩ := located_of_read writable finite read
        obtain ⟨fit, encloses⟩ := wellFormed below culprit found
        exact absurd bad (not_or.mpr ⟨not_not_intro fit, encloses⟩)

/-- An entry that extends from the start of the source up to an offset. -/
def upTo (kind : String) (stop : Int) (children : List Value) : Value :=
  .object [("kind", .text kind), ("span", .object [("start", position 0), ("end", position stop)]),
    ("children", .list children)]
where
  position (offset : Int) : Value :=
    .list [.integer 1, .integer 0, .integer offset]

theorem finite_upTo {kind : String} {stop : Int} {children : List Value}
    (below : ∀ child ∈ children, Finite child) : Finite (upTo kind stop children) := by
  intro negative gives
  cases gives with
  | own present named found member =>
      cases present
      rcases named with rfl | rfl <;> cases found <;> simp [upTo.position, Position.given] at member
  | child listed member gives =>
      cases listed
      exact below _ member negative gives

end Entry

/-- A place is shown by the way down to it. -/
theorem TreeError.placeText_eq (place : List Nat) :
    placeText place =
      "root" ++ String.join (place.map fun index => ".children[" ++ toString index ++ "]") := by
  have shift (start : String) :
      place.foldl (fun text index => text ++ ".children[" ++ toString index ++ "]") start =
        start ++ String.join (place.map fun index => ".children[" ++ toString index ++ "]") := by
    induction place generalizing start with
    | nil => simp
    | cons index place ih =>
        rw [List.foldl_cons, ih]
        simp [String.append_assoc]
  exact shift "root"

namespace Tree

/-- The entry of the root: what stands under `root`, or else the document itself. -/
def rootEntry (members : Members) : Value :=
  (Members.get? members "root").getD (.object members)

theorem isWritable_rootEntry {members : Members}
    (writable : (Value.object members).isWritable = true) :
    (rootEntry members).isWritable = true := by
  unfold rootEntry
  cases present : members.get? "root" with
  | none => exact writable
  | some root => exact Value.isWritable_of_get? writable present

theorem choosePath_isOk (path : Value) {members : Members}
    (writable : (Value.object members).isWritable = true) :
    ∃ chosen, choosePath path members = .ok chosen := by
  have own : (Value.orElse (members.get? "path") (.text unnamed)).isWritable = true := by
    cases present : members.get? "path" with
    | none => rfl
    | some given =>
        have shown := Value.isWritable_of_get? writable present
        by_cases falsy : given.isFalsy = true
        · simp only [Value.orElse, falsy, ↓reduceIte, Value.isWritable]
        · simp only [Value.orElse, falsy, Bool.false_eq_true, ↓reduceIte, shown]
  unfold choosePath
  by_cases falsy : path.isFalsy = true
  · simp [falsy, own]
  · simp [falsy]

/-- With a path that can be written, the root alone decides. -/
theorem ofDocument_eq_read (path : Value) {members : Members}
    (writable : (Value.object members).isWritable = true) :
    ∃ chosen, ofDocument path (.object members) =
      (Node.read [] (rootEntry members)).map fun root => ⟨root, chosen⟩ := by
  obtain ⟨chosen, fit⟩ := choosePath_isOk path writable
  refine ⟨chosen, ?_⟩
  rw [ofDocument, fit]
  change (Node.read [] (rootEntry members) >>= _) = _
  cases Node.read [] (rootEntry members) <;> rfl

/-- Exactly the well-formed documents are trees. The tree mirrors the document, and an error names
the place of an entry at fault. -/
theorem ofDocument_mirrors_iff (path : Value) (members : Members)
    (writable : (Value.object members).isWritable = true)
    (finite : Entry.Finite (rootEntry members)) :
    ((∃ tree, ofDocument path (.object members) = .ok tree) ↔
        Entry.WellFormed (rootEntry members)) ∧
      (∀ tree, ofDocument path (.object members) = .ok tree →
        Entry.Mirrors (rootEntry members) tree.root) ∧
      ∀ error, ofDocument path (.object members) = .error error →
        ∃ place fault culprit, error = .node place fault ∧
          error.message = "root" ++
            String.join (place.map fun index => ".children[" ++ toString index ++ "]") ++ ": " ++
            fault.message ∧
          Entry.at? (rootEntry members) place = some culprit ∧
          (¬ Entry.Fit culprit ∨ Entry.Overflows culprit) := by
  obtain ⟨chosen, same⟩ := ofDocument_eq_read path writable
  have shown := isWritable_rootEntry writable
  rw [same, ← Entry.read_isOk_iff [] shown finite]
  cases read : Node.read [] (rootEntry members) with
  | ok root =>
      refine ⟨iff_of_true ⟨_, rfl⟩ ⟨root, rfl⟩, ?_, nofun⟩
      rintro _ ⟨⟩
      exact (Entry.mirrors_of_read read).2
  | error error =>
      refine ⟨iff_of_false nofun nofun, nofun, ?_⟩
      rintro _ ⟨⟩
      obtain ⟨place, fault, culprit, located, found, bad⟩ :=
        Entry.located_of_read shown finite read
      refine ⟨place, fault, culprit, located, ?_, found, bad⟩
      rw [located, List.nil_append, TreeError.message, TreeError.placeText_eq]

/-- A call in a block in a file. The call ends at the given offset, the block at 5. -/
def callUpTo (stop : Int) : Members :=
  [("root", Entry.upTo "FILE" 9 [Entry.upTo "Block" 5 [Entry.upTo "Call" stop []]])]

theorem finite_callUpTo (stop : Int) : Entry.Finite (rootEntry (callUpTo stop)) := by
  have call : Entry.Finite (Entry.upTo "Call" stop []) := Entry.finite_upTo nofun
  have block : Entry.Finite (Entry.upTo "Block" 5 [Entry.upTo "Call" stop []]) :=
    Entry.finite_upTo (List.forall_mem_singleton.mpr call)
  exact Entry.finite_upTo (List.forall_mem_singleton.mpr block)

/-- A call that ends with its block is read, and one that goes on behind it is not. -/
theorem ofDocument_mirrors_iff_callUpTo :
    (Entry.WellFormed (rootEntry (callUpTo 5)) ∧
      ∃ tree, ofDocument .null (.object (callUpTo 5)) = .ok tree ∧
        Entry.Mirrors (rootEntry (callUpTo 5)) tree.root) ∧
    ¬ Entry.WellFormed (rootEntry (callUpTo 6)) ∧
      ∃ place fault culprit,
        ofDocument .null (.object (callUpTo 6)) = .error (.node place fault) ∧
        Entry.at? (rootEntry (callUpTo 6)) place = some culprit ∧
        (¬ Entry.Fit culprit ∨ Entry.Overflows culprit) := by
  constructor
  · obtain ⟨accepted, mirrored, _⟩ :=
      ofDocument_mirrors_iff .null (callUpTo 5) (by decide +kernel) (finite_callUpTo 5)
    exact ⟨accepted.mp ⟨_, rfl⟩, _, rfl, mirrored _ rfl⟩
  · obtain ⟨accepted, _, located⟩ :=
      ofDocument_mirrors_iff .null (callUpTo 6) (by decide +kernel) (finite_callUpTo 6)
    have refused : (ofDocument .null (.object (callUpTo 6))).isOk = false := by decide +kernel
    cases read : ofDocument .null (.object (callUpTo 6)) with
    | ok tree =>
        rw [read] at refused
        cases refused
    | error error =>
        obtain ⟨place, fault, culprit, rfl, _, found, bad⟩ := located error read
        refine ⟨fun wellFormed => ?_, place, fault, culprit, rfl, found, bad⟩
        obtain ⟨tree, other⟩ := accepted.mpr wellFormed
        rw [read] at other
        cases other

end Tree

end TreeLint
