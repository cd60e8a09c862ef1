import TreeLint.Proofs.ListsAndResults
import TreeLint.Tree.Reader

/-!
# Which errors reading a document ends with

A document is read part by part, and the first part at fault decides the error. All errors are of
one kind, unless an infinite coordinate is met before anything else is at fault.
-/

set_option autoImplicit false

namespace TreeLint

/-! ## Positions and spans -/

theorem Value.toCoordinate_eq_infinite_iff {value : Value} :
    value.toCoordinate = .error .infinite ↔ ∃ negative, value = .real (.infinite negative) := by
  cases value with
  | real number => cases number <;> simp [toCoordinate]
  | text text =>
      simp only [toCoordinate, reduceCtorEq, exists_const, iff_false]
      split <;> simp
  | _ => simp [toCoordinate]

namespace Position

/-- The coordinates that a position gives, in the order in which they are read. -/
def given : Value → List (Option Value)
  | .object members => ["line", "column", "offset"].map (Members.get? members)
  | .list [line, column, offset] => [some line, some column, some offset]
  | _ => []

/-- Of coordinates read in order, an infinite one is met; those in front of it are fit. -/
inductive MeetsInfinite : List (Option Value) → Prop where
  | here {negative rest} : MeetsInfinite (some (.real (.infinite negative)) :: rest)
  | later {value number rest} :
      coordinate value = .ok number → MeetsInfinite rest → MeetsInfinite (some value :: rest)

theorem MeetsInfinite.mem {coordinates : List (Option Value)}
    (meets : MeetsInfinite coordinates) :
    ∃ negative, some (.real (.infinite negative)) ∈ coordinates := by
  induction meets with
  | here => exact ⟨_, List.mem_cons_self⟩
  | later _ _ ih =>
      obtain ⟨negative, member⟩ := ih
      exact ⟨negative, List.mem_cons_of_mem _ member⟩

theorem bind_coordinate_iff {α : Type} {value : Value} {next : Int → Except LocationError α}
    {rest : List (Option Value)}
    (later : ∀ number, next number = .error (.coordinate .infinite) ↔ MeetsInfinite rest) :
    (coordinate value >>= next) = .error (.coordinate .infinite) ↔
      MeetsInfinite (some value :: rest) := by
  have own : coordinate value = .error (.coordinate .infinite) ↔
      ∃ negative, value = .real (.infinite negative) := by
    rw [← Value.toCoordinate_eq_infinite_iff, coordinate, mapError_eq_error_iff]
    simp
  rw [bind_eq_error_iff, own]
  constructor
  · rintro (⟨negative, rfl⟩ | ⟨number, fit, failed⟩)
    · exact .here
    · exact .later fit ((later number).mp failed)
  · intro meets
    cases meets with
    | here => exact .inl ⟨_, rfl⟩
    | later fit meets => exact .inr ⟨_, fit, (later _).mpr meets⟩

theorem bind_coordinateAt_iff {α : Type} {members : Members} {key : String}
    {next : Int → Except LocationError α} {rest : List (Option Value)}
    (later : ∀ number, next number = .error (.coordinate .infinite) ↔ MeetsInfinite rest) :
    (coordinateAt members key >>= next) = .error (.coordinate .infinite) ↔
      MeetsInfinite (members.get? key :: rest) := by
  unfold coordinateAt
  cases members.get? key with
  | none =>
      have unmet : ¬ MeetsInfinite (none :: rest) := nofun
      simp [bind, Except.bind, unmet]
  | some value => exact bind_coordinate_iff later

theorem ofValue_eq_infinite_iff {value : Value} :
    ofValue value = .error (.coordinate .infinite) ↔ MeetsInfinite (given value) := by
  have unmet : ¬ MeetsInfinite [] := nofun
  have ended (position : Position) :
      (pure position : Except LocationError Position) = .error (.coordinate .infinite) ↔
        MeetsInfinite [] := by
    simp [pure, Except.pure, unmet]
  unfold ofValue given
  split
  next members =>
    exact bind_coordinateAt_iff fun line => bind_coordinateAt_iff fun column =>
      bind_coordinateAt_iff fun offset => ended ⟨line, column, offset⟩
  next =>
    exact bind_coordinate_iff fun line => bind_coordinate_iff fun column =>
      bind_coordinate_iff fun offset => ended ⟨line, column, offset⟩
  next => simp [unmet]

end Position

namespace Span

/-- Reading a span meets an infinite coordinate: in its start, or behind a fit start in its end. -/
inductive MeetsInfinite : Value → Prop where
  | start {members : Members} {start : Value} :
      members.get? "start" = some start → Position.MeetsInfinite (Position.given start) →
      MeetsInfinite (.object members)
  | stop {members : Members} {start stop : Value} {position : Position} :
      members.get? "start" = some start → Position.ofValue start = .ok position →
      members.get? "end" = some stop → Position.MeetsInfinite (Position.given stop) →
      MeetsInfinite (.object members)

theorem positionAt_eq_infinite_iff {members : Members} {key : String} :
    positionAt members key = .error (.coordinate .infinite) ↔
      ∃ value, members.get? key = some value ∧
        Position.MeetsInfinite (Position.given value) := by
  unfold positionAt
  cases members.get? key with
  | none => simp
  | some value => simp [Position.ofValue_eq_infinite_iff]

theorem positionAt_eq_ok_iff {members : Members} {key : String} {position : Position} :
    positionAt members key = .ok position ↔
      ∃ value, members.get? key = some value ∧ Position.ofValue value = .ok position := by
  unfold positionAt
  cases members.get? key with
  | none => simp
  | some value => simp

theorem between_ne_infinite (start stop : Position) :
    between start stop ≠ .error (.coordinate .infinite) := by
  unfold between
  split <;> simp

theorem ofValue_eq_infinite_iff {value : Value} :
    ofValue value = .error (.coordinate .infinite) ↔ MeetsInfinite value := by
  constructor
  · intro failed
    unfold ofValue at failed
    split at failed
    next members =>
      rcases bind_eq_error_iff.mp failed with first | ⟨position, fit, failed⟩
      · obtain ⟨start, present, meets⟩ := positionAt_eq_infinite_iff.mp first
        exact .start present meets
      · obtain ⟨start, present, fit⟩ := positionAt_eq_ok_iff.mp fit
        rcases bind_eq_error_iff.mp failed with second | ⟨stop, _, failed⟩
        · obtain ⟨stop, ended, meets⟩ := positionAt_eq_infinite_iff.mp second
          exact .stop present fit ended meets
        · exact absurd failed (between_ne_infinite position stop)
    next => cases failed
  · intro meets
    cases meets with
    | start present meets =>
        exact bind_eq_error_iff.mpr (.inl (positionAt_eq_infinite_iff.mpr ⟨_, present, meets⟩))
    | stop present fit ended meets =>
        refine bind_eq_error_iff.mpr
          (.inr ⟨_, positionAt_eq_ok_iff.mpr ⟨_, present, fit⟩, ?_⟩)
        exact bind_eq_error_iff.mpr (.inl (positionAt_eq_infinite_iff.mpr ⟨_, ended, meets⟩))

end Span

/-! ## Nodes -/

namespace Node

theorem readKind_ne_infinite (place : List Nat) (members : Members) :
    readKind place members ≠ .error .infiniteCoordinate := by
  unfold readKind
  split
  · simp
  · split
    · split <;> simp
    · simp

theorem readAttributes_ne_infinite (place : List Nat) (members : Members) :
    readAttributes place members ≠ .error .infiniteCoordinate := by
  unfold readAttributes
  split <;> simp

theorem enclose_ne_infinite (place : List Nat) (node : Node) :
    enclose place node ≠ .error .infiniteCoordinate := by
  unfold enclose
  split
  · split <;> simp
  · simp

theorem readSpan_eq_infinite_iff {place : List Nat} {members : Members} :
    readSpan place members = .error .infiniteCoordinate ↔
      ∃ value, members.get? "span" = some value ∧ Span.MeetsInfinite value := by
  unfold readSpan
  cases members.get? "span" with
  | none => simp
  | some value =>
      have only (error : LocationError) :
          TreeError.ofLocation place error = .infiniteCoordinate ↔
            error = .coordinate .infinite := by
        unfold TreeError.ofLocation
        split <;> simp_all
      simp [mapError_eq_error_iff, only, Span.ofValue_eq_infinite_iff]

theorem readChildren_eq (place : List Nat) (members : Members) :
    readChildren place members =
      match members.get? "children" with
      | some value => readList place value
      | none => .ok [] := by
  induction members with
  | nil => rfl
  | cons member rest ih =>
      obtain ⟨key, value⟩ := member
      rw [readChildren, ih, Members.get?, Members.get?, List.lookup_cons]
      by_cases same : key = "children"
      · simp [same]
      · have other : ("children" == key) = false := by simpa using Ne.symm same
        simp [same, other]

theorem readItems_cons_eq_ok_iff {place : List Nat} {index : Nat} {item : Value}
    {rest : List Value} {nodes : List Node} :
    readItems place index (item :: rest) = .ok nodes ↔
      ∃ node later, read (place ++ [index]) item = .ok node ∧
        readItems place (index + 1) rest = .ok later ∧ nodes = node :: later := by
  rw [readItems, bind_eq_ok_iff]
  constructor
  · rintro ⟨node, fit, more⟩
    obtain ⟨later, read, ended⟩ := bind_eq_ok_iff.mp more
    cases ended
    exact ⟨node, later, fit, read, rfl⟩
  · rintro ⟨node, later, fit, read, rfl⟩
    exact ⟨node, fit, bind_eq_ok_iff.mpr ⟨later, read, rfl⟩⟩

/-- Children are read from left to right, up to the first at fault. -/
theorem readItems_eq_error_iff {place : List Nat} {index : Nat} {items : List Value}
    {error : TreeError} :
    readItems place index items = .error error ↔
      ∃ front item back nodes, items = front ++ item :: back ∧
        readItems place index front = .ok nodes ∧
        read (place ++ [index + front.length]) item = .error error := by
  induction items generalizing index with
  | nil => simp [readItems]
  | cons first rest ih =>
      have shift (front : List Value) :
          index + (first :: front).length = index + 1 + front.length := by
        rw [List.length_cons]
        omega
      rw [readItems, bind_eq_error_iff]
      constructor
      · rintro (failed | ⟨node, fit, more⟩)
        · exact ⟨[], first, rest, [], rfl, by rw [readItems], failed⟩
        · rcases bind_eq_error_iff.mp more with failed | ⟨_, _, impossible⟩
          · obtain ⟨front, item, back, nodes, rfl, read, failed⟩ := ih.mp failed
            refine ⟨first :: front, item, back, node :: nodes, rfl, ?_, ?_⟩
            · exact readItems_cons_eq_ok_iff.mpr ⟨node, nodes, fit, read, rfl⟩
            · rw [shift]
              exact failed
          · cases impossible
      · rintro ⟨front, item, back, nodes, split, fits, failed⟩
        cases front with
        | nil =>
            obtain ⟨rfl, rfl⟩ := List.cons.inj split
            exact .inl failed
        | cons head front =>
            obtain ⟨rfl, rfl⟩ := List.cons.inj split
            obtain ⟨node, later, fit, read, rfl⟩ := readItems_cons_eq_ok_iff.mp fits
            rw [shift] at failed
            refine .inr ⟨node, fit, bind_eq_error_iff.mpr (.inl ?_)⟩
            exact ih.mpr ⟨front, item, back, later, rfl, read, failed⟩

/-- Reading the node at a place meets an infinite coordinate: in its own span, or, when all its own
parts are fit, in a child whose elder siblings are fit. -/
inductive MeetsInfinite : List Nat → Value → Prop where
  | own {place : List Nat} {members : Members} {kind : Kind} {span : Value} :
      readKind place members = .ok kind → members.get? "span" = some span →
      Span.MeetsInfinite span → MeetsInfinite place (.object members)
  | child {place : List Nat} {members : Members} {kind : Kind} {span : Span}
      {attributes : Members} {front back : List Value} {item : Value} {nodes : List Node} :
      readKind place members = .ok kind → readSpan place members = .ok span →
      readAttributes place members = .ok attributes →
      members.get? "children" = some (.list (front ++ item :: back)) →
      readItems place 0 front = .ok nodes → MeetsInfinite (place ++ [front.length]) item →
      MeetsInfinite place (.object members)

theorem readChildren_eq_infinite_iff {place : List Nat} {members : Members} :
    readChildren place members = .error .infiniteCoordinate ↔
      ∃ front item back nodes,
        members.get? "children" = some (.list (front ++ item :: back)) ∧
          readItems place 0 front = .ok nodes ∧
          read (place ++ [front.length]) item = .error .infiniteCoordinate := by
  rw [readChildren_eq]
  cases members.get? "children" with
  | none => simp
  | some value =>
      cases value with
      | list items => simp [readList, readItems_eq_error_iff]
      | _ => simp [readList, ite_eq_iff]

theorem read_eq_infinite_iff {place : List Nat} {members : Members} :
    read place (.object members) = .error .infiniteCoordinate ↔
      ∃ kind, readKind place members = .ok kind ∧
        (readSpan place members = .error .infiniteCoordinate ∨
          ∃ span, readSpan place members = .ok span ∧
            ∃ attributes, readAttributes place members = .ok attributes ∧
              readChildren place members = .error .infiniteCoordinate) := by
  simp only [read, bind_eq_error_iff, readKind_ne_infinite, readAttributes_ne_infinite,
    enclose_ne_infinite, false_or, and_false, exists_false, or_false]

/-- A child takes up less of a document than the node that lists it. -/
theorem sizeOf_child_lt {members : Members} {items : List Value} {item : Value}
    (listed : members.get? "children" = some (.list items)) (member : item ∈ items) :
    sizeOf item < sizeOf (Value.object members) := by
  obtain ⟨front, back, rfl, _⟩ := List.lookup_eq_some_iff.mp listed
  have inItems : sizeOf item < sizeOf items := List.sizeOf_lt_of_mem member
  have inMembers : sizeOf ("children", Value.list items) <
      sizeOf (front ++ ("children", Value.list items) :: back) :=
    List.sizeOf_lt_of_mem (List.mem_append_right front List.mem_cons_self)
  simp only [Prod.mk.sizeOf_spec, Value.list.sizeOf_spec] at inMembers
  rw [Value.object.sizeOf_spec]
  omega

theorem meetsInfinite_of_read {value : Value} {place : List Nat}
    (failed : read place value = .error .infiniteCoordinate) : MeetsInfinite place value := by
  cases value with
  | object members =>
      obtain ⟨kind, known, own | ⟨span, spanned, attributes, described, below⟩⟩ :=
        read_eq_infinite_iff.mp failed
      · obtain ⟨span, present, meets⟩ := readSpan_eq_infinite_iff.mp own
        exact .own known present meets
      · obtain ⟨front, item, back, nodes, listed, fits, failed⟩ :=
          readChildren_eq_infinite_iff.mp below
        have smaller := sizeOf_child_lt listed (List.mem_append_right front List.mem_cons_self)
        exact .child known spanned described listed fits (meetsInfinite_of_read failed)
  | _ => cases failed
termination_by sizeOf value

theorem MeetsInfinite.read {place : List Nat} {value : Value} (meets : MeetsInfinite place value) :
    Node.read place value = .error .infiniteCoordinate := by
  induction meets with
  | own known present meets =>
      refine read_eq_infinite_iff.mpr ⟨_, known, .inl ?_⟩
      exact readSpan_eq_infinite_iff.mpr ⟨_, present, meets⟩
  | child known spanned described listed fits _ ih =>
      refine read_eq_infinite_iff.mpr ⟨_, known, .inr ⟨_, spanned, _, described, ?_⟩⟩
      exact readChildren_eq_infinite_iff.mpr ⟨_, _, _, _, listed, fits, ih⟩

/-- A coordinate in a position of the node that a document gives, or of one below it. -/
inductive Gives (coordinate : Value) : Value → Prop where
  | own {members ends : Members} {key : String} {position : Value} :
      members.get? "span" = some (.object ends) → key = "start" ∨ key = "end" →
      ends.get? key = some position → some coordinate ∈ Position.given position →
      Gives coordinate (.object members)
  | child {members : Members} {items : List Value} {item : Value} :
      members.get? "children" = some (.list items) → item ∈ items → Gives coordinate item →
      Gives coordinate (.object members)

theorem MeetsInfinite.gives {place : List Nat} {value : Value}
    (meets : MeetsInfinite place value) : ∃ negative, Gives (.real (.infinite negative)) value := by
  induction meets with
  | own _ present meets =>
      cases meets with
      | start started meets =>
          obtain ⟨negative, member⟩ := meets.mem
          exact ⟨negative, .own present (.inl rfl) started member⟩
      | stop _ _ ended meets =>
          obtain ⟨negative, member⟩ := meets.mem
          exact ⟨negative, .own present (.inr rfl) ended member⟩
  | child _ _ _ listed _ _ ih =>
      obtain ⟨negative, given⟩ := ih
      exact ⟨negative, .child listed (List.mem_append_right _ List.mem_cons_self) given⟩

end Node

/-! ## Documents -/

theorem TreeError.errorType_eq_iff {error : TreeError} :
    error.errorType = "ValueError" ↔ error ≠ .infiniteCoordinate := by
  cases error <;> simp [errorType]

namespace Tree

/-- Reading a document meets an infinite coordinate; the path of the tree is fit. -/
def MeetsInfinite (path document : Value) : Prop :=
  ∃ members chosen, document = .object members ∧ choosePath path members = .ok chosen ∧
    Node.MeetsInfinite [] ((Members.get? members "root").getD document)

theorem choosePath_ne_infinite (path : Value) (members : Members) :
    choosePath path members ≠ .error .infiniteCoordinate := by
  unfold choosePath
  split
  · dsimp only
    split <;> simp
  · simp

theorem ofDocument_eq_infinite_iff {path document : Value} :
    ofDocument path document = .error .infiniteCoordinate ↔ MeetsInfinite path document := by
  constructor
  · intro failed
    unfold ofDocument at failed
    split at failed
    next members =>
      rcases bind_eq_error_iff.mp failed with failed | ⟨chosen, fit, failed⟩
      · exact absurd failed (choosePath_ne_infinite path members)
      · rcases bind_eq_error_iff.mp failed with failed | ⟨_, _, impossible⟩
        · exact ⟨members, chosen, rfl, fit, Node.meetsInfinite_of_read failed⟩
        · cases impossible
    next => cases failed
  · rintro ⟨members, chosen, rfl, fit, meets⟩
    exact bind_eq_error_iff.mpr (.inr ⟨chosen, fit, bind_eq_error_iff.mpr (.inl meets.read)⟩)

/-- Reading a document gives a tree or an error about unfit values, whatever the document and the
path, unless it meets an infinite coordinate. A document without such coordinates meets none. -/
theorem ofDocument_answers_iff (path document : Value) :
    (((∃ tree, ofDocument path document = .ok tree) ∨
        ∃ error, ofDocument path document = .error error ∧ error.errorType = "ValueError") ↔
      ¬ MeetsInfinite path document) ∧
    (MeetsInfinite path document → ∃ members negative, document = .object members ∧
      Node.Gives (.real (.infinite negative)) ((Members.get? members "root").getD document)) := by
  constructor
  · rw [← ofDocument_eq_infinite_iff]
    cases ofDocument path document with
    | ok tree => simp
    | error error => simp [TreeError.errorType_eq_iff]
  · rintro ⟨members, _, given, _, meets⟩
    obtain ⟨negative, gives⟩ := meets.gives
    exact ⟨members, negative, given, gives⟩

/-- A document whose only node ends at an infinite offset. -/
def endless : Value :=
  .object [("kind", .text "File"),
    ("span", .object [("start", .list [.integer 1, .integer 0, .integer 0]),
      ("end", .list [.integer 1, .integer 0, .real (.infinite false)])])]

theorem ofDocument_endless :
    ∃ error, ofDocument .null endless = .error error ∧ error.errorType = "OverflowError" :=
  ⟨_, rfl, rfl⟩

end Tree

end TreeLint
