import TreeLint.Proofs.NodeLinks

/-!
# What a failed construction leaves behind

A construction that fails at its first child leaves no trace but an empty slot. One that fails later
leaves the children in front of the one at fault adopted into that empty slot: they have no parent,
and yet no later construction takes them. Everything else goes on as it would have without the
failed call, one slot further.
-/

set_option autoImplicit false

namespace TreeLint

/-! ## One more slot -/

/-- A slot, where one more slot comes in at `gap`. -/
def shift (gap slot : Nat) : Nat :=
  if slot < gap then slot else slot + 1

theorem shift_of_lt {gap slot : Nat} (before : slot < gap) : shift gap slot = slot :=
  if_pos before

theorem shift_of_le {gap slot : Nat} (beyond : gap ≤ slot) : shift gap slot = slot + 1 :=
  if_neg (Nat.not_lt.mpr beyond)

theorem shift_inj {gap left right : Nat} : shift gap left = shift gap right ↔ left = right := by
  unfold shift
  split <;> split <;> omega

theorem shift_ne (gap slot : Nat) : shift gap slot ≠ gap := by
  unfold shift
  split <;> omega

def Cell.moved (gap : Nat) (cell : Cell) : Cell :=
  ⟨cell.node, cell.children.map (shift gap), cell.owner.map (shift gap)⟩

namespace Assembly

def Call.moved (gap : Nat) : Call → Call
  | .node kind span attributes children => .node kind span attributes (children.map (shift gap))
  | .tree root path => .tree (shift gap root) path

/-- The nodes that a call is to adopt. -/
def Call.children : Call → List Nat
  | .node _ _ _ children => children
  | .tree _ _ => []

/-- Which calls of a program go through. -/
def verdicts (assembly : Assembly) : List Call → List Bool
  | [] => []
  | call :: rest => assembly.accepts call :: (assembly.perform call).verdicts rest

/-! ## Two stores side by side -/

/-- The second store differs from the first by a failed call: it has an empty slot at `gap`, and the
nodes in `lost`, which are free in the first, are adopted into that slot. -/
structure Scarred (gap : Nat) (lost : List Nat) (plain scarred : Assembly) : Prop where
  length : scarred.cells.length = plain.cells.length + 1
  room : gap ≤ plain.cells.length
  hole : scarred.cell? gap = none
  free : ∀ slot ∈ lost, ∃ cell, plain.cell? slot = some cell ∧ cell.owner = none
  cells : ∀ slot, scarred.cell? (shift gap slot) = (plain.cell? slot).map fun cell =>
    if slot ∈ lost then (cell.moved gap).adopted gap else cell.moved gap

namespace Scarred

variable {gap : Nat} {lost : List Nat} {plain scarred : Assembly}

theorem kept (pair : Scarred gap lost plain scarred) {slot : Nat} (spared : slot ∉ lost) :
    scarred.cell? (shift gap slot) = (plain.cell? slot).map (Cell.moved gap) := by
  rw [pair.cells]
  simp only [spared, ↓reduceIte]

theorem map_node (pair : Scarred gap lost plain scarred) (slot : Nat) :
    (scarred.cell? (shift gap slot)).map (·.node) = (plain.cell? slot).map (·.node) := by
  rw [pair.cells, Option.map_map]
  refine congrArg (Option.map · _) (funext fun cell => ?_)
  simp only [Function.comp_apply]
  split <;> rfl

theorem planned (pair : Scarred gap lost plain scarred) (kind : Kind) (span : Span)
    (attributes : Members) (children : List Nat) :
    scarred.planned kind span attributes (children.map (shift gap)) =
      plain.planned kind span attributes children := by
  unfold Assembly.planned
  rw [List.filterMap_map]
  exact congrArg _ (List.filterMap_congr fun slot _ => pair.map_node slot)

/-- Lost nodes have no parent in either store, and the others have the same. -/
theorem parent? (pair : Scarred gap lost plain scarred) (slot : Nat) :
    scarred.parent? (shift gap slot) = (plain.parent? slot).map (shift gap) := by
  unfold Assembly.parent?
  by_cases lose : slot ∈ lost
  · obtain ⟨cell, held, unowned⟩ := pair.free slot lose
    simp [pair.cells, held, unowned, lose, Cell.adopted, pair.hole]
  · rw [pair.kept lose]
    cases plain.cell? slot with
    | none => rfl
    | some cell =>
        cases link : cell.owner with
        | none => simp [Cell.moved, link]
        | some owner =>
            simp only [Cell.moved, link, Option.map_some, Option.bind_eq_bind, Option.bind_some,
              pair.cells owner]
            cases plain.cell? owner <;> rfl

theorem setOwner (pair : Scarred gap lost plain scarred) {slot : Nat} (spared : slot ∉ lost)
    (owner : Nat) :
    Scarred gap lost (plain.setOwner slot owner)
      (scarred.setOwner (shift gap slot) (shift gap owner)) := by
  refine ⟨?length, ?room, ?hole, ?free, ?cells⟩
  case length => rw [length_setOwner, length_setOwner, pair.length]
  case room =>
      rw [length_setOwner]
      exact pair.room
  case hole =>
      rw [cell?_setOwner, if_neg (shift_ne gap slot).symm]
      exact pair.hole
  case free =>
      intro other lose
      have apart : other ≠ slot := fun same => spared (same ▸ lose)
      rw [cell?_setOwner, if_neg apart]
      exact pair.free other lose
  case cells =>
      intro other
      rw [cell?_setOwner, cell?_setOwner]
      by_cases same : other = slot
      · subst same
        rw [if_pos rfl, if_pos rfl, pair.kept spared, Option.map_map, Option.map_map]
        refine congrArg (Option.map · _) (funext fun cell => ?_)
        simp only [Function.comp_apply, spared, ↓reduceIte]
        rfl
      · rw [if_neg (mt shift_inj.mp same), if_neg same, pair.cells]

theorem shift_length (pair : Scarred gap lost plain scarred) :
    shift gap plain.cells.length = scarred.cells.length := by
  rw [shift_of_le pair.room, pair.length]

theorem push (pair : Scarred gap lost plain scarred) (cell : Option Cell) :
    Scarred gap lost (plain.push cell) (scarred.push (cell.map (Cell.moved gap))) := by
  have last := pair.shift_length
  refine ⟨?length, ?room, ?hole, ?free, ?cells⟩
  case length => simp [Assembly.push, pair.length]
  case room =>
      simp only [Assembly.push, List.length_append, List.length_singleton]
      exact Nat.le_succ_of_le pair.room
  case hole =>
      rw [cell?_push, ← last, if_neg (shift_ne gap _).symm]
      exact pair.hole
  case free =>
      intro slot lose
      obtain ⟨own, held, unowned⟩ := pair.free slot lose
      refine ⟨own, ?_, unowned⟩
      rw [cell?_push, if_neg (Nat.ne_of_lt (cell?_lt held)), held]
  case cells =>
      intro slot
      rw [cell?_push, cell?_push, ← last]
      by_cases same : slot = plain.cells.length
      · have spared : slot ∉ lost := by
          intro lose
          obtain ⟨own, held, _⟩ := pair.free slot lose
          exact Nat.ne_of_lt (cell?_lt held) same
        rw [if_pos (shift_inj.mpr same), if_pos same]
        simp only [spared, ↓reduceIte]
      · rw [if_neg (mt shift_inj.mp same), if_neg same, pair.cells]

theorem adopt (pair : Scarred gap lost plain scarred) (owner : Nat) (span : Span) (label : String)
    {children : List Nat} (spared : ∀ slot ∈ children, slot ∉ lost) :
    (Assembly.adopt (shift gap owner) span label (children.map (shift gap)) scarred).1.isOk =
        (Assembly.adopt owner span label children plain).1.isOk ∧
      Scarred gap lost (Assembly.adopt owner span label children plain).2
        (Assembly.adopt (shift gap owner) span label (children.map (shift gap)) scarred).2 := by
  induction children generalizing plain scarred with
  | nil => exact ⟨rfl, pair⟩
  | cons first rest ih =>
      have here := spared first List.mem_cons_self
      have held := pair.kept here
      cases own : plain.cell? first with
      | none =>
          rw [own] at held
          simp only [List.map_cons, Assembly.adopt, own, held, Option.map_none]
          exact ⟨rfl, pair⟩
      | some cell =>
          rw [own] at held
          have owned : (cell.moved gap).owner.isSome = cell.owner.isSome := Option.isSome_map
          have node : (cell.moved gap).node = cell.node := rfl
          simp only [List.map_cons, Assembly.adopt, own, held, Option.map_some, owned, node]
          split
          · exact ⟨rfl, pair⟩
          · split
            · exact ⟨rfl, pair⟩
            · exact ih (pair.setOwner here owner) fun slot member =>
                spared slot (List.mem_cons_of_mem first member)

theorem construct (pair : Scarred gap lost plain scarred) (kind : Kind) (span : Span)
    (attributes : Members) {children : List Nat} (spared : ∀ slot ∈ children, slot ∉ lost) :
    (scarred.construct kind span attributes (children.map (shift gap))).1.isOk =
        (plain.construct kind span attributes children).1.isOk ∧
      Scarred gap lost (plain.construct kind span attributes children).2
        (scarred.construct kind span attributes (children.map (shift gap))).2 := by
  obtain ⟨alike, adopted⟩ := pair.adopt plain.cells.length span
    (plain.planned kind span attributes children).label spared
  rw [construct_eq, construct_eq, pair.planned]
  rw [pair.shift_length] at alike adopted
  -- Of the two adoptions only what they have in common matters.
  generalize Assembly.adopt plain.cells.length span _ children plain = left at alike adopted ⊢
  generalize Assembly.adopt scarred.cells.length span _ _ scarred = right at alike adopted ⊢
  obtain ⟨leftResult, left⟩ := left
  obtain ⟨rightResult, right⟩ := right
  cases leftResult with
  | ok _ =>
      cases rightResult with
      | ok _ => exact ⟨rfl, adopted.push (some _)⟩
      | error _ => cases alike
  | error _ =>
      cases rightResult with
      | ok _ => cases alike
      | error _ => exact ⟨rfl, adopted.push none⟩

/-- A call that names no lost node fares alike in both stores. -/
theorem perform (pair : Scarred gap lost plain scarred) {call : Call}
    (spared : ∀ slot ∈ call.children, slot ∉ lost) :
    scarred.accepts (call.moved gap) = plain.accepts call ∧
      Scarred gap lost (plain.perform call) (scarred.perform (call.moved gap)) := by
  cases call with
  | node kind span attributes children => exact pair.construct kind span attributes spared
  | tree root path =>
      refine ⟨?_, pair⟩
      simp only [Call.moved, accepts, tree, pair.parent?, Option.isSome_map]
      rw [pair.cells]
      cases plain.cell? root with
      | none => rfl
      | some cell =>
          simp only [Option.map_some]
          cases (plain.parent? root).isSome <;> rfl

theorem performAll (pair : Scarred gap lost plain scarred) {calls : List Call}
    (spared : ∀ call ∈ calls, ∀ slot ∈ call.children, slot ∉ lost) :
    scarred.verdicts (calls.map (·.moved gap)) = plain.verdicts calls ∧
      Scarred gap lost (plain.performAll calls) (scarred.performAll (calls.map (·.moved gap))) := by
  induction calls generalizing plain scarred with
  | nil => exact ⟨rfl, pair⟩
  | cons call rest ih =>
      obtain ⟨alike, after⟩ := pair.perform (spared call List.mem_cons_self)
      obtain ⟨verdicts, last⟩ := ih after fun other member =>
        spared other (List.mem_cons_of_mem call member)
      refine ⟨?_, last⟩
      rw [List.map_cons, Assembly.verdicts, Assembly.verdicts, alike, verdicts]

end Scarred

/-! ## Nodes that no construction takes -/

/-- Links are never undone. -/
theorem cell?_perform {assembly : Assembly} {slot : Nat} (before : slot < assembly.cells.length)
    (settled : ∀ cell, assembly.cell? slot = some cell → cell.owner ≠ none) (call : Call) :
    (assembly.perform call).cell? slot = assembly.cell? slot := by
  rcases assembly.perform_cases call with same | ⟨span, front, added, adoptable, _, grown⟩
  · rw [same]
  · have untouched : slot ∉ front := by
      intro adopted
      obtain ⟨cell, held, unowned, _⟩ := adoptable.free slot adopted
      exact settled cell held unowned
    rw [grown, cell?_grow, if_neg (Nat.ne_of_lt before), if_neg untouched]

theorem length_le_perform (assembly : Assembly) (call : Call) :
    assembly.cells.length ≤ (assembly.perform call).cells.length := by
  rcases assembly.perform_cases call with same | ⟨span, front, added, _, _, grown⟩
  · exact Nat.le_of_eq (by rw [same])
  · rw [grown, length_grow]
    exact Nat.le_succ _

theorem cell?_performAll {assembly : Assembly} {slot : Nat} (before : slot < assembly.cells.length)
    (settled : ∀ cell, assembly.cell? slot = some cell → cell.owner ≠ none) (calls : List Call) :
    (assembly.performAll calls).cell? slot = assembly.cell? slot := by
  induction calls generalizing assembly with
  | nil => rfl
  | cons call rest ih =>
      have here := cell?_perform before settled call
      have longer := Nat.lt_of_lt_of_le before (assembly.length_le_perform call)
      exact (ih longer (here ▸ settled)).trans here

theorem accepts_eq_false {assembly : Assembly} {slot : Nat} {cell : Cell}
    (held : assembly.cell? slot = some cell) (owned : cell.owner ≠ none) (kind : Kind) (span : Span)
    (attributes : Members) {children : List Nat} (named : slot ∈ children) :
    assembly.accepts (.node kind span attributes children) = false := by
  rw [accepts]
  rcases assembly.construct_cases kind span attributes children with
    ⟨adoptable, _⟩ | ⟨_, _, _, _, _, _, _, result⟩
  · obtain ⟨free, present, unowned, _⟩ := adoptable.free slot named
    rw [held] at present
    cases present
    exact absurd unowned owned
  · rw [result]
    rfl

/-! ## Failed calls -/

/-- The links of a store lead to slots that it has. -/
theorem Sound.moved_eq {assembly : Assembly} (sound : assembly.Sound) {slot : Nat} {cell : Cell}
    (held : assembly.cell? slot = some cell) : cell.moved assembly.cells.length = cell := by
  have children : cell.children.map (shift assembly.cells.length) = cell.children := by
    refine (List.map_congr_left fun child lists => ?_).trans (List.map_id _)
    obtain ⟨own, present, _⟩ := (sound.listed held child).mp lists
    exact shift_of_lt (cell?_lt present)
  have owner : cell.owner.map (shift assembly.cells.length) = cell.owner := by
    cases link : cell.owner with
    | none => rfl
    | some owner => exact congrArg some (shift_of_lt (sound.later held link).2)
  rw [Cell.moved, children, owner]

/-- A failed call leaves the store that it found, with the children in front of the one at fault
lost. -/
theorem Sound.scarred {assembly : Assembly} (sound : assembly.Sound) {span : Span} {front : List Nat}
    (adoptable : assembly.Adoptable span front) :
    Scarred assembly.cells.length front assembly (assembly.grow front none) := by
  have present : ∀ slot ∈ front, ∃ cell, assembly.cell? slot = some cell ∧ cell.owner = none := by
    intro slot adopted
    obtain ⟨cell, held, unowned, _⟩ := adoptable.free slot adopted
    exact ⟨cell, held, unowned⟩
  refine ⟨assembly.length_grow front none, Nat.le_refl _, ?hole, present, ?cells⟩
  case hole => rw [cell?_grow, if_pos rfl]
  case cells =>
      intro slot
      by_cases before : slot < assembly.cells.length
      · rw [shift_of_lt before, cell?_grow, if_neg (Nat.ne_of_lt before)]
        cases held : assembly.cell? slot with
        | none => simp
        | some cell =>
            simp only [Option.map_some, sound.moved_eq held]
            split <;> rfl
      · have beyond := Nat.le_of_not_lt before
        have fresh : slot + 1 ∉ front := by
          intro adopted
          obtain ⟨cell, held, _⟩ := present _ adopted
          have := cell?_lt held
          omega
        rw [shift_of_le beyond, cell?_grow, if_neg (by omega), if_neg fresh, cell?_eq_none beyond,
          cell?_eq_none (Nat.le_succ_of_le beyond)]
        rfl

/-- A program of later calls fares after a failed call as it would have without it: the same calls
go through, and the nodes have the same parents in the end. -/
def FaresAlike (assembly next : Assembly) (later : List Call) : Prop :=
  next.verdicts (later.map (·.moved assembly.cells.length)) = assembly.verdicts later ∧
    ∀ slot, (next.performAll (later.map (·.moved assembly.cells.length))).parent?
        (shift assembly.cells.length slot) =
      ((assembly.performAll later).parent? slot).map (shift assembly.cells.length)

/-- A failed call changes nothing that matters: the children that it was given are as they were, and
whatever is called later fares alike. -/
def Harmless (assembly next : Assembly) (children : List Nat) : Prop :=
  (∀ child ∈ children, next.cell? child = assembly.cell? child) ∧
    ∀ later, assembly.FaresAlike next later

/-- A node adopted by a failed call is linked to the empty slot for good. -/
theorem Adoptable.orphaned {assembly : Assembly} {span : Span} {front : List Nat}
    (adoptable : assembly.Adoptable span front) {slot : Nat} (lost : slot ∈ front)
    (later : List Call) :
    (∃ cell, ((assembly.grow front none).performAll later).cell? slot = some cell ∧
        cell.owner = some assembly.cells.length) ∧
      ((assembly.grow front none).performAll later).cell? assembly.cells.length = none := by
  obtain ⟨cell, held, _⟩ := adoptable.free slot lost
  have before := cell?_lt held
  have linked : (assembly.grow front none).cell? slot = some (cell.adopted assembly.cells.length) := by
    rw [cell?_grow, if_neg (Nat.ne_of_lt before), if_pos lost, held]
    rfl
  have hole : (assembly.grow front none).cell? assembly.cells.length = none := by
    rw [cell?_grow, if_pos rfl]
  have grown := assembly.length_grow front none
  refine ⟨⟨cell.adopted assembly.cells.length, ?_, rfl⟩, ?_⟩
  · rw [cell?_performAll (by omega) ?_ later, linked]
    intro own present
    rw [linked] at present
    cases present
    exact Option.some_ne_none _
  · rw [cell?_performAll (by omega) ?_ later, hole]
    intro own present
    rw [hole] at present
    cases present

theorem Faulty.not_free {assembly : Assembly} {span : Span} {label : String} {slot : Nat}
    {error : AssemblyError} (faulty : assembly.Faulty span label [] slot error) :
    ¬ assembly.Free span slot := by
  rintro ⟨cell, held, unowned, within⟩
  cases faulty with
  | empty absent =>
      rw [held] at absent
      cases absent
  | owned present taken =>
      rw [held] at present
      cases present
      exact taken.elim (fun owned => owned unowned) nofun
  | outside present _ _ outside =>
      rw [held] at present
      cases present
      rw [within] at outside
      cases outside

section Harm

variable {assembly : Assembly} {span : Span} {front : List Nat}

theorem Sound.faresAlike (sound : assembly.Sound) (adoptable : assembly.Adoptable span front)
    {later : List Call} (spared : ∀ call ∈ later, ∀ child ∈ call.children, child ∉ front) :
    assembly.FaresAlike (assembly.grow front none) later := by
  obtain ⟨verdicts, after⟩ := (sound.scarred adoptable).performAll spared
  exact ⟨verdicts, after.parent?⟩

theorem Adoptable.not_harmless (adoptable : assembly.Adoptable span front) {child : Nat}
    (lost : child ∈ front) {children : List Nat} (named : child ∈ children) :
    ¬ assembly.Harmless (assembly.grow front none) children := by
  rintro ⟨unchanged, _⟩
  obtain ⟨⟨cell, held, link⟩, _⟩ := adoptable.orphaned lost []
  obtain ⟨own, present, unowned, _⟩ := adoptable.free child lost
  rw [performAll, List.foldl_nil, unchanged child named, present] at held
  cases held
  rw [unowned] at link
  cases link

theorem Sound.harmless_grow_nil (sound : assembly.Sound) (nothing : assembly.Adoptable span [])
    (children : List Nat) : assembly.Harmless (assembly.grow [] none) children := by
  refine ⟨fun child _ => ?_, fun later => ?_⟩
  · rw [cell?_grow, if_neg List.not_mem_nil]
    split
    next last => rw [last, cell?_eq_none (Nat.le_refl _)]
    next => rfl
  · exact sound.faresAlike nothing fun _ _ _ _ => List.not_mem_nil

end Harm

/-- A failed construction is harmless exactly when its first child is at fault. In any case the
children in front of the one at fault end up without a parent and in no later construction, and
calls that leave them alone fare as they would have without the failed one. -/
theorem construct_harmless_iff {built : List Call} {assembly next : Assembly}
    (reached : initial.performAll built = assembly) {kind : Kind} {span : Span}
    {attributes : Members} {children : List Nat} {error : AssemblyError}
    (failed : assembly.construct kind span attributes children = (.error error, next)) :
    (assembly.Harmless next children ↔
      ∃ first rest, children = first :: rest ∧ ¬ assembly.Free span first) ∧
    ∃ front slot back, children = front ++ slot :: back ∧ assembly.Adoptable span front ∧
      assembly.Faulty span (assembly.planned kind span attributes children).label front slot error ∧
      (∀ later : List Call, (∀ call ∈ later, ∀ child ∈ call.children, child ∉ front) →
        assembly.FaresAlike next later) ∧
      ∀ child ∈ front, ∀ later : List Call, (next.performAll later).parent? child = none ∧
        ∀ kind span attributes children, child ∈ children →
          (next.performAll later).accepts (.node kind span attributes children) = false := by
  have sound : assembly.Sound := reached ▸ sound_initial.performAll built
  rcases assembly.construct_cases kind span attributes children with
    ⟨_, result⟩ | ⟨front, slot, back, _, split, adoptable, faulty, result⟩
  · rw [result] at failed
    cases failed
  · rw [result] at failed
    cases failed
    refine ⟨?harmless, front, slot, back, split, adoptable, faulty,
      fun later => sound.faresAlike adoptable, ?orphans⟩
    case harmless =>
        cases front with
        | nil =>
            exact iff_of_true (sound.harmless_grow_nil adoptable children)
              ⟨slot, back, split, faulty.not_free⟩
        | cons first rest =>
            have named : first ∈ children := by simp [split]
            refine iff_of_false (adoptable.not_harmless List.mem_cons_self named) ?_
            rintro ⟨other, more, starts, unfree⟩
            rw [split] at starts
            cases starts
            exact unfree (adoptable.free first List.mem_cons_self)
    case orphans =>
        intro child lost later
        obtain ⟨⟨cell, held, link⟩, hole⟩ := adoptable.orphaned lost later
        refine ⟨by simp [parent?, held, link, hole], ?_⟩
        intro kind span attributes children named
        exact accepts_eq_false held (by simp [link]) kind span attributes named

/-- Calls for two words, the second outside the first five characters. -/
def twoWords : List Call :=
  [.node .identifier ⟨⟨1, 0, 0⟩, ⟨1, 4, 4⟩, by decide⟩ [] [],
    .node .identifier ⟨⟨1, 6, 6⟩, ⟨1, 9, 9⟩, by decide⟩ [] []]

def firstFive : Span := ⟨⟨1, 0, 0⟩, ⟨1, 5, 5⟩, by decide⟩

theorem construct_harmless_iff_twoWords :
    ∃ error next, (initial.performAll twoWords).construct .block firstFive [] [0, 1] =
        (.error error, next) ∧
      (initial.performAll twoWords).Free firstFive 0 ∧
      ¬ (initial.performAll twoWords).Harmless next [0, 1] := by
  have free : (initial.performAll twoWords).Free firstFive 0 := ⟨_, rfl, rfl, by decide⟩
  refine ⟨_, _, rfl, free, fun harmless => ?_⟩
  obtain ⟨first, rest, starts, unfree⟩ :=
    (@construct_harmless_iff twoWords _ _ rfl .block firstFive [] [0, 1] _ rfl).1.mp harmless
  cases starts
  exact unfree free

/-- The first word could be put into a block, until a block with both words failed. -/
theorem construct_loses_word :
    ∃ error next, (initial.performAll twoWords).construct .block firstFive [] [0, 1] =
        (.error error, next) ∧
      (initial.performAll twoWords).accepts (.node .block firstFive [] [0]) = true ∧
      next.accepts (.node .block firstFive [] [0]) = false :=
  ⟨_, _, rfl, by decide, by decide⟩

end Assembly

end TreeLint
