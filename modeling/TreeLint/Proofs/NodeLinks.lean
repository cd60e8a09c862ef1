import Mathlib.Data.List.Perm.Subperm
import Mathlib.Logic.Relation
import TreeLint.Proofs.AssemblyProperties

/-!
# Links between nodes in slots

After any program of calls, also of calls that fail, the links to parents and the lists of children
agree: a node is linked to the one node that lists it, which was built later and lies around it.
Links therefore never run in a circle, and the way up from a node ends.
-/

set_option autoImplicit false

namespace TreeLint.Assembly

/-! ## The invariant -/

/-- What every call preserves. It speaks of the slots that nodes were adopted into, also where the
construction failed and the slot is empty. -/
structure Sound (assembly : Assembly) : Prop where
  later : ∀ {slot owner : Nat} {cell : Cell}, assembly.cell? slot = some cell →
    cell.owner = some owner → slot < owner ∧ owner < assembly.cells.length
  listed : ∀ {owner : Nat} {above : Cell}, assembly.cell? owner = some above → ∀ slot,
    slot ∈ above.children ↔ ∃ cell, assembly.cell? slot = some cell ∧ cell.owner = some owner
  once : ∀ {owner : Nat} {above : Cell}, assembly.cell? owner = some above → above.children.Nodup
  inside : ∀ {slot owner : Nat} {cell above : Cell}, assembly.cell? slot = some cell →
    cell.owner = some owner → assembly.cell? owner = some above →
    above.node.span.contains cell.node.span = true
  /-- The children of a node are the nodes in the slots that it lists. -/
  shown : ∀ {owner : Nat} {above : Cell}, assembly.cell? owner = some above →
    above.node.children.map some =
      above.children.map fun slot => (assembly.cell? slot).map (·.node)

theorem sound_initial : initial.Sound :=
  ⟨nofun, nofun, nofun, nofun, nofun⟩

/-- What a construction may put into the slot that it takes. -/
structure Fits (assembly : Assembly) (span : Span) (front : List Nat) (cell : Cell) : Prop where
  unowned : cell.owner = none
  lists : cell.children = front
  spans : cell.node.span = span
  shows : cell.node.children.map some = front.map fun slot => (assembly.cell? slot).map (·.node)

theorem Adoptable.fits {assembly : Assembly} {span : Span} {children : List Nat}
    (adoptable : assembly.Adoptable span children) (kind : Kind) (attributes : Members) :
    assembly.Fits span children
      ⟨assembly.planned kind span attributes children, children, none⟩ := by
  refine ⟨rfl, rfl, rfl, ?_⟩
  have present := adoptable.free
  clear adoptable
  induction children with
  | nil => rfl
  | cons first rest ih =>
      obtain ⟨cell, held, _⟩ := present first List.mem_cons_self
      have later := ih fun slot member => present slot (List.mem_cons_of_mem first member)
      simp only [planned] at later ⊢
      simp [held, later]

section Growth

variable {assembly : Assembly} {span : Span} {front : List Nat} {added : Option Cell}

/-- What is found in a slot after growth: the new cell, or one that was there, which may have been
adopted since. -/
theorem cell?_grow_cases {slot : Nat} {cell : Cell}
    (held : (assembly.grow front added).cell? slot = some cell) :
    (slot = assembly.cells.length ∧ added = some cell) ∨
      slot < assembly.cells.length ∧ ∃ old, assembly.cell? slot = some old ∧
        cell.node = old.node ∧ cell.children = old.children ∧
        cell.owner = if slot ∈ front then some assembly.cells.length else old.owner := by
  rw [cell?_grow] at held
  split at held
  next last => exact .inl ⟨last, held⟩
  next =>
    split at held
    next adopted =>
      obtain ⟨old, present, rfl⟩ := Option.map_eq_some_iff.mp held
      exact .inr ⟨cell?_lt present, old, present, rfl, rfl, (if_pos adopted).symm⟩
    next kept => exact .inr ⟨cell?_lt held, cell, held, rfl, rfl, (if_neg kept).symm⟩

theorem map_node_cell?_grow {slot : Nat} (before : slot < assembly.cells.length) :
    ((assembly.grow front added).cell? slot).map (·.node) = (assembly.cell? slot).map (·.node) := by
  rw [cell?_grow, if_neg (Nat.ne_of_lt before)]
  split
  · cases assembly.cell? slot <;> rfl
  · rfl

/-- The links after growth are those there were and the ones of the nodes just adopted. -/
theorem owner_grow_iff (adoptable : assembly.Adoptable span front)
    (fits : ∀ cell, added = some cell → assembly.Fits span front cell) (slot owner : Nat) :
    (∃ cell, (assembly.grow front added).cell? slot = some cell ∧ cell.owner = some owner) ↔
      (slot ∈ front ∧ owner = assembly.cells.length) ∨
        ∃ cell, assembly.cell? slot = some cell ∧ cell.owner = some owner := by
  constructor
  · rintro ⟨cell, held, owned⟩
    rcases cell?_grow_cases held with ⟨_, new⟩ | ⟨_, old, present, _, _, link⟩
    · rw [(fits cell new).unowned] at owned
      cases owned
    · rw [link] at owned
      split at owned
      next adopted => exact .inl ⟨adopted, (Option.some.inj owned).symm⟩
      next => exact .inr ⟨old, present, owned⟩
  · rintro (⟨adopted, rfl⟩ | ⟨cell, held, owned⟩)
    · obtain ⟨cell, held, _⟩ := adoptable.free slot adopted
      refine ⟨cell.adopted assembly.cells.length, ?_, rfl⟩
      rw [cell?_grow, if_neg (Nat.ne_of_lt (cell?_lt held)), if_pos adopted, held]
      rfl
    · have kept : slot ∉ front := by
        intro adopted
        obtain ⟨free, present, unowned, _⟩ := adoptable.free slot adopted
        rw [held] at present
        cases present
        rw [owned] at unowned
        cases unowned
      refine ⟨cell, ?_, owned⟩
      rw [cell?_grow, if_neg (Nat.ne_of_lt (cell?_lt held)), if_neg kept, held]

/-- A call that takes a slot preserves the invariant, whether it fills the slot or not. -/
theorem Sound.grow (sound : assembly.Sound) (adoptable : assembly.Adoptable span front)
    (fits : ∀ cell, added = some cell → assembly.Fits span front cell) :
    (assembly.grow front added).Sound := by
  have owners := owner_grow_iff adoptable fits
  refine ⟨?later, ?listed, ?once, ?inside, ?shown⟩
  case later =>
      intro slot owner cell held owned
      rw [length_grow]
      rcases (owners slot owner).mp ⟨cell, held, owned⟩ with ⟨adopted, rfl⟩ | ⟨old, present, link⟩
      · obtain ⟨free, present, _⟩ := adoptable.free slot adopted
        exact ⟨cell?_lt present, Nat.lt_succ_self _⟩
      · obtain ⟨before, bound⟩ := sound.later present link
        exact ⟨before, Nat.lt_succ_of_lt bound⟩
  case listed =>
      intro owner above held slot
      rw [owners]
      rcases cell?_grow_cases held with ⟨rfl, new⟩ | ⟨before, old, present, _, children, _⟩
      · -- No node was adopted into the next slot before this call.
        rw [(fits above new).lists, and_iff_left rfl]
        refine (or_iff_left ?_).symm
        rintro ⟨cell, present, link⟩
        exact Nat.lt_irrefl _ (sound.later present link).2
      · rw [children, sound.listed present]
        refine (or_iff_right ?_).symm
        rintro ⟨_, last⟩
        exact Nat.ne_of_lt before last
  case once =>
      intro owner above held
      rcases cell?_grow_cases held with ⟨_, new⟩ | ⟨_, old, present, _, children, _⟩
      · rw [(fits above new).lists]
        exact adoptable.once
      · rw [children]
        exact sound.once present
  case inside =>
      intro slot owner cell above held owned around
      rcases cell?_grow_cases held with ⟨_, new⟩ | ⟨_, old, present, node, _, link⟩
      · rw [(fits cell new).unowned] at owned
        cases owned
      · rw [link] at owned
        rw [node]
        split at owned
        next adopted =>
          cases owned
          obtain ⟨free, own, _, within⟩ := adoptable.free slot adopted
          rw [present] at own
          cases own
          rcases cell?_grow_cases around with ⟨_, new⟩ | ⟨before, _⟩
          · rw [(fits above new).spans]
            exact within
          · exact absurd before (Nat.lt_irrefl _)
        next =>
          rcases cell?_grow_cases around with ⟨rfl, _⟩ | ⟨_, outer, there, outerNode, _⟩
          · exact absurd (sound.later present owned).2 (Nat.lt_irrefl _)
          · rw [outerNode]
            exact sound.inside present owned there
  case shown =>
      intro owner above held
      rcases cell?_grow_cases held with ⟨_, new⟩ | ⟨_, old, present, node, children, _⟩
      · rw [(fits above new).shows, (fits above new).lists]
        refine List.map_congr_left fun slot member => (map_node_cell?_grow ?_).symm
        obtain ⟨free, own, _⟩ := adoptable.free slot member
        exact cell?_lt own
      · rw [node, children, sound.shown present]
        refine List.map_congr_left fun slot member => (map_node_cell?_grow ?_).symm
        obtain ⟨child, own, _⟩ := (sound.listed present slot).mp member
        exact cell?_lt own

end Growth

/-- All that a call can do: it leaves the nodes as they are, or takes a slot. -/
theorem perform_cases (assembly : Assembly) (call : Call) :
    assembly.perform call = assembly ∨
      ∃ span front added, assembly.Adoptable span front ∧
        (∀ cell, added = some cell → assembly.Fits span front cell) ∧
        assembly.perform call = assembly.grow front added := by
  cases call with
  | tree root path => exact .inl rfl
  | node kind span attributes children =>
      rcases assembly.construct_cases kind span attributes children with
        ⟨adoptable, result⟩ | ⟨front, _, _, _, _, adoptable, _, result⟩
      · refine .inr ⟨span, children, some _, adoptable, fun cell added => ?_, by rw [perform, result]⟩
        cases added
        exact adoptable.fits kind attributes
      · exact .inr ⟨span, front, none, adoptable, nofun, by rw [perform, result]⟩

theorem Sound.perform {assembly : Assembly} (sound : assembly.Sound) (call : Call) :
    (assembly.perform call).Sound := by
  rcases assembly.perform_cases call with same | ⟨span, front, added, adoptable, fits, grown⟩
  · rw [same]
    exact sound
  · rw [grown]
    exact sound.grow adoptable fits

theorem Sound.performAll {assembly : Assembly} (sound : assembly.Sound) (calls : List Call) :
    (assembly.performAll calls).Sound := by
  induction calls generalizing assembly with
  | nil => exact sound
  | cons call rest ih => exact ih (sound.perform call)

/-! ## Parents and ancestors -/

/-- The relation of a node to its parent. -/
def IsChild (assembly : Assembly) (slot owner : Nat) : Prop :=
  assembly.parent? slot = some owner

/-- The relation of a node to those above it. -/
def IsBelow (assembly : Assembly) : Nat → Nat → Prop :=
  Relation.TransGen assembly.IsChild

section Upwards

variable {assembly : Assembly}

theorem isBelow_iff {slot owner : Nat} :
    assembly.IsBelow slot owner ↔
      ∃ next, assembly.parent? slot = some next ∧ (owner = next ∨ assembly.IsBelow next owner) := by
  rw [IsBelow, Relation.TransGen.head'_iff]
  simp only [Relation.reflTransGen_iff_eq_or_transGen]
  rfl

theorem Sound.isChild_iff (sound : assembly.Sound) {slot owner : Nat} {above : Cell}
    (held : assembly.cell? owner = some above) :
    assembly.IsChild slot owner ↔ slot ∈ above.children := by
  rw [IsChild, parent?_eq_some_iff, sound.listed held]
  exact and_iff_left ⟨above, held⟩

theorem Sound.isChild_lt (sound : assembly.Sound) {slot owner : Nat}
    (child : assembly.IsChild slot owner) : slot < owner ∧ owner < assembly.cells.length := by
  obtain ⟨⟨cell, held, link⟩, _⟩ := parent?_eq_some_iff.mp child
  exact sound.later held link

theorem Sound.isBelow_lt (sound : assembly.Sound) {slot owner : Nat}
    (below : assembly.IsBelow slot owner) : slot < owner := by
  induction below with
  | single child => exact (sound.isChild_lt child).1
  | tail _ child ih => exact Nat.lt_trans ih (sound.isChild_lt child).1

/-- Every node above a node lies around it. -/
theorem Sound.isBelow_contains (sound : assembly.Sound) {slot owner : Nat} {cell : Cell}
    (held : assembly.cell? slot = some cell) (below : assembly.IsBelow slot owner) :
    ∃ above, assembly.cell? owner = some above ∧
      above.node.span.contains cell.node.span = true := by
  induction below with
  | single child =>
      obtain ⟨⟨own, present, link⟩, above, around⟩ := parent?_eq_some_iff.mp child
      rw [held] at present
      cases present
      exact ⟨above, around, sound.inside held link around⟩
  | tail _ child ih =>
      obtain ⟨middle, between, inner⟩ := ih
      obtain ⟨⟨own, present, link⟩, above, around⟩ := parent?_eq_some_iff.mp child
      rw [between] at present
      cases present
      exact ⟨above, around, Span.contains_trans (sound.inside between link around) inner⟩

/-- The links lead from a slot through these slots to a node without a parent. -/
inductive LeadsUp (assembly : Assembly) : Nat → List Nat → Prop where
  | top {slot : Nat} : assembly.parent? slot = none → LeadsUp assembly slot []
  | step {slot owner : Nat} {above : List Nat} : assembly.parent? slot = some owner →
      LeadsUp assembly owner above → LeadsUp assembly slot (owner :: above)

theorem LeadsUp.unique {slot : Nat} {above other : List Nat} (path : assembly.LeadsUp slot above)
    (otherPath : assembly.LeadsUp slot other) : above = other := by
  induction path generalizing other with
  | top last =>
      cases otherPath with
      | top => rfl
      | step link => cases last.symm.trans link
  | step link _ ih =>
      cases otherPath with
      | top last => cases last.symm.trans link
      | step otherLink rest =>
          cases link.symm.trans otherLink
          rw [ih rest]

theorem LeadsUp.of_mem {slot owner : Nat} {above : List Nat} (path : assembly.LeadsUp slot above)
    (passed : owner ∈ above) :
    owner < assembly.cells.length ∧
      ∃ rest, assembly.LeadsUp owner rest ∧ rest.length < above.length := by
  induction path with
  | top => cases passed
  | step link rest ih =>
      cases passed with
      | head =>
          obtain ⟨_, cell, held⟩ := parent?_eq_some_iff.mp link
          exact ⟨cell?_lt held, _, rest, Nat.lt_succ_self _⟩
      | tail _ passed =>
          obtain ⟨bound, others, path, shorter⟩ := ih passed
          exact ⟨bound, others, path, Nat.lt_succ_of_lt shorter⟩

/-- A way up that ends does not come back. -/
theorem LeadsUp.not_mem {slot : Nat} {above : List Nat} (path : assembly.LeadsUp slot above) :
    slot ∉ above := by
  intro passed
  obtain ⟨_, rest, again, shorter⟩ := path.of_mem passed
  rw [again.unique path] at shorter
  exact Nat.lt_irrefl _ shorter

theorem LeadsUp.nodup {slot : Nat} {above : List Nat} (path : assembly.LeadsUp slot above) :
    above.Nodup := by
  induction path with
  | top => exact .nil
  | step _ rest ih => exact .cons rest.not_mem ih

theorem LeadsUp.length_le {slot : Nat} {above : List Nat} (path : assembly.LeadsUp slot above) :
    above.length ≤ assembly.cells.length := by
  have within : above ⊆ List.range assembly.cells.length :=
    fun _ passed => List.mem_range.mpr (path.of_mem passed).1
  simpa using (path.nodup.subperm within).length_le

theorem climb?_eq_some_iff {steps slot : Nat} {above : List Nat} :
    assembly.climb? steps slot = some above ↔
      assembly.LeadsUp slot above ∧ above.length < steps := by
  induction steps generalizing slot above with
  | zero => simp [climb?]
  | succ steps ih =>
      rw [climb?]
      cases link : assembly.parent? slot with
      | none =>
          constructor
          · intro climbed
            cases climbed
            exact ⟨.top link, Nat.succ_pos steps⟩
          · intro path
            rw [path.1.unique (.top link)]
      | some owner =>
          rw [Option.map_eq_some_iff]
          constructor
          · intro climbed
            obtain ⟨rest, found, rfl⟩ := climbed
            obtain ⟨path, short⟩ := ih.mp found
            exact ⟨.step link path, Nat.succ_lt_succ short⟩
          · intro led
            obtain ⟨path, short⟩ := led
            cases path with
            | top last => cases last.symm.trans link
            | step other rest =>
                cases link.symm.trans other
                exact ⟨_, ih.mpr ⟨rest, Nat.lt_of_succ_lt_succ short⟩, rfl⟩

/-- The bound on the steps never cuts a way short. -/
theorem ancestors?_eq_some_iff {slot : Nat} {above : List Nat} :
    assembly.ancestors? slot = some above ↔ assembly.LeadsUp slot above := by
  rw [ancestors?, climb?_eq_some_iff, and_iff_left_iff_imp]
  exact fun path => Nat.lt_succ_of_le path.length_le

/-- The way up from a node ends. -/
theorem Sound.ancestors?_eq_some (sound : assembly.Sound) (slot : Nat) :
    ∃ above, assembly.ancestors? slot = some above ∧
      List.IsChain assembly.IsChild (slot :: above) ∧
      ∀ owner, owner ∈ above ↔ assembly.IsBelow slot owner := by
  -- Each step goes to a later slot, so the slots that are left grow fewer.
  induction left : assembly.cells.length - slot using Nat.strongRecOn generalizing slot with
  | _ count ih =>
      cases child : assembly.parent? slot with
      | none =>
          refine ⟨[], ancestors?_eq_some_iff.mpr (.top child), .singleton slot, fun owner => ?_⟩
          rw [isBelow_iff, child]
          simp
      | some owner =>
          obtain ⟨before, bound⟩ := sound.isChild_lt child
          obtain ⟨above, found, chain, members⟩ := ih _ (by omega) owner rfl
          have path := LeadsUp.step child (ancestors?_eq_some_iff.mp found)
          refine ⟨owner :: above, ancestors?_eq_some_iff.mpr path, .cons_cons child chain,
            fun other => ?_⟩
          rw [isBelow_iff, child, List.mem_cons, members]
          simp

end Upwards

/-- How parents, children, spans and the order of construction hang together. -/
structure Linked (assembly : Assembly) : Prop where
  /-- The parent of a node is the node that lists it. -/
  parent_iff : ∀ {slot owner : Nat} {above : Cell}, assembly.cell? owner = some above →
    (assembly.parent? slot = some owner ↔ slot ∈ above.children)
  once : ∀ {owner : Nat} {above : Cell}, assembly.cell? owner = some above → above.children.Nodup
  /-- The children of a node are the nodes in the slots that it lists. -/
  shown : ∀ {owner : Nat} {above : Cell}, assembly.cell? owner = some above →
    above.node.children.map some =
      above.children.map fun slot => (assembly.cell? slot).map (·.node)
  single : ∀ {slot left right : Nat} {leftCell rightCell : Cell},
    assembly.cell? left = some leftCell → assembly.cell? right = some rightCell →
    slot ∈ leftCell.children → slot ∈ rightCell.children → left = right
  /-- What a node lists was built before it and lies within it. -/
  inside : ∀ {slot owner : Nat} {above : Cell}, assembly.cell? owner = some above →
    slot ∈ above.children → slot < owner ∧ ∃ cell, assembly.cell? slot = some cell ∧
      above.node.span.contains cell.node.span = true
  acyclic : ∀ slot, ¬ assembly.IsBelow slot slot
  /-- Looking up the nodes above a node ends. They follow each other from parent to parent, and
  there are no others. -/
  ancestors : ∀ slot, ∃ above, assembly.ancestors? slot = some above ∧
    List.IsChain assembly.IsChild (slot :: above) ∧
    ∀ owner, owner ∈ above ↔ assembly.IsBelow slot owner
  around : ∀ {slot owner : Nat} {cell : Cell}, assembly.cell? slot = some cell →
    assembly.IsBelow slot owner → ∃ above, assembly.cell? owner = some above ∧
      above.node.span.contains cell.node.span = true

/-- However nodes are built, and whichever calls fail, parents and children agree. -/
theorem performAll_linked (calls : List Call) : (initial.performAll calls).Linked := by
  have sound := sound_initial.performAll calls
  refine {
    parent_iff := sound.isChild_iff, once := sound.once, shown := sound.shown, single := ?single,
    inside := ?inside, acyclic := ?acyclic, ancestors := sound.ancestors?_eq_some,
    around := sound.isBelow_contains }
  case single =>
      intro slot left right leftCell rightCell leftHeld rightHeld leftLists rightLists
      have leftParent := (sound.isChild_iff leftHeld).mpr leftLists
      have rightParent := (sound.isChild_iff rightHeld).mpr rightLists
      exact Option.some.inj (leftParent.symm.trans rightParent)
  case inside =>
      intro slot owner above held lists
      obtain ⟨cell, present, link⟩ := (sound.listed held slot).mp lists
      exact ⟨(sound.later present link).1, cell, present, sound.inside present link held⟩
  case acyclic =>
      intro slot below
      exact Nat.lt_irrefl slot (sound.isBelow_lt below)

end TreeLint.Assembly
