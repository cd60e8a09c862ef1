import TreeLint.Proofs.WalkOrder
import TreeLint.Rule.RepeatedImport

/-!
# Repeated imports

The paths seen so far are those of the imports that came earlier in the walk. An import is therefore
reported exactly when an earlier one has its path, and all imports but the first of each path are.
-/

set_option autoImplicit false

namespace TreeLint

namespace RepeatedImport

/-! ## The paths seen so far -/

section Scan

variable {seen : List String} {cursors : List Cursor}

theorem repeats_unnamed {cursor : Cursor} (unnamed : importPath? cursor.node = none) :
    repeats seen (cursor :: cursors) = repeats seen cursors := by
  rw [repeats, unnamed]

theorem repeats_seen {cursor : Cursor} {path : String} (named : importPath? cursor.node = some path)
    (known : path ∈ seen) :
    repeats seen (cursor :: cursors) = (cursor, path) :: repeats seen cursors := by
  rw [repeats, named]
  simp [known]

theorem repeats_new {cursor : Cursor} {path : String} (named : importPath? cursor.node = some path)
    (fresh : path ∉ seen) :
    repeats seen (cursor :: cursors) = repeats (path :: seen) cursors := by
  rw [repeats, named]
  simp [fresh]

theorem map_fst_repeats_sublist (seen : List String) (cursors : List Cursor) :
    ((repeats seen cursors).map Prod.fst).Sublist cursors := by
  induction cursors generalizing seen with
  | nil => exact .slnil
  | cons cursor rest ih =>
      cases named : importPath? cursor.node with
      | none =>
          rw [repeats_unnamed named]
          exact (ih seen).cons cursor
      | some path =>
          by_cases known : path ∈ seen
          · rw [repeats_seen named known]
            exact (ih seen).cons_cons cursor
          · rw [repeats_new named known]
            exact (ih (path :: seen)).cons cursor

/-- Besides the paths seen before, those of earlier imports make an import a repeat. -/
theorem mem_repeats_iff {cursor : Cursor} {path : String} :
    (cursor, path) ∈ repeats seen cursors ↔
      importPath? cursor.node = some path ∧
        (path ∈ seen ∧ cursor ∈ cursors ∨
          ∃ earlier, importPath? earlier.node = some path ∧
            [earlier, cursor].Sublist cursors) := by
  induction cursors generalizing seen with
  | nil => simp [repeats]
  | cons head rest ih =>
      simp only [pair_sublist_cons_iff, List.mem_cons]
      cases named : importPath? head.node with
      | none =>
          rw [repeats_unnamed named, ih]
          grind
      | some known =>
          by_cases listed : known ∈ seen
          · rw [repeats_seen named listed, List.mem_cons, ih]
            grind
          · rw [repeats_new named listed, ih]
            grind

/-- Every named import is a repeat or the first of a path that was not seen before. -/
theorem length_repeats (seen : List String) (cursors : List Cursor) :
    (repeats seen cursors).length +
        ((cursors.filterMap fun cursor => importPath? cursor.node).toFinset \ seen.toFinset).card =
      (cursors.filterMap fun cursor => importPath? cursor.node).length := by
  induction cursors generalizing seen with
  | nil => simp [repeats]
  | cons cursor rest ih =>
      cases named : importPath? cursor.node with
      | none =>
          rw [repeats_unnamed named]
          simpa only [List.filterMap_cons, named] using ih seen
      | some path =>
          simp only [List.filterMap_cons, named, List.toFinset_cons, List.length_cons]
          by_cases known : path ∈ seen
          · rw [repeats_seen named known, List.length_cons,
              Finset.insert_sdiff_of_mem _ (List.mem_toFinset.mpr known), ← ih seen]
            omega
          · -- The path counts once, here, as those behind it are repeats from now on.
            rw [repeats_new named known, card_insert_sdiff (by simpa using known),
              ← ih (path :: seen), List.toFinset_cons, Nat.add_assoc]

end Scan

/-! ## The imports of a tree -/

/-- The path that a node imports: the text under `path` of an import, unless it is empty. -/
def importedPath? (cursor : Cursor) : Option String :=
  match cursor.node.kind, cursor.node.attribute? "path" with
  | .importing, some (.text path) => if path = "" then none else some path
  | _, _ => none

theorem importedPath?_eq (cursor : Cursor) :
    importedPath? cursor =
      if cursor.node.kind = .importing then importPath? cursor.node else none := by
  unfold importedPath? importPath?
  by_cases importing : cursor.node.kind = .importing
  · rw [importing, if_pos rfl]
    split
    next path _ given =>
      rw [given]
      simp
    next other =>
      split
      next path given => exact absurd given (other path rfl)
      next => rfl
  · rw [if_neg importing]
    split
    next kind _ => exact absurd kind importing
    next => rfl

theorem importedPath?_eq_some_iff {cursor : Cursor} {path : String} :
    importedPath? cursor = some path ↔
      cursor.node.kind = .importing ∧ importPath? cursor.node = some path := by
  rw [importedPath?_eq]
  split
  next importing => simp [importing]
  next other => simp [other]

variable {tree : Tree}

theorem filterMap_nodesOfKind (tree : Tree) :
    (tree.nodesOfKind .importing).filterMap (fun cursor => importPath? cursor.node) =
      tree.walk.filterMap importedPath? := by
  rw [Tree.nodesOfKind, List.filterMap_filter]
  apply List.filterMap_congr
  intro cursor _
  rw [importedPath?_eq]
  simp

theorem mem_repeats_nodesOfKind {cursor : Cursor} {path : String} :
    (cursor, path) ∈ repeats [] (tree.nodesOfKind .importing) ↔
      importedPath? cursor = some path ∧
        ∃ earlier, importedPath? earlier = some path ∧ [earlier, cursor].Sublist tree.walk := by
  rw [mem_repeats_iff, Tree.nodesOfKind]
  simp only [pair_sublist_filter_iff, importedPath?_eq_some_iff, beq_iff_eq]
  grind

/-- A candidate reports that a path is imported again at a node. -/
def Reports (candidate : Candidate) (cursor : Cursor) (path : String) : Prop :=
  ∃ draft, candidate = .draft draft ∧ draft.span = .ofSpan cursor.node.span ∧
    draft.ruleId = .text info.id ∧ draft.message = .text (message path)

/-- The candidates report the repeated imports of a tree. -/
structure ReportsRepeats (tree : Tree) (found : List Candidate)
    (repeated : List (Cursor × String)) : Prop where
  each : List.Forall₂ (fun candidate entry => Reports candidate entry.1 entry.2) found repeated
  inOrder : (repeated.map Prod.fst).Sublist tree.walk
  once : (repeated.map fun entry => entry.1.address).Nodup
  /-- A repeat is an import behind another one of its path. -/
  later : ∀ cursor path, (cursor, path) ∈ repeated ↔
    importedPath? cursor = some path ∧
      ∃ earlier, importedPath? earlier = some path ∧ [earlier, cursor].Sublist tree.walk
  /-- All imports are repeats but one for each path. -/
  counted : found.length + (tree.walk.filterMap importedPath?).toFinset.card =
    (tree.walk.filterMap importedPath?).length

/-- Wherever the rule is asked in a tree, it reports in the order of the walk every import behind
another one of its path, once and at its own span. -/
theorem evaluate_reportsRepeats (tree : Tree) (cursor : Cursor) :
    ∃ found repeated, rule.evaluate cursor tree = .ok found ∧ ReportsRepeats tree found repeated := by
  refine ⟨_, repeats [] (tree.nodesOfKind .importing), rfl, ?_⟩
  have inOrder : ((repeats [] (tree.nodesOfKind .importing)).map Prod.fst).Sublist tree.walk :=
    (map_fst_repeats_sublist [] _).trans List.filter_sublist
  refine { each := ?each, inOrder, once := ?once, later := ?later, counted := ?counted }
  case each =>
    rw [List.forall₂_map_left_iff, List.forall₂_same]
    intro entry _
    exact ⟨_, rfl, rfl, rfl, rfl⟩
  case once =>
    have places := tree.cursor.nodup_address_preorder
    rw [← Tree.walk_eq_preorder] at places
    have distinct := (inOrder.map (·.address)).nodup places
    rwa [List.map_map] at distinct
  case later =>
    intro cursor path
    exact mem_repeats_nodesOfKind
  case counted =>
    have total := length_repeats [] (tree.nodesOfKind .importing)
    rw [filterMap_nodesOfKind, List.toFinset_nil, Finset.sdiff_empty] at total
    rwa [List.length_map]

end RepeatedImport

end TreeLint
