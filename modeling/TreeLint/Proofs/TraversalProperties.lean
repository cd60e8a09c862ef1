import TreeLint.Inspection.Run
import TreeLint.Proofs.CatalogueProperties

/-!
# Batches and single nodes

Taking nodes batch by batch comes to the same as taking them one by one, whatever the signal
answers and wherever in a batch it stops the run. What is compared is what a run takes in: its
result, its ledger and the number of its nodes. The phases differ, and so may the grouping of work.
-/

set_option autoImplicit false

namespace TreeLint

/-! ## Runs that have taken in the same -/

/-- Two runs over one tree, catalogue and policy have taken in the same. Neither their phases nor
their numbers of workers are compared. -/
structure Run.Alike (left right : Run) : Prop where
  catalogue : left.engine.catalogue = right.engine.catalogue
  policy : left.engine.policy = right.engine.policy
  tree : left.tree = right.tree
  visited : left.visited = right.visited
  ledger : left.ledger = right.ledger

/-- Two parts of runs end with the same result and have taken in the same. -/
structure Progress.Alike {α : Type} (left right : Progress α) : Prop where
  result : left.result = right.result
  run : left.run.Alike right.run

namespace Run

@[simp] theorem enter_engine (run : Run) (phase : Phase) : (run.enter phase).engine = run.engine := by
  unfold enter
  split <;> rfl

@[simp] theorem enter_tree (run : Run) (phase : Phase) : (run.enter phase).tree = run.tree := by
  unfold enter
  split <;> rfl

@[simp] theorem enter_visited (run : Run) (phase : Phase) :
    (run.enter phase).visited = run.visited := by
  unfold enter
  split <;> rfl

@[simp] theorem enter_ledger (run : Run) (phase : Phase) : (run.enter phase).ledger = run.ledger := by
  unfold enter
  split <;> rfl

theorem enter_dispatch (run : Run) (phase : Phase) : (run.enter phase).dispatch = run.dispatch := by
  funext cursor
  rw [dispatch, dispatch, enter_engine, enter_tree]

theorem collect_dispatch (sheet : WaiverSheet) (run : Run) (outcome : Except Escape Outcome) :
    (run.collect sheet outcome).run.dispatch = run.dispatch := by
  cases outcome with
  | error escape => rfl
  | ok outcome =>
      simp only [collect]
      split
      · exact enter_dispatch run .collecting
      · exact enter_dispatch run .collecting

namespace Alike

theorem refl (run : Run) : run.Alike run := ⟨rfl, rfl, rfl, rfl, rfl⟩

theorem symm {left right : Run} (alike : left.Alike right) : right.Alike left :=
  ⟨alike.catalogue.symm, alike.policy.symm, alike.tree.symm, alike.visited.symm,
    alike.ledger.symm⟩

theorem trans {left middle right : Run} (first : left.Alike middle) (second : middle.Alike right) :
    left.Alike right :=
  ⟨first.catalogue.trans second.catalogue, first.policy.trans second.policy,
    first.tree.trans second.tree, first.visited.trans second.visited,
    first.ledger.trans second.ledger⟩

theorem enter {left right : Run} (alike : left.Alike right) (leftPhase rightPhase : Phase) :
    (left.enter leftPhase).Alike (right.enter rightPhase) :=
  ⟨by simpa using alike.catalogue, by simpa using alike.policy, by simpa using alike.tree,
    by simpa using alike.visited, by simpa using alike.ledger⟩

theorem enter_left {left right : Run} (alike : left.Alike right) (phase : Phase) :
    (left.enter phase).Alike right :=
  ⟨by simpa using alike.catalogue, by simpa using alike.policy, by simpa using alike.tree,
    by simpa using alike.visited, by simpa using alike.ledger⟩

theorem enter_right {left right : Run} (alike : left.Alike right) (phase : Phase) :
    left.Alike (right.enter phase) :=
  ⟨by simpa using alike.catalogue, by simpa using alike.policy, by simpa using alike.tree,
    by simpa using alike.visited, by simpa using alike.ledger⟩

/-- The number of workers plays no part in what the rules find. -/
theorem dispatch {left right : Run} (alike : left.Alike right) : left.dispatch = right.dispatch := by
  obtain ⟨⟨leftCatalogue, leftPolicy, _⟩, leftTree, _, _, _, _⟩ := left
  obtain ⟨⟨rightCatalogue, rightPolicy, _⟩, rightTree, _, _, _, _⟩ := right
  obtain ⟨catalogue, policy, tree, _, _⟩ := alike
  cases catalogue
  cases policy
  cases tree
  rfl

theorem collect {left right : Run} (alike : left.Alike right) (sheet : WaiverSheet)
    (outcome : Except Escape Outcome) :
    (left.collect sheet outcome).Alike (right.collect sheet outcome) := by
  cases outcome with
  | error escape => exact ⟨rfl, alike⟩
  | ok outcome =>
      have entered := alike.enter .collecting .collecting
      simp only [Run.collect, enter_ledger, alike.ledger]
      cases Run.enterProposals sheet (outcome.faults.foldl Ledger.addFault right.ledger)
          outcome.proposals with
      | error error => exact ⟨rfl, entered⟩
      | ok ledger =>
          refine ⟨rfl, entered.catalogue, entered.policy, entered.tree, ?_, rfl⟩
          simpa using alike.visited

theorem traverse {left right : Run} (alike : left.Alike right) (sheet : WaiverSheet)
    (signal : Signal) (asked : Nat) (cursors : List Cursor) :
    (left.traverse sheet signal asked cursors).Alike
      (right.traverse sheet signal asked cursors) := by
  induction cursors generalizing left right asked with
  | nil => exact ⟨rfl, alike⟩
  | cons cursor rest ih =>
      simp only [Run.traverse]
      split
      next => exact ⟨rfl, alike⟩
      next =>
        have entered := alike.enter .dispatching .dispatching
        have step := entered.collect sheet ((right.enter .dispatching).dispatch cursor)
        rw [entered.dispatch, step.result]
        split
        next => exact ⟨rfl, step.run⟩
        next =>
          have later := ih (step.run.enter .traversing .traversing) (asked + 1)
          exact ⟨later.result, later.run⟩

theorem finish {left right : Run} (alike : left.Alike right) (complete : Bool) :
    (left.finish complete).Alike (right.finish complete) := by
  refine ⟨?_, alike.enter .done .done⟩
  simp only [Run.finish, enter_ledger, enter_tree, alike.ledger, alike.tree]

end Alike

end Run

namespace Progress.Alike

variable {α : Type} {left middle right : Progress α}

theorem symm (alike : left.Alike right) : right.Alike left :=
  ⟨alike.result.symm, alike.run.symm⟩

theorem trans (first : left.Alike middle) (second : middle.Alike right) : left.Alike right :=
  ⟨first.result.trans second.result, first.run.trans second.run⟩

end Progress.Alike

namespace Run

/-! ## One batch -/

/-- Going on from a first part of the nodes is taking them all. -/
theorem traverse_append (sheet : WaiverSheet) (signal : Signal) (asked : Nat) (run : Run)
    (front back : List Cursor) :
    run.traverse sheet signal asked (front ++ back) =
      match (run.traverse sheet signal asked front).result with
      | .ok true =>
          let first := run.traverse sheet signal asked front
          let later := first.run.traverse sheet signal (asked + front.length) back
          { later with journal := first.journal ++ later.journal }
      | _ => run.traverse sheet signal asked front := by
  induction front generalizing asked run with
  | nil => simp [traverse]
  | cons cursor rest ih =>
      simp only [List.cons_append, traverse]
      split
      next => rfl
      next =>
        split
        next => rfl
        next =>
          rw [ih, List.length_cons, Nat.add_assoc, Nat.add_comm 1]
          generalize Run.traverse sheet signal (asked + 1) _ rest = first
          obtain ⟨result, middle, journal⟩ := first
          rcases result with error | stopped | _
          · rfl
          · rfl
          · simp

/-- Dispatching the admitted nodes of a batch before collecting any of them takes in what the
nodes take in one by one. -/
theorem collectAll_admitted (sheet : WaiverSheet) (signal : Signal) (asked : Nat)
    {batched inline : Run} (alike : batched.Alike inline) (batch : List Cursor) :
    (inline.traverse sheet signal asked batch).result =
        (batched.collectAll sheet ((admitted signal asked batch).map batched.dispatch)).result.map
          (fun _ => !decide ((admitted signal asked batch).length < batch.length)) ∧
      (batched.collectAll sheet ((admitted signal asked batch).map batched.dispatch)).run.Alike
        (inline.traverse sheet signal asked batch).run := by
  induction batch generalizing asked batched inline with
  | nil => exact ⟨rfl, alike⟩
  | cons cursor rest ih =>
      simp only [admitted, traverse]
      split
      next stopped => exact ⟨rfl, alike⟩
      next =>
        have step := (alike.enter_right .dispatching).collect sheet (batched.dispatch cursor)
        have sameDispatch : (inline.enter .dispatching).dispatch = batched.dispatch := by
          rw [enter_dispatch, alike.dispatch]
        simp only [List.map_cons, collectAll, sameDispatch, ← step.result]
        split
        next error failed => exact ⟨rfl, step.run⟩
        next passed =>
          have later := ih (asked + 1) (step.run.enter_right .traversing)
          rw [collect_dispatch] at later
          obtain ⟨result, run⟩ := later
          refine ⟨?_, run⟩
          rw [result]
          simp only [List.length_cons, Nat.add_lt_add_iff_right]

/-! ## All batches -/

/-- Cutting into batches neither loses nor reorders anything. -/
theorem flatten_batches {α : Type} (size : Nat) (batch items : List α) :
    (batches size batch items).flatten = batch ++ items := by
  induction items generalizing batch with
  | nil =>
      rw [batches]
      split
      next empty => simp [List.isEmpty_iff.mp empty]
      next => simp
  | cons item rest ih =>
      simp only [batches]
      split
      · rw [List.flatten_cons, ih, List.nil_append, List.append_assoc, List.singleton_append]
      · rw [ih, List.append_assoc, List.singleton_append]

/-- Batch by batch or one by one: the run takes in the same. -/
theorem traverseBatches_alike (sheet : WaiverSheet) (signal : Signal) (asked : Nat)
    {batched inline : Run} (alike : batched.Alike inline) (batches : List (List Cursor)) :
    (batched.traverseBatches sheet signal asked batches).Alike
      (inline.traverse sheet signal asked batches.flatten) := by
  induction batches generalizing asked batched inline with
  | nil => exact ⟨rfl, alike⟩
  | cons batch rest ih =>
      have entered := alike.enter_left .dispatching
      obtain ⟨result, run⟩ := collectAll_admitted sheet signal asked entered batch
      rw [List.flatten_cons, traverse_append]
      simp only [traverseBatches]
      cases step : (collectAll sheet (batched.enter .dispatching)
          ((admitted signal asked batch).map (batched.enter .dispatching).dispatch)).result with
      | error error =>
          have failed : (inline.traverse sheet signal asked batch).result = .error error := by
            rw [result, step]
            rfl
          simp only [failed]
          exact ⟨failed.symm, run⟩
      | ok done =>
          cases done
          rw [step] at result
          by_cases stopped : (admitted signal asked batch).length < batch.length
          · have ended : (inline.traverse sheet signal asked batch).result = .ok false := by
              rw [result]
              simp [Except.map, stopped]
            simp only [ended, stopped, ↓reduceIte]
            exact ⟨ended.symm, run.enter_left .traversing⟩
          · have ended : (inline.traverse sheet signal asked batch).result = .ok true := by
              rw [result]
              simp [Except.map, stopped]
            simp only [ended, stopped, ↓reduceIte]
            have later := ih (asked + batch.length) (run.enter_left .traversing)
            exact ⟨later.result, later.run⟩

/-- Whatever its workers, a run takes in what it takes in one by one. -/
theorem traverseAll_alike_traverse (sheet : WaiverSheet) (signal : Signal) {run inline : Run}
    (alike : run.Alike inline) :
    (run.traverseAll sheet signal).Alike (inline.traverse sheet signal 0 inline.tree.walk) := by
  unfold traverseAll
  rw [alike.tree]
  split
  · exact alike.traverse sheet signal 0 inline.tree.walk
  · have batched := traverseBatches_alike sheet signal 0 alike
      (batches (batchSize run.engine.workers) [] inline.tree.walk)
    rwa [flatten_batches, List.nil_append] at batched

/-! ## Whole runs -/

/-- Runs that begin alike end alike. -/
theorem Alike.execute {left right : Run} (alike : left.Alike right)
    (phase : left.phase = right.phase) (signal : Signal) :
    (left.execute signal).Alike (right.execute signal) := by
  unfold Run.execute
  rw [phase]
  split
  next => exact ⟨rfl, alike⟩
  next =>
    have entered := alike.enter .traversing .traversing
    have waivers : WaiverSheet.ofTree left.tree left.engine.policy =
        WaiverSheet.ofTree right.tree right.engine.policy := by
      rw [alike.tree, alike.policy]
    rw [waivers]
    generalize WaiverSheet.ofTree right.tree right.engine.policy = opened
    obtain ⟨sheet, journal⟩ := opened
    have leftTaken := traverseAll_alike_traverse sheet signal entered
    have rightTaken := traverseAll_alike_traverse sheet signal
      (Alike.refl (right.enter .traversing))
    have taken := leftTaken.trans rightTaken.symm
    simp only [taken.result]
    split
    next => exact ⟨rfl, taken.run⟩
    next complete _ =>
      have ended := taken.run.finish complete
      exact ⟨ended.result, ended.run⟩

end Run

end TreeLint
