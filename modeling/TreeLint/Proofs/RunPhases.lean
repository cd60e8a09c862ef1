import TreeLint.Proofs.Cancellation

/-!
# The phases of a run

A run goes through rounds of dispatching, collecting and traversing: one for each node that it
takes, or one for each batch that it takes nodes from. A batch that the signal stops at its first
node is dispatched without being collected. After the last round the run is done, and a run that has
begun cannot be executed again.
-/

set_option autoImplicit false

namespace TreeLint

/-! ## Rounds -/

namespace Phase

/-- The phases of a number of rounds. -/
def rounds (count : Nat) : List Phase :=
  (List.replicate count [dispatching, collecting, traversing]).flatten

/-- The phases of taking nodes in batches of a size. A run that is stopped between two batches has
begun to dispatch the second. -/
def batched (size taken : Nat) (complete : Bool) : List Phase :=
  rounds ((taken + size - 1) / size) ++
    if complete = false ∧ size ∣ taken then [dispatching, traversing] else []

/-- The phases of taking nodes one by one, or in batches for several workers. -/
def roundsFor (workers taken : Nat) (complete : Bool) : List Phase :=
  if workers = 1 then rounds taken else batched (4 * workers) taken complete

/-- The phases of a run from idle to done. -/
def course (workers taken : Nat) (complete : Bool) : List Phase :=
  [idle, traversing] ++ roundsFor workers taken complete ++ [done]

theorem rounds_succ (count : Nat) :
    rounds (count + 1) = [dispatching, collecting, traversing] ++ rounds count := by
  rw [rounds, List.replicate_succ, List.flatten_cons]
  rfl

theorem done_not_mem_rounds (count : Nat) : done ∉ rounds count := by
  induction count with
  | zero => exact List.not_mem_nil
  | succ count ih => simp [rounds_succ, ih]

theorem done_not_mem_roundsFor (workers taken : Nat) (complete : Bool) :
    done ∉ roundsFor workers taken complete := by
  unfold roundsFor batched
  split
  · exact done_not_mem_rounds taken
  · rw [List.mem_append, not_or]
    refine ⟨done_not_mem_rounds _, ?_⟩
    split <;> decide

theorem count_done_course (workers taken : Nat) (complete : Bool) :
    (course workers taken complete).count done = 1 := by
  rw [course, List.count_append, List.count_append,
    List.count_eq_zero_of_not_mem (done_not_mem_roundsFor workers taken complete)]
  rfl

theorem isChain_rounds {later : List Phase} (chained : (traversing :: later).IsChain (· ≠ ·))
    (count : Nat) : (traversing :: (rounds count ++ later)).IsChain (· ≠ ·) := by
  induction count with
  | zero => exact chained
  | succ count ih =>
      rw [rounds_succ, List.append_assoc]
      exact .cons_cons (by decide) (.cons_cons (by decide) (.cons_cons (by decide) ih))

/-- No phase of a run is entered twice in a row. -/
theorem isChain_course (workers taken : Nat) (complete : Bool) :
    (course workers taken complete).IsChain (· ≠ ·) := by
  have ending : [traversing, done].IsChain (· ≠ ·) := by decide
  have cut : [traversing, dispatching, traversing, done].IsChain (· ≠ ·) := by decide
  rw [course, List.append_assoc]
  refine .cons_cons (by decide) ?_
  unfold roundsFor batched
  split
  · exact isChain_rounds ending taken
  · rw [List.append_assoc]
    split
    · exact isChain_rounds cut _
    · exact isChain_rounds ending _

theorem batched_zero {size : Nat} (positive : 0 < size) (complete : Bool) :
    batched size 0 complete = if complete then [] else [dispatching, traversing] := by
  have none : (0 + size - 1) / size = 0 := Nat.div_eq_of_lt (by omega)
  rw [batched, none]
  cases complete <;> simp [rounds]

/-- A run that is stopped within a batch has made a round of it, unless it took none of its nodes. -/
theorem batched_of_lt {size taken : Nat} (part : taken < size) :
    batched size taken false =
      if taken = 0 then [dispatching, traversing] else [dispatching, collecting, traversing] := by
  by_cases none : taken = 0
  · subst none
    exact batched_zero part false
  · have one : (taken + size - 1) / size = 1 := Nat.div_eq_of_lt_le (by omega) (by omega)
    have within : ¬ size ∣ taken := Nat.not_dvd_of_pos_of_lt (Nat.pos_of_ne_zero none) part
    rw [batched, one, if_neg fun cut => within cut.2, if_neg none]
    rfl

/-- A batch adds one round to those of the nodes behind it. It is full, or the last one. -/
theorem batched_add {size batch taken : Nat} {complete : Bool} (positive : 0 < batch)
    (le : batch ≤ size) (cut : batch = size ∨ taken = 0 ∧ complete = true) :
    batched size (batch + taken) complete =
      [dispatching, collecting, traversing] ++ batched size taken complete := by
  rcases cut with rfl | ⟨rfl, rfl⟩
  · have more : (batch + taken + batch - 1) / batch = (taken + batch - 1) / batch + 1 := by
      have shift : batch + taken + batch - 1 = taken + batch - 1 + batch := by omega
      rw [shift, Nat.add_div_right _ positive]
    rw [batched, batched, more, rounds_succ, List.append_assoc]
    simp only [Nat.dvd_add_self_left]
  · have one : (batch + 0 + size - 1) / size = 1 := Nat.div_eq_of_lt_le (by omega) (by omega)
    rw [batched_zero (by omega), batched, one]
    rfl

end Phase

namespace Run

/-- Between two points a run has entered phases, one after the other. -/
structure Entered (phases : List Phase) (before after : Run) : Prop where
  history : after.history = before.history ++ phases
  phase : after.phase = phases.getLast?.getD before.phase

namespace Entered

theorem refl (run : Run) : Entered [] run run :=
  ⟨(List.append_nil _).symm, rfl⟩

theorem trans {first second : List Phase} {before middle after : Run}
    (left : Entered first before middle) (right : Entered second middle after) :
    Entered (first ++ second) before after := by
  refine ⟨?_, ?_⟩
  · rw [right.history, left.history, List.append_assoc]
  · rw [right.phase, left.phase, List.getLast?_append, Option.getD_or]

theorem enter {run : Run} {phase : Phase} (other : run.phase ≠ phase) :
    Entered [phase] run (run.enter phase) := by
  rw [Run.enter, if_neg other]
  exact ⟨rfl, rfl⟩

theorem phase_mem {phases : List Phase} {before after : Run}
    (entered : Entered phases before after) : after.phase ∈ before.phase :: phases := by
  rw [entered.phase]
  cases last : phases.getLast? with
  | none => exact List.mem_cons_self
  | some phase => exact List.mem_cons_of_mem _ (List.mem_of_getLast? last)

theorem collect {sheet : WaiverSheet} {run : Run} (other : run.phase ≠ .collecting)
    {outcome : Except Escape Outcome} (passed : (run.collect sheet outcome).result = .ok ()) :
    Entered [.collecting] run (run.collect sheet outcome).run := by
  have entered := enter other
  cases outcome with
  | error escape => cases passed
  | ok outcome =>
      simp only [Run.collect]
      split
      next => exact ⟨entered.history, entered.phase⟩
      next => exact entered

theorem collect_again (sheet : WaiverSheet) {run : Run} (collecting : run.phase = .collecting)
    (outcome : Except Escape Outcome) : Entered [] run (run.collect sheet outcome).run := by
  have stays : run.enter .collecting = run := if_pos collecting
  cases outcome with
  | error escape => exact refl run
  | ok outcome =>
      simp only [Run.collect, stays]
      split
      next => exact ⟨(List.append_nil _).symm, rfl⟩
      next => exact refl run

theorem collectAll_again (sheet : WaiverSheet) {run : Run} (collecting : run.phase = .collecting)
    (outcomes : List (Except Escape Outcome)) :
    Entered [] run (run.collectAll sheet outcomes).run := by
  induction outcomes generalizing run with
  | nil => exact refl run
  | cons outcome rest ih =>
      have step := collect_again sheet collecting outcome
      simp only [Run.collectAll]
      split
      next => exact step
      next => exact step.trans (ih (step.phase.trans collecting))

/-- The outcomes of a batch are collected in one phase, if there are any. -/
theorem collectAll {sheet : WaiverSheet} {run : Run} (other : run.phase ≠ .collecting)
    {outcomes : List (Except Escape Outcome)}
    (passed : (run.collectAll sheet outcomes).result = .ok ()) :
    Entered (if outcomes.isEmpty then [] else [.collecting]) run
      (run.collectAll sheet outcomes).run := by
  cases outcomes with
  | nil => exact refl run
  | cons outcome rest =>
      simp only [Run.collectAll] at passed ⊢
      split at passed
      next => cases passed
      next collected =>
        have step := collect other collected
        exact step.trans (collectAll_again sheet step.phase rest)

/-- A round is what is collected between dispatching and traversing. -/
theorem round {run after : Run} {middle : List Phase} (ready : run.phase = .traversing)
    (collected : Entered middle (run.enter .dispatching) after)
    (busy : after.phase ≠ .traversing) :
    Entered (.dispatching :: middle ++ [.traversing]) run (after.enter .traversing) := by
  have dispatched : Entered [.dispatching] run (run.enter .dispatching) :=
    enter (by rw [ready]; decide)
  exact (dispatched.trans collected).trans (enter busy)

end Entered

theorem enter_phase (run : Run) (phase : Phase) : (run.enter phase).phase = phase := by
  unfold enter
  split
  next same => exact same
  next => rfl

/-! ## One node after the other -/

theorem traverse_entered (sheet : WaiverSheet) (signal : Signal) (asked : Nat) {run : Run}
    (ready : run.phase = .traversing) (cursors : List Cursor) {complete : Bool}
    (passed : (run.traverse sheet signal asked cursors).result = .ok complete) :
    Entered (Phase.rounds (admitted signal asked cursors).length) run
      (run.traverse sheet signal asked cursors).run := by
  induction cursors generalizing asked run with
  | nil => exact .refl run
  | cons cursor rest ih =>
      by_cases stopped : signal asked = true
      · simp only [traverse, admitted, stopped, ↓reduceIte]
        exact .refl run
      · simp only [traverse, admitted, stopped, Bool.false_eq_true, ↓reduceIte] at passed ⊢
        split at passed
        next => cases passed
        next taken =>
          have collected := Entered.collect (by rw [enter_phase run .dispatching]; decide) taken
          have busy : (Run.collect sheet (run.enter .dispatching)
              ((run.enter .dispatching).dispatch cursor)).run.phase = .collecting :=
            collected.phase
          have round := Entered.round ready collected (by rw [busy]; decide)
          rw [List.length_cons, Phase.rounds_succ]
          exact round.trans (ih (asked + 1) round.phase passed)

/-! ## Batch by batch -/

/-- Cutting into batches takes one batch off the front after the other. -/
theorem batches_eq_take {α : Type} {size : Nat} {batch items : List α}
    (room : batch.length < size) (nonempty : batch ++ items ≠ []) :
    batches size batch items =
      (batch ++ items).take size :: batches size [] ((batch ++ items).drop size) := by
  induction items generalizing batch with
  | nil =>
      rw [List.append_nil] at nonempty ⊢
      have short := Nat.le_of_lt room
      rw [batches, if_neg (by simpa using nonempty), List.take_of_length_le short,
        List.drop_of_length_le short]
      rfl
  | cons item rest ih =>
      have regrouped : batch ++ item :: rest = (batch ++ [item]) ++ rest := by
        rw [List.append_assoc, List.singleton_append]
      simp only [batches]
      rw [regrouped]
      split
      next full =>
        have exactly : (batch ++ [item]).length = size := by
          rw [List.length_append, List.length_singleton] at full ⊢
          omega
        rw [List.take_left' exactly, List.drop_left' exactly]
      next space => exact ih (Nat.lt_of_not_le space) (by simp)

/-- The first batch is full, or nothing is left behind it. -/
theorem batches_eq_cons {α : Type} {size : Nat} {items : List α} (positive : 0 < size)
    (nonempty : items ≠ []) :
    ∃ front back, items = front ++ back ∧ 0 < front.length ∧ front.length ≤ size ∧
      (front.length = size ∨ back = []) ∧
      batches size [] items = front :: batches size [] back := by
  have some := List.length_pos_of_ne_nil nonempty
  refine ⟨items.take size, items.drop size, (List.take_append_drop size items).symm, ?_,
    List.length_take_le size items, ?_, batches_eq_take positive nonempty⟩
  · rw [List.length_take]
    omega
  · rw [List.length_take, List.drop_eq_nil_iff]
    omega

theorem admitted_append (signal : Signal) (asked : Nat) (front back : List Cursor) :
    admitted signal asked (front ++ back) =
      if (admitted signal asked front).length < front.length then admitted signal asked front
      else front ++ admitted signal (asked + front.length) back := by
  induction front generalizing asked with
  | nil => rfl
  | cons cursor rest ih =>
      rw [List.cons_append, admitted, admitted]
      by_cases stopped : signal asked = true
      · simp [stopped]
      · simp only [stopped, Bool.false_eq_true, ↓reduceIte, ih, List.length_cons,
          Nat.add_lt_add_iff_right]
        rw [Nat.add_assoc, Nat.add_comm 1]
        split
        · rfl
        · rfl

/-- One batch makes a round, unless none of its nodes is taken. -/
theorem batch_entered {sheet : WaiverSheet} {run : Run} (ready : run.phase = .traversing)
    {taken : List Cursor}
    (passed : ((run.enter .dispatching).collectAll sheet
      (taken.map (run.enter .dispatching).dispatch)).result = .ok ()) :
    Entered (if taken.length = 0 then [.dispatching, .traversing]
        else [.dispatching, .collecting, .traversing]) run
      (((run.enter .dispatching).collectAll sheet
        (taken.map (run.enter .dispatching).dispatch)).run.enter .traversing) := by
  have dispatching := enter_phase run .dispatching
  have collected := Entered.collectAll (by rw [dispatching]; decide) passed
  cases taken with
  | nil =>
      have busy := collected.phase.trans dispatching
      exact Entered.round ready collected (by rw [busy]; decide)
  | cons cursor rest =>
      have busy : ((run.enter .dispatching).collectAll sheet
          ((cursor :: rest).map (run.enter .dispatching).dispatch)).run.phase = .collecting :=
        collected.phase
      exact Entered.round ready collected (by rw [busy]; decide)

theorem traverseBatches_entered (sheet : WaiverSheet) (signal : Signal) {size : Nat}
    (positive : 0 < size) (asked : Nat) {run : Run} (ready : run.phase = .traversing)
    (cursors : List Cursor) {complete : Bool}
    (passed : (run.traverseBatches sheet signal asked (batches size [] cursors)).result =
      .ok complete) :
    Entered (Phase.batched size (admitted signal asked cursors).length complete) run
      (run.traverseBatches sheet signal asked (batches size [] cursors)).run := by
  -- Each batch leaves fewer nodes, so the induction is on their number.
  induction remaining : cursors.length using Nat.strongRecOn generalizing asked run cursors with
  | ind count ih =>
      by_cases none : cursors = []
      · subst none
        cases passed
        rw [admitted, List.length_nil, Phase.batched_zero positive]
        exact .refl run
      · obtain ⟨front, back, rfl, some, le, full, cut⟩ := batches_eq_cons positive none
        rw [cut] at passed ⊢
        rw [admitted_append]
        simp only [traverseBatches] at passed ⊢
        split at passed
        next => cases passed
        next collected =>
          have batch := batch_entered ready collected
          by_cases stopped : (admitted signal asked front).length < front.length
          · rw [if_pos stopped] at passed
            cases passed
            rw [if_pos stopped, if_pos stopped, Phase.batched_of_lt (stopped.trans_le le)]
            exact batch
          · rw [if_neg stopped] at passed
            rw [if_neg (by omega)] at batch
            have fewer : back.length < count := by
              rw [← remaining, List.length_append]
              omega
            have later := ih _ fewer (asked + front.length) batch.phase back passed rfl
            have last : front.length = size ∨
                (admitted signal (asked + front.length) back).length = 0 ∧ complete = true := by
              refine full.imp_right ?_
              rintro rfl
              cases passed
              exact ⟨rfl, rfl⟩
            rw [if_neg stopped, if_neg stopped, List.length_append,
              Phase.batched_add some le last]
            exact batch.trans later

/-- Whatever its workers, a run that takes its nodes goes through the rounds for them. -/
theorem traverseAll_entered (sheet : WaiverSheet) (signal : Signal) {run : Run}
    (ready : run.phase = .traversing) (manned : 0 < run.engine.workers) {complete : Bool}
    (passed : (run.traverseAll sheet signal).result = .ok complete) :
    Entered (Phase.roundsFor run.engine.workers (run.tree.upTo signal).length complete) run
      (run.traverseAll sheet signal).run := by
  unfold traverseAll at passed ⊢
  unfold Phase.roundsFor
  split at passed
  next single =>
    rw [if_pos single, if_pos single]
    exact traverse_entered sheet signal 0 ready run.tree.walk passed
  next several =>
    rw [if_neg several, if_neg several]
    have size : 0 < batchSize run.engine.workers := Nat.mul_pos manned (by decide)
    have same : 4 * run.engine.workers = batchSize run.engine.workers := Nat.mul_comm _ _
    rw [same]
    exact traverseBatches_entered sheet signal size 0 ready run.tree.walk passed

/-! ## Whole runs -/

section Begun

variable {phase : Phase} {run : Run}

theorem enter_begun (busy : phase ≠ .idle) (run : Run) : (run.enter phase).phase ≠ .idle := by
  rwa [enter_phase]

variable (sheet : WaiverSheet) (signal : Signal) (begun : run.phase ≠ .idle)

include begun

theorem collect_begun (outcome : Except Escape Outcome) :
    (run.collect sheet outcome).run.phase ≠ .idle := by
  cases outcome with
  | error escape => exact begun
  | ok outcome =>
      simp only [collect]
      split
      · exact enter_begun (by decide) run
      · exact enter_begun (by decide) run

theorem collectAll_begun (outcomes : List (Except Escape Outcome)) :
    (run.collectAll sheet outcomes).run.phase ≠ .idle := by
  induction outcomes generalizing run with
  | nil => exact begun
  | cons outcome rest ih =>
      have step := collect_begun sheet begun outcome
      simp only [collectAll]
      split
      · exact step
      · exact ih step

theorem traverse_begun (asked : Nat) (cursors : List Cursor) :
    (run.traverse sheet signal asked cursors).run.phase ≠ .idle := by
  induction cursors generalizing asked run with
  | nil => exact begun
  | cons cursor rest ih =>
      simp only [traverse]
      split
      · exact begun
      · split
        · exact collect_begun sheet (enter_begun (by decide) run) _
        · exact ih (enter_begun (by decide) _) (asked + 1)

theorem traverseBatches_begun (asked : Nat) (batches : List (List Cursor)) :
    (run.traverseBatches sheet signal asked batches).run.phase ≠ .idle := by
  induction batches generalizing asked run with
  | nil => exact begun
  | cons batch rest ih =>
      simp only [traverseBatches]
      split
      · exact collectAll_begun sheet (enter_begun (by decide) run) _
      · split
        · exact enter_begun (by decide) _
        · exact ih (enter_begun (by decide) _) _

theorem traverseAll_begun : (run.traverseAll sheet signal).run.phase ≠ .idle := by
  unfold traverseAll
  split
  · exact traverse_begun sheet signal begun 0 _
  · exact traverseBatches_begun sheet signal begun 0 _

end Begun

theorem admitted_polls (signal : Signal) (asked : Nat) (cursors : List Cursor) :
    (admitted signal asked cursors).length ≤ cursors.length ∧
      (∀ poll < (admitted signal asked cursors).length, signal (asked + poll) = false) ∧
      ((admitted signal asked cursors).length < cursors.length →
        signal (asked + (admitted signal asked cursors).length) = true) := by
  induction cursors generalizing asked with
  | nil => simp [admitted]
  | cons cursor rest ih =>
      rw [admitted]
      by_cases stopped : signal asked = true
      · simp [stopped]
      · obtain ⟨le, passed, last⟩ := ih (asked + 1)
        rw [if_neg stopped, List.length_cons, List.length_cons]
        refine ⟨Nat.succ_le_succ le, fun poll bound => ?_, fun shorter => ?_⟩
        · cases poll with
          | zero => exact Bool.eq_false_of_not_eq_true stopped
          | succ poll =>
              have later := passed poll (Nat.lt_of_succ_lt_succ bound)
              rwa [Nat.add_assoc, Nat.add_comm 1] at later
        · have later := last (Nat.lt_of_succ_lt_succ shorter)
          rwa [Nat.add_assoc, Nat.add_comm 1] at later

/-- A run has begun once it was executed, however that ended. -/
theorem execute_begun (engine : Engine) (tree : Tree) (signal : Signal) :
    ((start engine tree).execute signal).run.phase ≠ .idle := by
  have opened : ((start engine tree).enter .traversing).phase ≠ .idle :=
    enter_begun (by decide) _
  rw [(execute_taken engine tree signal).2]
  dsimp only
  split
  · exact enter_begun (by decide) _
  · exact traverseAll_begun _ signal opened

theorem execute_entered {engine : Engine} {tree : Tree} {signal : Signal} {report : Report}
    (manned : 0 < engine.workers)
    (passed : ((start engine tree).execute signal).result = .ok report) :
    Entered ([.traversing] ++
        Phase.roundsFor engine.workers (tree.upTo signal).length report.complete ++ [.done])
      (start engine tree) ((start engine tree).execute signal).run := by
  have begun : Entered [.traversing] (start engine tree) ((start engine tree).enter .traversing) :=
    ⟨rfl, rfl⟩
  obtain ⟨result, run⟩ := execute_taken engine tree signal
  rw [result] at passed
  dsimp only at passed run
  cases taken : (((start engine tree).enter .traversing).traverseAll
      (engine.sheet tree) signal).result with
  | error error =>
      rw [taken] at passed
      cases passed
  | ok complete =>
      rw [taken] at passed run
      cases passed
      have rounds := traverseAll_entered (engine.sheet tree) signal begun.phase manned taken
      have unfinished : (((start engine tree).enter .traversing).traverseAll
          (engine.sheet tree) signal).run.phase ≠ .done := by
        intro done
        rcases List.mem_cons.mp (done ▸ rounds.phase_mem) with same | entered
        · cases same
        · exact Phase.done_not_mem_roundsFor _ _ _ entered
      rw [run]
      exact (begun.trans rounds).trans (.enter unfinished)

/-- A run over a tree is done: it has taken the nodes in front of the first at which its signal
stops it, and has gone through the phases for them. -/
structure Done (workers : Nat) (tree : Tree) (signal : Signal) (complete : Bool) (run : Run) :
    Prop where
  visited_le : run.visited ≤ tree.size
  passed : ∀ poll < run.visited, signal poll = false
  stopped : run.visited < tree.size → signal run.visited = true
  whole : complete = true ↔ run.visited = tree.size
  history : run.history = Phase.course workers run.visited complete
  phase : run.phase = .done
  once : run.history.count .done = 1
  last : run.history.getLast? = some .done
  changing : run.history.IsChain (· ≠ ·)

/-- Over a path that is a text a run has a report unless a rule breaks it, and a run that has a
report is done with just the phases for the nodes that it has visited. Once executed, it refuses to
be executed again and stays as it is. -/
theorem execute_done {catalogue : Catalogue} {policy : Policy} {workers : Int} {engine : Engine}
    (created : (Engine.create catalogue policy workers).1 = .ok engine) (tree : Tree)
    (signal : Signal) :
    (∀ path, tree.path = .text path →
        ((∃ report, ((start engine tree).execute signal).result = .ok report) ↔
          ¬ engine.Breaks tree (tree.upTo signal))) ∧
      (∀ report, ((start engine tree).execute signal).result = .ok report →
        Done workers.toNat tree signal report.complete ((start engine tree).execute signal).run) ∧
      ∀ again, ((start engine tree).execute signal).run.execute again =
        ⟨.error .executedBefore, ((start engine tree).execute signal).run, []⟩ := by
  obtain ⟨enough, _, _, setUp⟩ := Engine.create_eq_ok_iff.mp created
  have employed : engine.workers = workers.toNat := by rw [setUp]
  refine ⟨fun path named => execute_reports_iff named, fun report passed => ?_,
    fun again => if_pos (execute_begun engine tree signal)⟩
  have entered := execute_entered (by omega) passed
  have visited := execute_visited passed
  obtain ⟨_, _, complete⟩ := execute_eq_ok_iff.mp passed
  obtain ⟨le, polls, stops⟩ := admitted_polls signal 0 tree.walk
  simp only [Nat.zero_add] at polls stops
  have history : ((start engine tree).execute signal).run.history =
      Phase.course workers.toNat (tree.upTo signal).length report.complete := by
    rw [entered.history, employed]
    rfl
  exact {
    visited_le := visited ▸ le
    passed := visited ▸ polls
    stopped := visited ▸ stops
    whole := by
      rw [← complete, visited]
      exact beq_iff_eq
    history := visited ▸ history
    phase := by
      rw [entered.phase, List.getLast?_concat]
      rfl
    once := by
      rw [history]
      exact Phase.count_done_course _ _ _
    last := by
      rw [history]
      exact List.getLast?_concat
    changing := by
      rw [history]
      exact Phase.isChain_course _ _ _ }

end Run

/-- A file with nine declarations. -/
def Tree.crowded : Tree :=
  ⟨⟨.file, ⟨⟨1, 1, 0⟩, ⟨1, 13, 12⟩, by decide⟩, [],
    List.replicate 9 ⟨.declaration, ⟨⟨1, 1, 0⟩, ⟨1, 7, 6⟩, by decide⟩, [], []⟩⟩, .text "a.go"⟩

/-- Two workers take eight nodes at once. A run that is stopped after the first eight has begun to
dispatch the others. -/
theorem Run.execute_done_crowded :
    (Engine.create ⟨[.erratic], none⟩ .neutral 2).1 =
        .ok ⟨Catalogue.sealed ⟨[.erratic], none⟩, .neutral, 2⟩ ∧
      ∃ report run,
        ((start ⟨Catalogue.sealed ⟨[.erratic], none⟩, .neutral, 2⟩ .crowded).execute
          (.after 8)).result = .ok report ∧
        ((start ⟨Catalogue.sealed ⟨[.erratic], none⟩, .neutral, 2⟩ .crowded).execute
          (.after 8)).run = run ∧
        Done 2 .crowded (.after 8) report.complete run ∧
        report.complete = false ∧ run.visited = 8 ∧
        run.history = [.idle, .traversing, .dispatching, .collecting, .traversing, .dispatching,
          .traversing, .done] := by
  have created : (Engine.create ⟨[.erratic], none⟩ .neutral 2).1 =
      .ok ⟨Catalogue.sealed ⟨[.erratic], none⟩, .neutral, 2⟩ :=
    Engine.create_neutral (by decide) (List.cons_ne_nil _ _)
  have size : Tree.crowded.size = 10 := by
    simp [Tree.size, Tree.walk, Tree.walkFrom, Tree.cursor, Cursor.children, Tree.crowded,
      List.replicate]
  obtain ⟨reports, finished, _⟩ := execute_done created .crowded (.after 8)
  obtain ⟨report, passed⟩ := (reports "a.go" rfl).mpr
    (Engine.not_breaks_of_singleton (by decide) (Rule.erratic_not_breaksWith .crowded) _ _ _)
  have ended := finished report passed
  refine ⟨created, report, _, passed, rfl, ended, ?_⟩
  generalize ((start ⟨Catalogue.sealed ⟨[.erratic], none⟩, .neutral, 2⟩ .crowded).execute
    (.after 8)).run = run at ended ⊢
  have visited : run.visited = 8 := by
    have notMore : ¬ 8 < run.visited := fun more => Bool.false_ne_true (ended.passed 8 more).symm
    have notLess : run.visited < 10 → 8 ≤ (run.visited : Int) := fun less =>
      of_decide_eq_true (ended.stopped (size ▸ less))
    omega
  have stopped : report.complete = false := by
    have whole := ended.whole
    rw [visited, size] at whole
    simpa using whole
  refine ⟨stopped, visited, ?_⟩
  rw [ended.history, visited, stopped]
  rfl

end TreeLint
