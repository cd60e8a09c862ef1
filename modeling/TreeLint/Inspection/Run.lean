import TreeLint.Inspection.Dispatch
import TreeLint.Report.Ledger
import TreeLint.Waiver.Sheet

/-!
# Runs

A run takes one tree through an engine, once. The nodes are taken in the order of the walk, one by
one or in batches. Before each node the run asks whether to go on; a signal answers.
-/

set_option autoImplicit false

namespace TreeLint

inductive Phase where
  | idle
  | traversing
  | dispatching
  | collecting
  | done
  deriving DecidableEq, Repr

def Phase.name : Phase → String
  | idle => "idle"
  | traversing => "traversing"
  | dispatching => "rule_dispatch"
  | collecting => "collecting"
  | done => "done"

/-- Whether to stop, for the first, second, ... time a run asks. -/
abbrev Signal := Nat → Bool

def Signal.never : Signal := fun _ => false

/-- The signal that lets `count` nodes pass. -/
def Signal.after (count : Int) : Signal := fun asked => decide (count ≤ asked)

structure Run where
  engine : Engine
  tree : Tree
  phase : Phase
  /-- The phases so far, the present one last. -/
  history : List Phase
  /-- The number of nodes that were collected. -/
  visited : Nat
  ledger : Ledger

inductive RunError where
  | executedBefore
  | path (error : PathNotText)
  | escaped (escape : Escape)
  deriving DecidableEq, Repr

def RunError.message : RunError → String
  | executedBefore => "an analysis run can only be executed once"
  | path error => error.message
  | escaped escape => escape.message

/-- How a part of a run ends: its result, the run as it stands then, and the notes made. -/
structure Progress (α : Type) where
  result : Except RunError α
  run : Run
  journal : Journal

namespace Run

def start (engine : Engine) (tree : Tree) : Run :=
  ⟨engine, tree, .idle, [.idle], 0, .empty⟩

/-- Goes over to a phase. Staying in a phase leaves no trace. -/
def enter (run : Run) (phase : Phase) : Run :=
  if run.phase = phase then run else { run with phase, history := run.history ++ [phase] }

def dispatch (run : Run) (cursor : Cursor) : Except Escape Outcome :=
  run.engine.dispatch run.tree cursor

def faultNote (fault : Fault) : Note :=
  let place :=
    match fault.span with
    | some span => span.label
    | none => "None"
  ⟨.warning, Engine.source,
    "Rule " ++ fault.ruleId ++ " faulted on " ++ fault.nodeKind ++ " at " ++ place ++ ": " ++
      fault.errorType ++ ": " ++ fault.detail⟩

/-- Enters findings into a ledger, each marked if a waiver covers it. -/
def enterProposals (sheet : WaiverSheet) :
    Ledger → List Proposal → Except RunError Ledger
  | ledger, [] => .ok ledger
  | ledger, ⟨finding, obstacle⟩ :: rest =>
      match sheet.covers finding, obstacle with
      | .error error, _ => .error (.path error)
      | .ok _, some escape => .error (.escaped escape)
      | .ok silenced, none =>
          enterProposals sheet
            (ledger.add (if silenced then { finding with suppressed := true } else finding)) rest

def collect (sheet : WaiverSheet) (run : Run) : Except Escape Outcome → Progress Unit
  | .error escape => ⟨.error (.escaped escape), run, []⟩
  | .ok outcome =>
      let run := run.enter .collecting
      let journal := outcome.faults.map faultNote
      let ledger := outcome.faults.foldl Ledger.addFault run.ledger
      match enterProposals sheet ledger outcome.proposals with
      | .ok ledger => ⟨.ok (), { run with ledger, visited := run.visited + 1 }, journal⟩
      | .error error => ⟨.error error, run, journal⟩

/-- Takes nodes one by one. The answer is whether no signal stopped the run. -/
def traverse (sheet : WaiverSheet) (signal : Signal) (asked : Nat) (run : Run) :
    List Cursor → Progress Bool
  | [] => ⟨.ok true, run, []⟩
  | cursor :: rest =>
      if signal asked then ⟨.ok false, run, []⟩
      else
        let run := run.enter .dispatching
        let step := run.collect sheet (run.dispatch cursor)
        match step.result with
        | .error error => ⟨.error error, step.run, step.journal⟩
        | .ok () =>
            let later := traverse sheet signal (asked + 1) (step.run.enter .traversing) rest
            { later with journal := step.journal ++ later.journal }

/-- Cuts a list into batches of a size; the last one may be smaller. -/
def batches {α : Type} (size : Nat) (batch : List α) : List α → List (List α)
  | [] => if batch.isEmpty then [] else [batch]
  | item :: rest =>
      let batch := batch ++ [item]
      if size ≤ batch.length then batch :: batches size [] rest else batches size batch rest

/-- The nodes of a batch in front of the first at which the signal stops the run. -/
def admitted (signal : Signal) (asked : Nat) : List Cursor → List Cursor
  | [] => []
  | cursor :: rest => if signal asked then [] else cursor :: admitted signal (asked + 1) rest

def collectAll (sheet : WaiverSheet) (run : Run) :
    List (Except Escape Outcome) → Progress Unit
  | [] => ⟨.ok (), run, []⟩
  | outcome :: rest =>
      let step := run.collect sheet outcome
      match step.result with
      | .error error => ⟨.error error, step.run, step.journal⟩
      | .ok () =>
          let later := collectAll sheet step.run rest
          { later with journal := step.journal ++ later.journal }

/-- Takes nodes batch by batch: all nodes of a batch are dispatched before the first is collected.
When the signal stops the run within a batch, the nodes in front are still collected. -/
def traverseBatches (sheet : WaiverSheet) (signal : Signal) (asked : Nat) (run : Run) :
    List (List Cursor) → Progress Bool
  | [] => ⟨.ok true, run, []⟩
  | batch :: rest =>
      let run := run.enter .dispatching
      let nodes := admitted signal asked batch
      let step := run.collectAll sheet (nodes.map run.dispatch)
      match step.result with
      | .error error => ⟨.error error, step.run, step.journal⟩
      | .ok () =>
          let run := step.run.enter .traversing
          if nodes.length < batch.length then ⟨.ok false, run, step.journal⟩
          else
            let later := traverseBatches sheet signal (asked + batch.length) run rest
            { later with journal := step.journal ++ later.journal }

def batchSize (workers : Nat) : Nat := workers * 4

/-- Takes all nodes: one by one for a single worker, else in batches. -/
def traverseAll (sheet : WaiverSheet) (signal : Signal) (run : Run) : Progress Bool :=
  if run.engine.workers = 1 then run.traverse sheet signal 0 run.tree.walk
  else
    run.traverseBatches sheet signal 0 (batches (batchSize run.engine.workers) [] run.tree.walk)

def beginNote (run : Run) : Note :=
  ⟨.debug, Engine.source,
    "Analyzing " ++ run.tree.pathText ++ " (" ++ toString run.tree.size ++ " nodes, " ++
      toString run.engine.workers ++ " workers)"⟩

def cancelNote (run : Run) : Note :=
  ⟨.info, Engine.source,
    "Analysis of " ++ run.tree.pathText ++ " cancelled after " ++ toString run.visited ++ " nodes"⟩

def endNote (run : Run) (report : Report) : Note :=
  ⟨.debug, Engine.source,
    "Finished " ++ run.tree.pathText ++ ": " ++ toString report.findings.length ++ " findings, " ++
      toString report.suppressedCount ++ " suppressed, " ++ toString report.faults.length ++
      " faults"⟩

def finish (run : Run) (complete : Bool) : Progress Report :=
  let notes := if complete then [] else [run.cancelNote]
  let run := run.enter .done
  let report := run.ledger.report run.tree.path complete
  ⟨.ok report, run, notes ++ [run.endNote report]⟩

/-- Executes a run, which must not have begun. -/
def execute (run : Run) (signal : Signal) : Progress Report :=
  if run.phase ≠ .idle then ⟨.error .executedBefore, run, []⟩
  else
    let (sheet, journal) := WaiverSheet.ofTree run.tree run.engine.policy
    let opening := run.beginNote :: journal
    let taken := (run.enter .traversing).traverseAll sheet signal
    match taken.result with
    | .error error => ⟨.error error, taken.run, opening ++ taken.journal⟩
    | .ok complete =>
        let ended := taken.run.finish complete
        { ended with journal := opening ++ taken.journal ++ ended.journal }

end Run

end TreeLint
