import TreeLint.Command.Directory
import TreeLint.Command.Options
import TreeLint.Inspection.Run
import TreeLint.Policy.Reader
import TreeLint.Report.Table
import TreeLint.Tree.Reader
import TreeLint.Value.JsonText

/-!
# The command line program

Reads a tree and policies from files, runs the standard rules over the tree, and prints the report.
The program is a function from the words of the command line and the files to what it prints. If the
report goes to a file, the program stops in front of the writing and says how it goes on.
-/

set_option autoImplicit false

namespace TreeLint.Program

/-- Failures that the program does not turn into a message of its own. -/
inductive Crash where
  | refused (error : FileError)
  | infiniteCoordinate
  | run (error : RunError)
  /-- A policy file was asked for without a name. -/
  | unnamedFile
  /-- A number of workers was asked for and not given. -/
  | uncountedWorkers

def Crash.message : Crash → String
  | refused error => error.message
  | infiniteCoordinate => CoordinateError.infinite.message
  | run error => error.message
  | unnamedFile => "expected str, bytes or os.PathLike object, not list"
  | uncountedWorkers => "'<' not supported between instances of 'list' and 'int'"

inductive Ending where
  | exit (status : Nat)
  /-- A message, and the status 1. -/
  | abort (message : String)
  | crash (cause : Crash)

structure Result where
  ending : Ending
  stdout : String
  stderr : String

inductive Course where
  | ended (result : Result)
  /-- A file is to be saved. The result depends on whether that is possible. -/
  | saving (path : PathName) (bytes : List UInt8) (result : Except FileError Unit → Result)

def name : String := "convcheck"

def usageLine (error : UsageError) : String :=
  name ++ ": error: " ++ error.message ++ "\n"

/-- The notes that are shown: warnings, or all of them. -/
def shown (verbose : Bool) (journal : Journal) : String :=
  Text.unlines ((journal.filter fun note => verbose || note.level == .warning).map Note.line)

/-- The policy file that is read if no other is named. -/
def customaryPolicy : String := "convcheck.yaml"

/-- Reads the policy of a file; a missing or blank file gives the neutral one. -/
def readPolicy (files : Files) (path : PathName) :
    Except Ending Policy :=
  let invalid (error : PolicyError) : Ending :=
    .abort ("Invalid configuration: " ++ error.message)
  let unreadable (message : String) : Ending := invalid (.invalid [.unreadable message])
  match files.document path with
  | .error (.refused error) => .error (.crash (.refused error))
  | .error error => .error (unreadable error.message)
  | .ok .null => .ok .neutral
  | .ok (.object members) => (Policy.ofMembers members).mapError invalid
  | .ok _ => .error (unreadable ("configuration at " ++ path.text ++ " is not a mapping"))

def readPolicies (files : Files) : List (Option String) → Except Ending (List Policy)
  | [] => .ok []
  | none :: _ => .error (.crash .unnamedFile)
  | some file :: rest => do
      let policy ← readPolicy files (.ofText file)
      let policies ← readPolicies files rest
      return policy :: policies

/-- Reads the policies that were named, as one, or else the customary one. -/
def choosePolicy (files : Files) (named : List (Option String)) : Except Ending Policy :=
  if named.isEmpty then readPolicy files (.ofText customaryPolicy)
  else (readPolicies files named).map Policy.merge

/-- The path of a tree read from a file: the one given, else the document's own as it is, else the
name of the file. -/
def treePath (source : Option String) (members : Members) (path : PathName) : Value :=
  Value.orElse (source.map .text) (Value.orElse (members.get? "path") (.text path.text))

def readTree (files : Files) (file : String) (source : Option String) : Except Ending Tree :=
  let path := PathName.ofText file
  let failed (message : String) : Ending := .abort ("Failed to load syntax tree: " ++ message)
  match files.document path with
  | .error (.refused error) => .error (.crash (.refused error))
  | .error error => .error (failed error.message)
  | .ok .null => .error (.abort ("Syntax tree not found: " ++ file))
  | .ok (.object members) =>
      (Tree.ofDocument (treePath source members path) (.object members)).mapError fun error =>
        match error with
        | .infiniteCoordinate => .crash .infiniteCoordinate
        | error => failed error.message
  | .ok _ => .error (failed ("Syntax tree at " ++ path.text ++ " is not a mapping"))

def ruleLines (catalogue : Catalogue) : String :=
  Text.unlines (catalogue.rules.map fun rule =>
    Text.padRight 28 rule.id ++ " " ++ Text.padRight 8 rule.severity.name ++ " " ++ rule.title)

/-- Prints a report: the table and, unless no format is wanted, its JSON text, to a file if one is
named. -/
def deliver (options : Options) (report : Report) (stderr : String) : Course :=
  let table := report.table Report.customaryBound ++ "\n"
  let payload := report.toValue.toJson
  let exit (more : String) : Result := ⟨.exit report.exitCode, table ++ more, stderr⟩
  match options.format, options.output.filter (!·.isEmpty) with
  | none, _ => .ended (exit "")
  | some _, none => .ended (exit ("\nJSON Report\n" ++ payload ++ "\n"))
  | some _, some output =>
      .saving (.ofText output) payload.toUTF8.toList fun
        | .ok () => exit ("\nReport written to " ++ output ++ "\n")
        | .error error => ⟨.crash (.refused error), table, stderr⟩

def setUp (options : Options) (files : Files) : Except Ending Engine × Journal :=
  match choosePolicy files options.configs with
  | .error ending => (.error ending, [])
  | .ok policy =>
      match options.workers with
      | none => (.error (.crash .uncountedWorkers), [])
      | some workers =>
          let (engine, journal) := Engine.create Catalogue.standard policy workers
          (engine.mapError fun error => .abort ("Invalid configuration: " ++ error.message), journal)

def analyse (options : Options) (files : Files) (file : String) (journal : Journal) : Course :=
  let stopped (ending : Ending) (journal : Journal) : Course :=
    .ended ⟨ending, "", shown options.verbose journal⟩
  match readTree files file options.sourcePath with
  | .error ending => stopped ending journal
  | .ok tree =>
      match setUp options files with
      | (.error ending, notes) => stopped ending (journal ++ notes)
      | (.ok engine, notes) =>
          let run := (Run.start engine tree).execute .never
          let journal := journal ++ notes ++ run.journal
          match run.result with
          | .error error => stopped (.crash (.run error)) journal
          | .ok report => deliver options report (shown options.verbose journal)

def paths (options : Options) : List PathName :=
  (options.tree.toList ++ customaryPolicy :: options.configs.filterMap id).map PathName.ofText

/-- Runs the program up to the writing of a file. -/
def run (arguments : List String) (files : Files) : Course :=
  match Options.parse arguments with
  | .error error => .ended ⟨.exit 2, "", usageLine error⟩
  | .ok options =>
      let journal := Catalogue.standardRules.map Catalogue.registrationNote
      if options.help then .ended ⟨.exit 0, "", ""⟩
      else if options.listRules then
        .ended ⟨.exit 0, ruleLines .standard, shown options.verbose journal⟩
      else
        match options.tree.filter (!·.isEmpty) with
        | none => .ended ⟨.exit 2, "", shown options.verbose journal ++ usageLine .treeRequired⟩
        | some file => analyse options files file journal

/-- Runs the program in a directory: what it prints, and the directory as it is left. -/
def runIn (arguments : List String) (directory : Directory) (load : Loader) : Result × Directory :=
  match run arguments (directory.toFiles load) with
  | .ended result => (result, directory)
  | .saving path bytes result =>
      match directory.save path bytes with
      | .ok saved => (result (.ok ()), saved)
      | .error error => (result (.error error), directory)

end TreeLint.Program
