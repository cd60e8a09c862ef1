import TreeLint.Number.IntegerText
import TreeLint.Text.Basic
import TreeLint.Text.Quoted

/-!
# Command line options

Long options may be cut short as long as they are told apart, and take their argument behind an
equals sign or as the next word. Short options take it right behind their letter too, and those
without an argument may share one hyphen.
-/

set_option autoImplicit false

namespace TreeLint

inductive OptionName where
  | help
  | tree
  | sourcePath
  | config
  | workers
  | format
  | output
  | listRules
  | verbose
  deriving DecidableEq, Repr

namespace OptionName

def all : List OptionName :=
  [help, tree, sourcePath, config, workers, format, output, listRules, verbose]

def spellings : OptionName → List String
  | help => ["-h", "--help"]
  | tree => ["--tree", "-t"]
  | sourcePath => ["--source-path"]
  | config => ["--config", "-c"]
  | workers => ["--workers", "-j"]
  | format => ["--format"]
  | output => ["--out", "--output"]
  | listRules => ["--list-rules"]
  | verbose => ["--verbose", "-v"]

def takesArgument : OptionName → Bool
  | help => false
  | listRules => false
  | verbose => false
  | _ => true

def label (name : OptionName) : String :=
  Text.join "/" name.spellings

def table : List (String × OptionName) :=
  all.flatMap fun name => name.spellings.map fun spelling => (spelling, name)

def ofSpelling? (spelling : List Char) : Option OptionName :=
  table.lookup (String.ofList spelling)

end OptionName

inductive UsageError where
  | argumentMissing (option : OptionName)
  | argumentIgnored (option : OptionName) (argument : String)
  | notInteger (option : OptionName) (argument : String)
  | notChoice (option : OptionName) (argument : String)
  | ambiguous (word : String) (spellings : List String)
  | unrecognized (words : List String)
  | treeRequired
  deriving DecidableEq, Repr

def reportFormats : List String := ["json"]

def UsageError.message : UsageError → String
  | argumentMissing option => "argument " ++ option.label ++ ": expected one argument"
  | argumentIgnored option argument =>
      "argument " ++ option.label ++ ": ignored explicit argument " ++ Text.quoted argument
  | notInteger option argument =>
      "argument " ++ option.label ++ ": invalid int value: " ++ Text.quoted argument
  | notChoice option argument =>
      "argument " ++ option.label ++ ": invalid choice: " ++ Text.quoted argument ++
        " (choose from " ++ Text.join ", " (reportFormats.map Text.quoted) ++ ")"
  | ambiguous word spellings =>
      "ambiguous option: " ++ word ++ " could match " ++ Text.join ", " spellings
  | unrecognized words => "unrecognized arguments: " ++ Text.join " " words
  | treeRequired => "--tree is required"

/-- What a command line asks for. An argument is none when only two hyphens were given for it. -/
structure Options where
  help : Bool
  tree : Option String
  sourcePath : Option String
  configs : List (Option String)
  workers : Option Int
  format : Option String
  output : Option String
  listRules : Bool
  verbose : Bool
  deriving DecidableEq, Repr

namespace Options

def initial : Options :=
  { help := false
    tree := none
    sourcePath := none
    configs := []
    workers := some 1
    format := some "json"
    output := none
    listRules := false
    verbose := false }

inductive Word where
  /-- An ordinary word, such as the argument of an option. -/
  | plain (text : String)
  /-- An option with what is attached to it. -/
  | option (text : String) (name : OptionName) (long : Bool) (attached : Option (List Char))
  /-- A word that looks like an option and is none. -/
  | unknown (text : String)
  /-- Two hyphens: no word behind them is an option. -/
  | dashes

def Word.text : Word → String
  | plain text => text
  | option text _ _ _ => text
  | unknown text => text
  | dashes => "--"

/-- What stands in front of and behind the first equals sign. -/
def splitEquals (word : List Char) : List Char × Option (List Char) :=
  match word.dropWhile (· != '=') with
  | [] => (word, none)
  | _ :: rest => (word.takeWhile (· != '='), some rest)

def isDigit (c : Char) : Bool :=
  (Number.digitValue? c).isSome

/-- Whether a word is a negative number: digits, or digits around a decimal point. -/
def isNegativeNumber : List Char → Bool
  | '-' :: rest =>
      let body := if rest.getLast? == some '\n' then rest.dropLast else rest
      match body.dropWhile isDigit with
      | [] => !body.isEmpty
      | '.' :: fraction => !fraction.isEmpty && fraction.all isDigit
      | _ => false
  | _ => false

/-- A word that is not the full spelling of an option, neither alone nor in front of an equals
sign, may start one. -/
def abbreviated (word : List Char) : List (String × OptionName × Bool × Option (List Char)) :=
  match word with
  | '-' :: '-' :: _ =>
      let (front, attached) := splitEquals word
      (OptionName.table.filter fun (spelling, _) =>
          front.isPrefixOf spelling.toList).map fun (spelling, name) =>
        (spelling, name, true, attached)
  | '-' :: letter :: attached =>
      (OptionName.table.filter fun (spelling, _) => spelling.toList == ['-', letter]).map
        fun (spelling, name) => (spelling, name, false, some attached)
  | _ => []

def isLong (spelling : List Char) : Bool :=
  ['-', '-'].isPrefixOf spelling

/-- Classifies a word in front of two hyphens. -/
def classify (text : String) : Except UsageError Word :=
  let word := text.toList
  match word with
  | '-' :: _ :: _ =>
      let (front, attached) := splitEquals word
      match OptionName.ofSpelling? word with
      | some name => .ok (.option text name (isLong word) none)
      | none =>
          match attached.bind fun _ => OptionName.ofSpelling? front with
          | some name => .ok (.option text name (isLong front) attached)
          | none =>
              match abbreviated word with
              | [(_, name, long, attached)] => .ok (.option text name long attached)
              | [] =>
                  if isNegativeNumber word || word.contains ' ' then .ok (.plain text)
                  else .ok (.unknown text)
              | several => .error (.ambiguous text (several.map (·.1)))
  | _ => .ok (.plain text)

def classifyAll : List String → Except UsageError (List Word)
  | [] => .ok []
  | "--" :: rest => .ok (.dashes :: rest.map .plain)
  | text :: rest => do
      let word ← classify text
      let words ← classifyAll rest
      return word :: words

/-- Options without an argument that share a hyphen, up to the first that takes one: the options in
front, the last option, and what is attached to it. -/
def cluster (name : OptionName) :
    List Char → Except UsageError (List OptionName × OptionName × Option (List Char))
  | [] => if name.takesArgument then .ok ([], name, some []) else .error (.argumentIgnored name "")
  | letter :: rest =>
      if name.takesArgument then .ok ([], name, some (letter :: rest))
      else
        match OptionName.ofSpelling? ['-', letter] with
        | none => .error (.argumentIgnored name (String.ofList (letter :: rest)))
        | some next =>
            if rest.isEmpty then .ok ([name], next, none)
            else do
              let (front, last, argument) ← cluster next rest
              return (name :: front, last, argument)

def setFlag (options : Options) : OptionName → Options
  | .help => { options with help := true }
  | .listRules => { options with listRules := true }
  | .verbose => { options with verbose := true }
  | _ => options

def setArgument (options : Options) (name : OptionName) (argument : String) :
    Except UsageError Options :=
  let given := if argument == "--" then none else some argument
  match name with
  | .tree => .ok { options with tree := given }
  | .sourcePath => .ok { options with sourcePath := given }
  | .config => .ok { options with configs := options.configs ++ [given] }
  | .output => .ok { options with output := given }
  | .workers =>
      match given with
      | none => .ok { options with workers := none }
      | some text =>
          match Number.readInteger text.toList with
          | .ok count => .ok { options with workers := some count }
          | .error _ => .error (.notInteger name text)
  | .format =>
      match given with
      | none => .ok { options with format := none }
      | some text =>
          if reportFormats.contains text then .ok { options with format := some text }
          else .error (.notChoice name text)
  | _ => .ok options

/-- Takes note of options that share a hyphen, one after the other. A plea for help among those in
front makes the argument of the last one immaterial. -/
def setCluster (options : Options) (front : List OptionName) (last : OptionName)
    (argument : Option String) : Except UsageError Options :=
  let flagged := front.foldl setFlag options
  if flagged.help then .ok flagged
  else
    match argument with
    | some text => flagged.setArgument last text
    | none => .ok (flagged.setFlag last)

/-- Reads the words: what they ask for, and the words that nothing asked for. A plea for help ends
the reading, but not before the word that it stands in has its argument. -/
def read (options : Options) (extras : List String) :
    List Word → Except UsageError (Options × List String)
  | [] => .ok (options, extras)
  | .option _ name long attached :: rest => do
      let (front, last, argument) ←
        match attached with
        | none => .ok ([], name, none)
        | some text =>
            if long && !name.takesArgument then
              .error (.argumentIgnored name (String.ofList text))
            else cluster name text
      match last.takesArgument, argument, rest with
      | true, some text, rest => do
          let next ← options.setCluster front last (some (String.ofList text))
          if next.help then return (next, []) else next.read extras rest
      | true, none, .plain text :: rest => do
          let next ← options.setCluster front last (some text)
          if next.help then return (next, []) else next.read extras rest
      | true, none, _ => .error (.argumentMissing last)
      | false, _, rest => do
          let next ← options.setCluster front last none
          if next.help then return (next, []) else next.read extras rest
  | word :: rest => options.read (extras ++ [word.text]) rest

def parse (arguments : List String) : Except UsageError Options := do
  let words ← classifyAll arguments
  let (options, extras) ← initial.read [] words
  if options.help || extras.isEmpty then return options
  else throw (.unrecognized extras)

end Options

end TreeLint
