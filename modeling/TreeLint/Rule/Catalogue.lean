import TreeLint.Rule.ErrorText
import TreeLint.Rule.GetterName
import TreeLint.Rule.Initialism
import TreeLint.Rule.ReceiverName
import TreeLint.Rule.RepeatedImport

/-!
# Catalogues of rules

Rules are registered one by one, each under an id of its own. Closing a catalogue indexes its rules
by node kind, and no further rule is taken.
-/

set_option autoImplicit false

namespace TreeLint

structure Catalogue where
  /-- The rules in the order of their registration. -/
  rules : List Rule
  /-- The rules for each kind, once the catalogue is closed. -/
  index : Option (List (Kind × List Rule))

inductive RegistrationError where
  | closed (id : String)
  | unnamed (label : String)
  | duplicate (id : String)
  deriving DecidableEq, Repr

def RegistrationError.message : RegistrationError → String
  | closed id => "cannot register " ++ Text.quoted id ++ ": registry is frozen"
  | unnamed label => "rule " ++ label ++ " has no id"
  | duplicate id => "rule " ++ Text.quoted id ++ " is already registered"

namespace Catalogue

def empty : Catalogue := ⟨[], none⟩

def isClosed (catalogue : Catalogue) : Bool :=
  catalogue.index.isSome

def ids (catalogue : Catalogue) : List String :=
  catalogue.rules.map (·.id)

def size (catalogue : Catalogue) : Nat :=
  catalogue.rules.length

def get? (catalogue : Catalogue) (id : String) : Option Rule :=
  catalogue.rules.find? fun rule => rule.id == id

def contains (catalogue : Catalogue) (id : String) : Bool :=
  (catalogue.get? id).isSome

def register (catalogue : Catalogue) (rule : Rule) : Except RegistrationError Catalogue :=
  if catalogue.isClosed then .error (.closed rule.id)
  else if rule.id.isEmpty then .error (.unnamed rule.label)
  else if catalogue.contains rule.id then .error (.duplicate rule.id)
  else .ok { catalogue with rules := catalogue.rules ++ [rule] }

def collect (catalogue : Catalogue) (kind : Kind) : List Rule :=
  catalogue.rules.filter fun rule => rule.isFor kind

/-- Indexes the rules, which closes the catalogue. -/
def close (catalogue : Catalogue) : Catalogue :=
  { catalogue with index := some (Kind.all.map fun kind => (kind, catalogue.collect kind)) }

def rulesFor (catalogue : Catalogue) (kind : Kind) : List Rule :=
  match catalogue.index.bind (List.lookup kind) with
  | some rules => rules
  | none => catalogue.collect kind

/-- Looks up the rules for a kind. A closed catalogue keeps the rules that it had to collect. -/
def consult (catalogue : Catalogue) (kind : Kind) : List Rule × Catalogue :=
  match catalogue.index.bind (List.lookup kind) with
  | some rules => (rules, catalogue)
  | none =>
      let rules := catalogue.collect kind
      (rules, { catalogue with index := catalogue.index.map fun index => index ++ [(kind, rules)] })

/-- The rules of a scope, if one is given, that apply to a node. The first failure decides. -/
def applicable (catalogue : Catalogue) (cursor : Cursor) (scope : Option Scope) :
    Except Failure (List Rule) :=
  ((catalogue.rulesFor cursor.node.kind).filter fun rule => scope.all (rule.scope == ·)).filterM
    fun rule => rule.applies cursor

def registrationNote (rule : Rule) : Note :=
  ⟨.debug, "convcheck.registry", "Registered rule " ++ rule.id⟩

/-- Registers rules one by one, up to the first that is refused, and notes each. -/
def registerAll (catalogue : Catalogue) : List Rule → Except RegistrationError Catalogue × Journal
  | [] => (.ok catalogue, [])
  | rule :: rest =>
      match catalogue.register rule with
      | .error error => (.error error, [])
      | .ok next =>
          let (result, journal) := next.registerAll rest
          (result, registrationNote rule :: journal)

def standardRules : List Rule :=
  [GetterName.rule, Initialism.rule, ReceiverName.rule, ErrorText.rule, RepeatedImport.rule]

def standard : Catalogue :=
  close ⟨standardRules, none⟩

end Catalogue

end TreeLint
