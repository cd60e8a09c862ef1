import TreeLint.Rule.Reading

/-!
# Getters are named after what they return

An exported function or method without parameters is not called `Get` followed by a capital.
-/

set_option autoImplicit false

namespace TreeLint.GetterName

def info : RuleInfo where
  family := "GetterPrefixRule"
  id := "naming.getter-prefix"
  title := "Getter uses Get prefix"
  recommendation :=
    "Name the getter after the value it returns, e.g. Owner() instead of GetOwner()."
  severity := .warning
  kinds := [.declaration]
  scope := .node

def functionKinds : List String := ["func", "method"]

/-- Whether a declaration is a function or a method; it is a function if nothing is said. -/
def isFunction (node : Node) : Except Failure Bool :=
  ((node.attribute? "declKind").getD (.text "func")).isAmong functionKinds

def isExported (node : Node) : Bool :=
  match node.attribute? "exported" with
  | some (.bool true) => true
  | _ => false

def hasGetName (name : List Char) : Bool :=
  match name with
  | 'G' :: 'e' :: 't' :: c :: _ => c.isUpper
  | 'g' :: 'e' :: 't' :: c :: _ => c.isUpper
  | _ => false

/-- Whether a declaration has parameters, given as a list or as their number. -/
def hasParameters (node : Node) : Bool :=
  match node.attribute? "params" with
  | some (.list items) => !items.isEmpty
  | some (.integer count) => count > 0
  | some (.bool value) => value
  | _ => false

def message : String := "exported getter should not use Get prefix."

def rule : Rule where
  toRuleInfo := info
  applies cursor := do
    let function ← isFunction cursor.node
    return function && isExported cursor.node
  evaluate cursor _ :=
    .ok <|
      if hasGetName cursor.node.name.toList && !hasParameters cursor.node then
        [info.finding cursor.node message]
      else []

end TreeLint.GetterName
