import TreeLint.Rule.Basic

/-!
# Receivers are named after their type

Words that could name the receiver of any method are avoided.
-/

set_option autoImplicit false

namespace TreeLint.ReceiverName

def info : RuleInfo where
  family := "ReceiverNameRule"
  id := "naming.receiver-name"
  title := "Generic receiver name"
  recommendation :=
    "Use a one or two letter abbreviation of the receiver type, e.g. c for Client."
  severity := .info
  kinds := [.declaration]
  scope := .node

def generic : List String := ["this", "self", "me"]

def isMethod (node : Node) : Bool :=
  match node.attribute? "declKind" with
  | some (.text kind) => kind == "method"
  | _ => false

def message (receiver : String) : String :=
  "receiver name \"" ++ receiver ++ "\" should be an abbreviation of its type."

def rule : Rule where
  toRuleInfo := info
  applies cursor := .ok (isMethod cursor.node)
  evaluate cursor _ :=
    .ok <|
      match cursor.node.attribute? "receiverName" with
      | some (.text receiver) =>
          if generic.contains receiver then [info.finding cursor.node (message receiver)] else []
      | _ => []

end TreeLint.ReceiverName
