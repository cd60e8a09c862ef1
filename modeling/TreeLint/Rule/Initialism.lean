import TreeLint.Rule.Reading
import TreeLint.Rule.Words

/-!
# Initialisms keep one case

`URL` and `url` are fine, `Url` is not.
-/

set_option autoImplicit false

namespace TreeLint.Initialism

def info : RuleInfo where
  family := "InitialismCaseRule"
  id := "naming.initialism-case"
  title := "Initialism with mixed case"
  recommendation := "Write initialisms in a consistent case, e.g. ServeHTTP, userID, urlPath."
  severity := .warning
  kinds := [.identifier]
  scope := .node

def known : List String :=
  ["ACL", "API", "ASCII", "CPU", "CSS", "DNS", "EOF", "GUID", "HTML", "HTTP", "HTTPS", "ID", "IP",
   "JSON", "LHS", "QPS", "RAM", "RHS", "RPC", "SLA", "SMTP", "SQL", "SSH", "TCP", "TLS", "TTL",
   "UDP", "UI", "UID", "UUID", "URI", "URL", "UTF8", "VM", "XML", "XMPP", "XSRF", "XSS"]

/-- A word of an identifier in capitals. Such words are ASCII. -/
def capitalised (word : List Char) : List Char :=
  word.map Char.toUpper

/-- Whether a word is an initialism that starts with a capital and goes on in small letters. -/
def isMixed (word : List Char) : Except Failure Bool :=
  if known.contains (String.ofList (capitalised word)) && word != capitalised word then
    (Text.firstCharacter word).map Char.isUpper
  else .ok false

def message (name : String) (word : List Char) : String :=
  "initialism \"" ++ String.ofList word ++ "\" in \"" ++ name ++ "\" should be \"" ++
    String.ofList (capitalised word) ++ "\"."

def rule : Rule where
  toRuleInfo := info
  applies cursor := .ok (!cursor.node.name.isEmpty)
  evaluate cursor _ := do
    let name := cursor.node.name
    let mixed ← (Words.split name.toList).filterM isMixed
    return mixed.map fun word => info.finding cursor.node (message name word)

end TreeLint.Initialism
