import Mathlib.Data.List.DropRight
import TreeLint.Proofs.ListsAndResults
import TreeLint.Rule.Catalogue
import TreeLint.Tree.Reader

/-!
# Where the standard rules fail

Attributes hold any values, and the rules read them with operations that do not work on all values.
Each standard rule looks at what it reads before it relies on it, with one exception: the rule on
getters looks `declKind` up as it stands, which fails on a list and on an object.
-/

set_option autoImplicit false

namespace TreeLint

/-! ## Texts with something in them -/

namespace Text

theorem trimChars_eq_cons {text : List Char} (nonempty : trimChars text ≠ []) :
    ∃ first rest, trimChars text = first :: rest ∧ isBlank first = false := by
  have front : trimChars text <+: text.dropWhile isBlank :=
    List.rdropWhile_prefix isBlank (text.dropWhile isBlank)
  obtain ⟨first, rest, trimmed⟩ := List.exists_cons_of_ne_nil nonempty
  rw [trimmed] at front
  obtain ⟨cut, whole⟩ := front
  -- What trimming leaves starts where the blanks in front end.
  have starts := List.head?_dropWhile_not isBlank text
  rw [← whole] at starts
  exact ⟨first, rest, trimmed, starts⟩

theorem firstWord_trimChars {text : List Char} (nonempty : trimChars text ≠ []) :
    ∃ first rest, firstWord (trimChars text) = .ok (first :: rest) := by
  obtain ⟨first, rest, trimmed, solid⟩ := trimChars_eq_cons nonempty
  refine ⟨first, rest.takeWhile fun c => !isBlank c, ?_⟩
  rw [trimmed, firstWord, List.dropWhile_cons_of_neg (by simp [solid]),
    List.takeWhile_cons_of_pos (by simp [solid])]

end Text

/-! ## The rules one by one -/

theorem ErrorText.findings_trimChars (node : Node) (text : List Char) :
    ∃ found, findings node (Text.trimChars text) = .ok found := by
  rw [findings]
  split
  next => exact ⟨[], rfl⟩
  next nonempty =>
    obtain ⟨first, rest, word⟩ :=
      Text.firstWord_trimChars fun empty => nonempty (by rw [empty]; rfl)
    rw [isCapitalised, word]
    exact ⟨_, rfl⟩

theorem ErrorText.evaluate_of_applies {cursor : Cursor} (tree : Tree)
    (applied : rule.applies cursor = .ok true) :
    ∃ found, rule.evaluate cursor tree = .ok found := by
  have marked : isErrorText cursor.node = true := Except.ok.inj applied
  unfold isErrorText at marked
  split at marked
  next text _ holds =>
    obtain ⟨found, answered⟩ := findings_trimChars cursor.node text.toList
    refine ⟨found, ?_⟩
    simp only [rule, holds, Option.getD_some, Value.trimmed]
    exact answered
  next => cases marked

/-- A word without a first character is no initialism, so none is asked for it. -/
theorem Initialism.isMixed_eq (word : List Char) :
    isMixed word = .ok (known.contains (String.ofList (capitalised word)) &&
      word != capitalised word && word.head?.any Char.isUpper) := by
  unfold isMixed
  cases word with
  | nil => rfl
  | cons first rest =>
      cases known.contains (String.ofList (capitalised (first :: rest))) &&
        (first :: rest) != capitalised (first :: rest) <;> rfl

theorem Initialism.evaluate_eq_ok (cursor : Cursor) (tree : Tree) :
    ∃ found, rule.evaluate cursor tree = .ok found := by
  have mixed := filterM_eq_ok fun word (_ : word ∈ Words.split cursor.node.name.toList) =>
    isMixed_eq word
  simp only [rule, mixed]
  exact ⟨_, rfl⟩

/-- The declaration gives a list or an object as its kind. -/
def GetterName.Misgiven (node : Node) : Prop :=
  ∃ given, node.attribute? "declKind" = some given ∧
    ((∃ items, given = .list items) ∨ ∃ members, given = .object members)

theorem GetterName.applies_eq_ok_iff (cursor : Cursor) :
    (∃ concerned, rule.applies cursor = .ok concerned) ↔ ¬ Misgiven cursor.node := by
  simp only [rule, isFunction, Misgiven]
  cases cursor.node.attribute? "declKind" with
  | none => simp [Value.isAmong, bind, Except.bind, pure, Except.pure]
  | some given => cases given <;> simp [Value.isAmong, bind, Except.bind, pure, Except.pure]

/-! ## All standard rules -/

namespace Catalogue

theorem mem_standardRules_of_mem_rulesFor {kind : Kind} {rule : Rule}
    (dispatched : rule ∈ standard.rulesFor kind) : rule ∈ standardRules := by
  have indexed : standard.rulesFor kind = standardRules.filter fun rule => rule.isFor kind := by
    cases kind <;> rfl
  rw [indexed] at dispatched
  exact List.mem_of_mem_filter dispatched

/-- A standard rule answers whatever it is asked about a node, except that the rule on getters fails
on a declaration that gives a list or an object as its kind. -/
theorem standard_answers_iff (tree : Tree) (cursor : Cursor) {rule : Rule}
    (dispatched : rule ∈ standard.rulesFor cursor.node.kind) :
    ((∃ concerned, rule.applies cursor = .ok concerned) ∧
        (rule.applies cursor = .ok true → ∃ found, rule.evaluate cursor tree = .ok found)) ↔
      ¬ (rule.id = GetterName.info.id ∧ GetterName.Misgiven cursor.node) := by
  have standing := mem_standardRules_of_mem_rulesFor dispatched
  simp only [standardRules, List.mem_cons, List.not_mem_nil, or_false] at standing
  rcases standing with rfl | rfl | rfl | rfl | rfl
  · have own : GetterName.rule.id = GetterName.info.id := rfl
    rw [GetterName.applies_eq_ok_iff, and_iff_left fun _ => ⟨_, rfl⟩, and_iff_right own]
  · have other : Initialism.rule.id ≠ GetterName.info.id := by decide
    have answered := Initialism.evaluate_eq_ok cursor tree
    exact iff_of_true ⟨⟨_, rfl⟩, fun _ => answered⟩ fun failing => other failing.1
  · have other : ReceiverName.rule.id ≠ GetterName.info.id := by decide
    exact iff_of_true ⟨⟨_, rfl⟩, fun _ => ⟨_, rfl⟩⟩ fun failing => other failing.1
  · have other : ErrorText.rule.id ≠ GetterName.info.id := by decide
    exact iff_of_true ⟨⟨_, rfl⟩, ErrorText.evaluate_of_applies tree⟩ fun failing => other failing.1
  · have other : RepeatedImport.rule.id ≠ GetterName.info.id := by decide
    exact iff_of_true ⟨⟨_, rfl⟩, fun _ => ⟨_, rfl⟩⟩ fun failing => other failing.1

/-- A literal marked as an error text, with blanks around two words. -/
def erring : Cursor :=
  ⟨[], ⟨.literal, ⟨⟨1, 0, 0⟩, ⟨1, 15, 15⟩, by decide⟩,
    [("errorString", .bool true), ("value", .text "  Not found. ")], []⟩, []⟩

theorem standard_answers_iff_erring :
    ErrorText.rule ∈ standard.rulesFor .literal ∧ ErrorText.rule.applies erring = .ok true ∧
      ∃ found, ErrorText.rule.evaluate erring ⟨erring.node, .text "a.go"⟩ = .ok found := by
  have dispatched : ErrorText.rule ∈ standard.rulesFor erring.node.kind := List.mem_cons_self
  have other : ErrorText.rule.id ≠ GetterName.info.id := by decide
  have answers := (standard_answers_iff ⟨erring.node, .text "a.go"⟩ erring dispatched).mpr
    fun failing => other failing.1
  exact ⟨dispatched, rfl, answers.2 rfl⟩

/-- A document whose root is a declaration with a list in place of the name of its kind. -/
def listedKind : Value :=
  .object [("kind", .text "Declaration"),
    ("span", .object [("start", .list [.integer 1, .integer 0, .integer 0]),
      ("end", .list [.integer 1, .integer 9, .integer 9])]),
    ("attributes", .object [("declKind", .list []), ("exported", .bool true),
      ("name", .text "GetOwner")])]

theorem standard_fails_listedKind :
    ∃ tree, Tree.ofDocument .null listedKind = .ok tree ∧ tree.cursor ∈ tree.walk ∧
      GetterName.rule ∈ standard.rulesFor tree.cursor.node.kind ∧
      GetterName.rule.applies tree.cursor = .error (.unhashable "list") := by
  refine ⟨_, rfl, ?_, List.mem_cons_self, rfl⟩
  rw [Tree.walk, Tree.walkFrom]
  exact List.mem_cons_self

end Catalogue

end TreeLint
