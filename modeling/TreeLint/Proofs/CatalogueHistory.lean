import TreeLint.Proofs.CatalogueProperties

/-!
# Catalogues over their whole life

A catalogue is registered to, closed and consulted in any order. What it holds is at every point a
matter of the registrations that went through before it was first closed; consulting it leaves no
trace, with or without an index.
-/

set_option autoImplicit false

namespace TreeLint.Catalogue

/-! ## Programs of operations -/

/-- What can be done with a catalogue that may leave a trace in it. All other look-ups only read. -/
inductive Operation where
  | register (rule : Rule)
  | close
  | consult (kind : Kind)

/-- The catalogue after an operation. A refused registration leaves it as it is. -/
def perform (catalogue : Catalogue) : Operation → Catalogue
  | .register rule =>
      match catalogue.register rule with
      | .ok next => next
      | .error _ => catalogue
  | .close => catalogue.close
  | .consult kind => (catalogue.consult kind).2

def after (catalogue : Catalogue) (operations : List Operation) : Catalogue :=
  operations.foldl perform catalogue

theorem after_cons (catalogue : Catalogue) (operation : Operation) (rest : List Operation) :
    catalogue.after (operation :: rest) = (catalogue.perform operation).after rest :=
  rfl

/-- The rules whose registration goes through, in order. -/
def registered (catalogue : Catalogue) : List Operation → List Rule
  | [] => []
  | .register rule :: rest =>
      match catalogue.register rule with
      | .ok next => rule :: next.registered rest
      | .error _ => catalogue.registered rest
  | .close :: rest => catalogue.close.registered rest
  | .consult kind :: rest => (catalogue.consult kind).2.registered rest

/-- The rules that are offered before the first closing, also those that are refused. -/
def offered : List Operation → List Rule
  | [] => []
  | .register rule :: rest => rule :: offered rest
  | .close :: _ => []
  | .consult _ :: rest => offered rest

/-! ## Single operations -/

theorem register_eq_error_iff {catalogue : Catalogue} {rule : Rule} {error : RegistrationError} :
    catalogue.register rule = .error error ↔
      (catalogue.isClosed = true ∧ error = .closed rule.id) ∨
      (catalogue.isClosed = false ∧ rule.id = "" ∧ error = .unnamed rule.label) ∨
      (catalogue.isClosed = false ∧ rule.id ≠ "" ∧ rule.id ∈ catalogue.ids ∧
        error = .duplicate rule.id) := by
  unfold register
  split
  next closed => simp [closed, @eq_comm _ error]
  next isOpen =>
    split
    next unnamed =>
      have empty := String.isEmpty_iff.mp unnamed
      simp [isOpen, empty, @eq_comm _ error]
    next named =>
      have nonempty : rule.id ≠ "" := fun empty => named (String.isEmpty_iff.mpr empty)
      split
      next known => simp [isOpen, nonempty, contains_iff.mp known, @eq_comm _ error]
      next unknown =>
        have absent : rule.id ∉ catalogue.ids := fun member => unknown (contains_iff.mpr member)
        simp [isOpen, nonempty, absent]

theorem consult_fst (catalogue : Catalogue) (kind : Kind) :
    (catalogue.consult kind).1 = catalogue.rulesFor kind := by
  unfold consult rulesFor
  split <;> rfl

theorem Sound.consult_eq {catalogue : Catalogue} (sound : catalogue.Sound) (kind : Kind) :
    catalogue.consult kind = (catalogue.rules.filter fun rule => rule.isFor kind, catalogue) := by
  refine Prod.ext ((catalogue.consult_fst kind).trans (sound.rulesFor kind)) ?_
  unfold Catalogue.consult
  split
  next => rfl
  next missing =>
    rcases sound.indexed with unindexed | indexed
    · obtain ⟨rules, index⟩ := catalogue
      cases unindexed
      rfl
    · -- An index has all kinds, so nothing is ever added to one.
      rw [indexed] at missing
      simp [Catalogue.close, lookup_index] at missing

theorem Sound.perform_consult {catalogue : Catalogue} (sound : catalogue.Sound) (kind : Kind) :
    catalogue.perform (.consult kind) = catalogue := by
  rw [Catalogue.perform, sound.consult_eq]

/-- Closing a closed catalogue draws up the same index again. -/
theorem Sound.close_eq {catalogue : Catalogue} (sound : catalogue.Sound)
    (closed : catalogue.isClosed = true) : catalogue.close = catalogue := by
  rcases sound.indexed with unindexed | indexed
  · simp [isClosed, unindexed] at closed
  · exact congrArg (Catalogue.mk catalogue.rules) indexed.symm

theorem Sound.perform {catalogue : Catalogue} (sound : catalogue.Sound) (operation : Operation) :
    (catalogue.perform operation).Sound := by
  cases operation with
  | register rule =>
      rw [Catalogue.perform]
      split
      next next accepted => exact sound.register accepted
      next => exact sound
  | close => exact sound.close
  | consult kind =>
      rw [sound.perform_consult]
      exact sound

theorem isClosed_perform_register (catalogue : Catalogue) (rule : Rule) :
    (catalogue.perform (.register rule)).isClosed = catalogue.isClosed := by
  rw [perform]
  split
  next next accepted =>
    obtain ⟨_, _, _, rfl⟩ := register_eq_ok_iff.mp accepted
    rfl
  next => rfl

theorem Sound.isClosed_perform {catalogue : Catalogue} (sound : catalogue.Sound)
    (operation : Operation) :
    (catalogue.perform operation).isClosed = true ↔
      catalogue.isClosed = true ∨ operation = .close := by
  cases operation with
  | register rule => simp [isClosed_perform_register]
  | close => simp [Catalogue.perform, Catalogue.close, isClosed]
  | consult kind => simp [sound.perform_consult]

theorem rules_consult (catalogue : Catalogue) (kind : Kind) :
    (catalogue.consult kind).2.rules = catalogue.rules := by
  unfold consult
  split <;> rfl

theorem Sound.get?_empty {catalogue : Catalogue} (sound : catalogue.Sound) :
    catalogue.get? "" = none := by
  have absent : ¬ catalogue.contains "" = true := contains_iff.not.mpr sound.named
  simpa [contains] using absent

theorem get?_perform_register {catalogue : Catalogue} {rule : Rule} {id : String}
    (isOpen : catalogue.isClosed = false) (nonempty : id ≠ "") :
    (catalogue.perform (.register rule)).get? id =
      (catalogue.get? id).or ([rule].find? fun rule => rule.id == id) := by
  rw [perform]
  split
  next next accepted =>
    obtain ⟨_, _, _, rfl⟩ := register_eq_ok_iff.mp accepted
    exact List.find?_append
  next error refused =>
    rcases register_eq_error_iff.mp refused with
      ⟨closed, _⟩ | ⟨_, unnamed, _⟩ | ⟨_, _, known, _⟩
    · rw [isOpen] at closed
      cases closed
    · have other : (rule.id == id) = false := by
        rw [unnamed]
        exact beq_false_of_ne nonempty.symm
      rw [List.find?_cons_of_neg (by simp [other]), List.find?_nil, Option.or_none]
    · by_cases same : rule.id = id
      · -- The rule that was there first keeps its place.
        have present : (catalogue.get? id).isSome = true := contains_iff.mpr (same ▸ known)
        rw [Option.or_of_isSome present]
      · rw [List.find?_cons_of_neg (by simpa using same), List.find?_nil, Option.or_none]

/-! ## Closed catalogues -/

theorem Sound.perform_of_closed {catalogue : Catalogue} (sound : catalogue.Sound)
    (closed : catalogue.isClosed = true) (operation : Operation) :
    catalogue.perform operation = catalogue := by
  cases operation with
  | register rule =>
      have refused : catalogue.register rule = .error (.closed rule.id) :=
        register_eq_error_iff.mpr (.inl ⟨closed, rfl⟩)
      rw [Catalogue.perform, refused]
  | close => exact sound.close_eq closed
  | consult kind => exact sound.perform_consult kind

theorem Sound.after_of_closed {catalogue : Catalogue} (sound : catalogue.Sound)
    (closed : catalogue.isClosed = true) (operations : List Operation) :
    catalogue.after operations = catalogue := by
  induction operations with
  | nil => rfl
  | cons operation rest ih =>
      rw [after_cons, sound.perform_of_closed closed]
      exact ih

/-! ## Whole histories -/

theorem Sound.after {catalogue : Catalogue} (sound : catalogue.Sound)
    (operations : List Operation) : (catalogue.after operations).Sound := by
  induction operations generalizing catalogue with
  | nil => exact sound
  | cons operation rest ih => exact ih (sound.perform operation)

theorem Sound.isClosed_after {catalogue : Catalogue} (sound : catalogue.Sound)
    (operations : List Operation) :
    (catalogue.after operations).isClosed = true ↔
      catalogue.isClosed = true ∨ .close ∈ operations := by
  induction operations generalizing catalogue with
  | nil => simp [Catalogue.after]
  | cons operation rest ih =>
      rw [after_cons, ih (sound.perform operation), sound.isClosed_perform, List.mem_cons, or_assoc,
        @eq_comm _ operation]

theorem rules_after (catalogue : Catalogue) (operations : List Operation) :
    (catalogue.after operations).rules = catalogue.rules ++ catalogue.registered operations := by
  induction operations generalizing catalogue with
  | nil => exact (List.append_nil _).symm
  | cons operation rest ih =>
      rw [after_cons, ih]
      cases operation with
      | register rule =>
          rw [registered, perform]
          split
          next next accepted =>
            obtain ⟨_, _, _, rfl⟩ := register_eq_ok_iff.mp accepted
            rw [List.append_assoc, List.singleton_append]
          next => rfl
      | close => rfl
      | consult kind => rw [registered, perform, rules_consult]

/-- As long as a catalogue is open, the first rule that is offered under an id is the one it has. -/
theorem Sound.get?_after {catalogue : Catalogue} (sound : catalogue.Sound)
    (isOpen : catalogue.isClosed = false) (operations : List Operation) {id : String}
    (nonempty : id ≠ "") :
    (catalogue.after operations).get? id =
      (catalogue.get? id).or ((offered operations).find? fun rule => rule.id == id) := by
  induction operations generalizing catalogue with
  | nil => exact Option.or_none.symm
  | cons operation rest ih =>
      have next := sound.perform operation
      rw [after_cons]
      cases operation with
      | register rule =>
          have stillOpen : (catalogue.perform (.register rule)).isClosed = false := by
            rw [isClosed_perform_register, isOpen]
          rw [ih next stillOpen, get?_perform_register isOpen nonempty, Option.or_assoc, offered,
            ← List.find?_append, List.singleton_append]
      | close =>
          rw [next.after_of_closed rfl]
          exact Option.or_none.symm
      | consult kind =>
          rw [sound.perform_consult, ih sound isOpen, offered]

/-- What a history leaves in a catalogue. -/
structure Kept (operations : List Operation) (catalogue : Catalogue) : Prop where
  rules : catalogue.rules = empty.registered operations
  ids : catalogue.ids = (empty.registered operations).map (·.id)
  size : catalogue.size = (empty.registered operations).length
  unique : catalogue.ids.Nodup
  named : "" ∉ catalogue.ids
  contains : ∀ id, catalogue.contains id = true ↔ id ∈ catalogue.ids
  first : ∀ id, catalogue.get? id =
    if id = "" then none else (offered operations).find? fun rule => rule.id == id
  closed : catalogue.isClosed = true ↔ .close ∈ operations
  rulesFor : ∀ kind, catalogue.rulesFor kind =
    catalogue.rules.filter fun rule => rule.kinds = [] ∨ kind ∈ rule.kinds
  consult : ∀ kind, catalogue.consult kind = (catalogue.rulesFor kind, catalogue)
  refuses : ∀ rule error, catalogue.register rule = .error error ↔
    (.close ∈ operations ∧ error = .closed rule.id) ∨
    (.close ∉ operations ∧ rule.id = "" ∧ error = .unnamed rule.label) ∨
    (.close ∉ operations ∧ rule.id ≠ "" ∧ rule.id ∈ catalogue.ids ∧ error = .duplicate rule.id)
  untouched : ∀ rule error, catalogue.register rule = .error error →
    ∀ later, catalogue.after (.register rule :: later) = catalogue.after later
  final : .close ∈ operations → ∀ later, catalogue.after later = catalogue

/-- Whatever was done with a catalogue so far, refused registrations included, it has what its
history says. -/
theorem after_kept (operations : List Operation) : (empty.after operations).Kept operations := by
  have start : empty.Sound := Reachable.empty.sound
  have sound := start.after operations
  have rules : (empty.after operations).rules = empty.registered operations :=
    rules_after empty operations
  have closed : (empty.after operations).isClosed = true ↔ .close ∈ operations := by
    rw [start.isClosed_after]
    exact or_iff_right Bool.false_ne_true
  have isOpen : (empty.after operations).isClosed = false ↔ .close ∉ operations := by
    rw [← closed, Bool.not_eq_true]
  exact {
    rules := rules
    ids := by rw [Catalogue.ids, rules]
    size := congrArg List.length rules
    unique := sound.unique
    named := sound.named
    contains := fun id => contains_iff
    first := fun id => by
      split
      next unnamed =>
        rw [unnamed]
        exact sound.get?_empty
      next nonempty => exact start.get?_after rfl operations nonempty
    closed := closed
    rulesFor := fun kind => by
      rw [sound.rulesFor]
      refine List.filter_congr fun rule _ => Bool.eq_iff_iff.mpr ?_
      simp [RuleInfo.isFor]
    consult := fun kind => by rw [sound.consult_eq, sound.rulesFor]
    refuses := fun rule error => by rw [register_eq_error_iff, closed, isOpen]
    untouched := fun rule error refused later => by rw [after_cons, perform, refused]
    final := fun member => sound.after_of_closed (closed.mpr member) }

end TreeLint.Catalogue
