import TreeLint.Proofs.RuleFailures
import TreeLint.Proofs.WordPartition

/-!
# Following the advice on initialisms

The rule on initialisms says for each word that it finds how to write it. Writing all of them so
changes where the words of the identifier begin and end: capitals run together with the capitals
around them, and a digit behind them comes to stand alone. Still nothing is left for the rule to
find, and the identifier has changed in nothing but the case of its letters.
-/

set_option autoImplicit false

namespace TreeLint

/-! ## Changing words where they stand -/

namespace Words

/-- The rest of an identifier with a change made to each of its words, where the word stands. -/
def replaceFrom (change : List Char → List Char) (current : Current) : List Char → List Char
  | [] => current.finished.flatMap change
  | c :: rest =>
      (current.step c).1.flatMap change ++
        ([c].filter (!·.isAlphanum) ++ replaceFrom change (current.step c).2 rest)

/-- An identifier with a change made to each of its words, where the word stands. -/
def replace (change : List Char → List Char) (identifier : List Char) : List Char :=
  replaceFrom change .none identifier

/-- A text consists of some words and of separating characters, and `changed` of the changed words
and the same characters at the same places. -/
inductive Laid (change : List Char → List Char) :
    List (List Char) → List Char → List Char → Prop where
  | nil : Laid change [] [] []
  | separator {words : List (List Char)} {text changed : List Char} {c : Char} :
      c.isAlphanum = false → Laid change words text changed →
        Laid change words (c :: text) (c :: changed)
  | word {words : List (List Char)} {text changed : List Char} (word : List Char) :
      Laid change words text changed →
        Laid change (word :: words) (word ++ text) (change word ++ changed)

section Laid

variable {change : List Char → List Char} {words : List (List Char)} {text changed : List Char}

theorem Laid.prepend (laid : Laid change words text changed) (front : List (List Char)) :
    Laid change (front ++ words) (front.flatten ++ text) (front.flatMap change ++ changed) := by
  induction front with
  | nil => exact laid
  | cons word front ih =>
      rw [List.flatten_cons, List.flatMap_cons, List.append_assoc, List.append_assoc]
      exact .word word ih

theorem Laid.map_eq {α : Type} {view : Char → α} (laid : Laid change words text changed)
    (alike : ∀ word, (change word).map view = word.map view) :
    changed.map view = text.map view := by
  induction laid with
  | nil => rfl
  | separator _ _ ih => rw [List.map_cons, List.map_cons, ih]
  | word word _ ih => rw [List.map_append, List.map_append, alike, ih]

theorem laid_replaceFrom {current : Current} (sound : current.Sound) (text : List Char) :
    Laid change (splitFrom current text) (current.finished.flatten ++ text)
      (replaceFrom change current text) := by
  induction text generalizing current with
  | nil =>
      have laid : Laid change _ _ _ := Laid.nil.prepend current.finished
      rwa [List.append_nil current.finished,
        List.append_nil (current.finished.flatMap change)] at laid
  | cons c rest ih =>
      have advances := sound.advances c
      have later := ih advances.sound
      rw [splitFrom_cons, replaceFrom]
      cases alphanumeric : c.isAlphanum with
      | true =>
          have laid := later.prepend (current.step c).1
          rw [← List.append_assoc, advances.kept] at laid
          simpa [alphanumeric] using laid
      | false =>
          rw [Current.step_of_separator alphanumeric] at later ⊢
          have laid := (Laid.separator alphanumeric later).prepend current.finished
          simpa [alphanumeric, Current.finished] using laid

end Laid

end Words

/-! ## Words that the rule finds -/

namespace Initialism

open Words

/-- The rule finds fault with the word. -/
def Mixed (word : List Char) : Prop :=
  isMixed word = .ok true

/-- A word as the rule advises to write it. -/
def corrected (word : List Char) : List Char :=
  match isMixed word with
  | .ok true => capitalised word
  | _ => word

theorem corrected_of_mixed {word : List Char} (mixed : Mixed word) :
    corrected word = capitalised word := by
  rw [corrected, mixed]

theorem corrected_of_not_mixed {word : List Char} (unmixed : ¬ Mixed word) :
    corrected word = word := by
  unfold corrected
  split
  next mixed => exact (unmixed mixed).elim
  next => rfl

theorem mixed_iff {word : List Char} :
    Mixed word ↔ String.ofList (capitalised word) ∈ known ∧ word ≠ capitalised word ∧
      ∃ first ∈ word.head?, first.isUpper = true := by
  rw [Mixed, isMixed_eq, Except.ok.injEq]
  cases word <;> simp [and_assoc]

theorem not_mixed_of_capitals {word : List Char} (capitals : Capitals word) : ¬ Mixed word := by
  intro mixed
  obtain ⟨_, differs, _⟩ := mixed_iff.mp mixed
  apply differs
  have same : ∀ c ∈ word, c.toUpper = id c := by
    intro c member
    apply Char.toUpper_eq_of_not_isLower
    exact Char.not_isLower_of_isUpper (capitals.upper c member)
  rw [capitalised, List.map_congr_left same, List.map_id]

theorem not_mixed_of_front {c : Char} {rest : List Char} (small : isSmall c = true) :
    ¬ Mixed (c :: rest) := by
  intro mixed
  obtain ⟨_, _, first, head, upper⟩ := mixed_iff.mp mixed
  obtain rfl : c = first := Option.some.inj head
  rw [isUpper_of_isSmall small] at upper
  cases upper

/-- An initialism is several capitals, perhaps with digits behind them. -/
theorem known_form {initialism : String} (listed : initialism ∈ known) :
    2 ≤ (initialism.toList.takeWhile Char.isUpper).length ∧
      ∀ c ∈ initialism.toList.dropWhile Char.isUpper, c.isDigit = true := by
  have all : known.all (fun initialism =>
      decide (2 ≤ (initialism.toList.takeWhile Char.isUpper).length) &&
        (initialism.toList.dropWhile Char.isUpper).all Char.isDigit) = true := by
    decide +kernel
  have form := List.all_eq_true.mp all initialism listed
  rwa [Bool.and_eq_true_iff, decide_eq_true_iff, List.all_eq_true] at form

theorem exists_of_mixed {word : List Char} (mixed : Mixed word) :
    ∃ capitals digits, corrected word = capitals ++ digits ∧ 2 ≤ capitals.length ∧
      Capitals capitals ∧ ∀ c ∈ digits, c.isDigit = true := by
  obtain ⟨listed, _, _⟩ := mixed_iff.mp mixed
  obtain ⟨several, digits⟩ := known_form listed
  rw [String.toList_ofList] at several digits
  refine ⟨_, _, ?_, several, ⟨fun empty => ?_, fun c => ?_⟩, digits⟩
  · rw [corrected_of_mixed mixed, List.takeWhile_append_dropWhile]
  · rw [empty] at several
    cases several
  · exact List.mem_takeWhile_imp

/-! ## Reading what was changed -/

/-- The word that is being read would not be found if it ended here. -/
structure Calm (current : Current) : Prop where
  sound : current.Sound
  unmixed : ∀ word ∈ current.finished, ¬ Mixed word

theorem calm_capitals {earlier : List Char} {last : Char}
    (sound : (Current.capitals earlier last).Sound) : Calm (.capitals earlier last) := by
  refine ⟨sound, fun word member => ?_⟩
  rw [List.mem_singleton.mp member]
  exact not_mixed_of_capitals sound

/-- Reading a text from a point on ends no word that the rule finds. -/
def ReadsCalmly (current : Current) (text : List Char) (next : Current) : Prop :=
  ∃ words, Passes current text words next ∧ ∀ word ∈ words, ¬ Mixed word

theorem ReadsCalmly.nil (current : Current) : ReadsCalmly current [] current :=
  ⟨[], .nil current, nofun⟩

theorem ReadsCalmly.trans {current middle next : Current} {text further : List Char}
    (first : ReadsCalmly current text middle) (second : ReadsCalmly middle further next) :
    ReadsCalmly current (text ++ further) next := by
  obtain ⟨words, passes, unmixed⟩ := first
  obtain ⟨more, goes, calm⟩ := second
  refine ⟨words ++ more, passes.trans goes, fun word member => ?_⟩
  rcases List.mem_append.mp member with early | late
  · exact unmixed word early
  · exact calm word late

theorem ReadsCalmly.unmixed {current next : Current} {text rest : List Char}
    (reads : ReadsCalmly current text next)
    (later : ∀ word ∈ splitFrom next rest, ¬ Mixed word) :
    ∀ word ∈ splitFrom current (text ++ rest), ¬ Mixed word := by
  obtain ⟨words, passes, unmixed⟩ := reads
  intro word member
  rw [passes.splitFrom_append] at member
  rcases List.mem_append.mp member with early | late
  · exact unmixed word early
  · exact later word late

/-- A capital behind other capitals goes on with their run, and ends any other word. -/
theorem readsCalmly_capital {current : Current} {c : Char} (calm : Calm current)
    (upper : c.isUpper = true) :
    ∃ earlier, ReadsCalmly current [c] (.capitals earlier c) ∧ Calm (.capitals earlier c) := by
  have step := Passes.step current c
  have sound := step.sound calm.sound
  rw [Current.step_of_isUpper upper] at step sound
  cases current with
  | none => exact ⟨[], ⟨[], step, nofun⟩, calm_capitals sound⟩
  | capitals earlier last => exact ⟨last :: earlier, ⟨[], step, nofun⟩, calm_capitals sound⟩
  | small read => exact ⟨[], ⟨_, step, calm.unmixed⟩, calm_capitals sound⟩

theorem readsCalmly_capitals {current : Current} {word : List Char} (calm : Calm current)
    (capitals : Capitals word) :
    ∃ earlier last, ReadsCalmly current word (.capitals earlier last) ∧
      Calm (.capitals earlier last) ∧ (2 ≤ word.length → earlier ≠ []) := by
  obtain ⟨first, rest, rfl⟩ := List.exists_cons_of_ne_nil capitals.nonempty
  obtain ⟨earlier, begins, begun⟩ :=
    readsCalmly_capital calm (capitals.upper first List.mem_cons_self)
  obtain ⟨before, final, spelled, goes⟩ := passes_capitals
    (fun c member => capitals.upper c (List.mem_cons_of_mem first member)) earlier first
  refine ⟨before.reverse ++ earlier, final, begins.trans ⟨[], goes, nofun⟩,
    calm_capitals (goes.sound begun.sound), fun several empty => ?_⟩
  obtain ⟨short, _⟩ := List.append_eq_nil_iff.mp empty
  have lengths := congrArg List.length spelled
  rw [List.reverse_eq_nil_iff.mp short] at lengths
  simp only [List.length_append, List.length_cons, List.length_nil] at lengths several
  omega

theorem readsCalmly_small {read more : List Char} (sound : (Current.small read).Sound)
    (small : ∀ c ∈ more, isSmall c = true) (unmixed : ¬ Mixed (read.reverse ++ more)) :
    ∃ next, ReadsCalmly (.small read) more next ∧ Calm next := by
  have passes := passes_small small read
  refine ⟨_, ⟨[], passes, nofun⟩, passes.sound sound, fun word member => ?_⟩
  rw [List.mem_singleton.mp member, List.reverse_append, List.reverse_reverse]
  exact unmixed

/-- A digit ends a run of several capitals, and what follows it stands alone. -/
theorem readsCalmly_digit {earlier rest : List Char} {last first : Char}
    (calm : Calm (.capitals earlier last)) (several : earlier ≠ []) (digit : first.isDigit = true)
    (small : ∀ c ∈ rest, isSmall c = true) :
    ∃ next, ReadsCalmly (.capitals earlier last) (first :: rest) next ∧ Calm next := by
  have begins := isSmall_of_isDigit digit
  have step := Passes.step (.capitals earlier last) first
  have sound := step.sound calm.sound
  rw [Current.step_of_isDigit digit] at step sound
  cases earlier with
  | nil => exact (several rfl).elim
  | cons before earlier =>
      obtain ⟨next, reads, ends⟩ := readsCalmly_small sound small (not_mixed_of_front begins)
      have ended : ReadsCalmly (.capitals (before :: earlier) last) [first] _ :=
        ⟨_, step, calm.unmixed⟩
      exact ⟨next, ended.trans reads, ends⟩

/-- A word that the rule does not find, with a capital in front, is read again as it is, or its
capital joins a run and what is left is no word with a capital. -/
theorem readsCalmly_front {current : Current} {first second : Char} {rest : List Char}
    (calm : Calm current) (upper : first.isUpper = true)
    (small : ∀ c ∈ second :: rest, isSmall c = true) (unmixed : ¬ Mixed (first :: second :: rest)) :
    ∃ next, ReadsCalmly current (first :: second :: rest) next ∧ Calm next := by
  obtain ⟨earlier, begins, begun⟩ := readsCalmly_capital calm upper
  have later : ∀ c ∈ rest, isSmall c = true := fun c member =>
    small c (List.mem_cons_of_mem second member)
  have step := Passes.step (.capitals earlier first) second
  have sound := step.sound begun.sound
  suffices goes : ∃ next, ReadsCalmly (.capitals earlier first) (second :: rest) next ∧ Calm next by
    obtain ⟨next, reads, ends⟩ := goes
    exact ⟨next, begins.trans reads, ends⟩
  cases earlier with
  | nil =>
      obtain ⟨_, behind, _⟩ := Current.step_of_isSmall (small second List.mem_cons_self)
      rw [behind] at step sound
      obtain ⟨next, reads, ends⟩ := readsCalmly_small sound later unmixed
      exact ⟨next, ReadsCalmly.trans ⟨[], step, nofun⟩ reads, ends⟩
  | cons before earlier =>
      rcases Bool.or_eq_true_iff.mp (small second List.mem_cons_self) with lower | digit
      · rw [Current.step_of_isLower lower] at step sound
        obtain ⟨next, reads, ends⟩ := readsCalmly_small sound later unmixed
        refine ⟨next, ReadsCalmly.trans ⟨_, step, fun word member => ?_⟩ reads, ends⟩
        rw [List.mem_singleton.mp member]
        exact not_mixed_of_capitals begun.sound.earlier
      · exact readsCalmly_digit begun (List.cons_ne_nil before earlier) digit later

theorem readsCalmly_mixed {current : Current} {word : List Char} (calm : Calm current)
    (mixed : Mixed word) : ∃ next, ReadsCalmly current (corrected word) next ∧ Calm next := by
  obtain ⟨front, digits, spelled, several, capitals, numeric⟩ := exists_of_mixed mixed
  obtain ⟨earlier, last, reads, begun, long⟩ := readsCalmly_capitals calm capitals
  rw [spelled]
  cases digits with
  | nil =>
      rw [List.append_nil]
      exact ⟨_, reads, begun⟩
  | cons first digits =>
      have small : ∀ c ∈ digits, isSmall c = true := by
        intro c member
        exact isSmall_of_isDigit (numeric c (List.mem_cons_of_mem first member))
      obtain ⟨next, goes, ends⟩ :=
        readsCalmly_digit begun (long several) (numeric first List.mem_cons_self) small
      exact ⟨next, reads.trans goes, ends⟩

/-! ## Two readings side by side -/

/-- How the reading of an identifier compares with that of the changed one, when the latter has come
to the front of the word that the former is in. A word that begins with a small letter or a digit
either stands behind a separator or, if it is a digit, behind several capitals. -/
inductive Follows : Current → Current → Prop where
  | none : Follows .none .none
  | capitals {earlier : List Char} {last : Char} {other : Current} :
      Calm other → Follows (.capitals earlier last) other
  | front {read rest : List Char} {first : Char} {other : Current} :
      read.reverse = first :: rest → first.isUpper = true → Calm other →
        Follows (.small read) other
  | separate {read rest : List Char} {first : Char} :
      read.reverse = first :: rest → isSmall first = true → Follows (.small read) .none
  | digit {read rest earlier : List Char} {first last : Char} :
      read.reverse = first :: rest → first.isDigit = true → earlier ≠ [] →
        Calm (.capitals earlier last) → Follows (.small read) (.capitals earlier last)

theorem Follows.calm {current other : Current} (follows : Follows current other) : Calm other := by
  cases follows with
  | none => exact ⟨trivial, nofun⟩
  | capitals calm => exact calm
  | front _ _ calm => exact calm
  | separate => exact ⟨trivial, nofun⟩
  | digit _ _ _ calm => exact calm

theorem Follows.more {read : List Char} {other : Current} (follows : Follows (.small read) other)
    (c : Char) : Follows (.small (c :: read)) other := by
  have longer {first : Char} {rest : List Char} (spelled : read.reverse = first :: rest) :
      (c :: read).reverse = first :: (rest ++ [c]) := by
    rw [List.reverse_cons, spelled, List.cons_append]
  cases follows with
  | front spelled upper calm => exact .front (longer spelled) upper calm
  | separate spelled small => exact .separate (longer spelled) small
  | digit spelled digit several calm => exact .digit (longer spelled) digit several calm

/-- The word that ends, written as advised, is read without a finding. -/
theorem Follows.finish {current other : Current} (follows : Follows current other)
    (sound : current.Sound) :
    ∃ next, ReadsCalmly other (current.finished.flatMap corrected) next ∧ Calm next := by
  have calm := follows.calm
  cases current with
  | none => exact ⟨other, ⟨[], .nil other, nofun⟩, calm⟩
  | capitals earlier last =>
      have unmixed := not_mixed_of_capitals sound
      obtain ⟨before, final, reads, ends, _⟩ := readsCalmly_capitals calm sound
      rw [Current.finished, List.flatMap_singleton, corrected_of_not_mixed unmixed]
      exact ⟨_, reads, ends⟩
  | small read =>
      rw [Current.finished, List.flatMap_singleton]
      by_cases mixed : Mixed read.reverse
      · exact readsCalmly_mixed calm mixed
      · rw [corrected_of_not_mixed mixed]
        have form : Small read.reverse := sound
        cases follows with
        | @front _ rest first _ spelled upper _ =>
            rw [spelled] at form mixed ⊢
            obtain ⟨small, goesOn⟩ := form.rest
            obtain ⟨second, rest, rfl⟩ := List.exists_cons_of_ne_nil (goesOn upper)
            exact readsCalmly_front calm upper small mixed
        | @separate _ rest first spelled begins =>
            rw [spelled] at form mixed ⊢
            obtain ⟨alone, _, _⟩ := Current.step_of_isSmall begins
            have step := Passes.step .none first
            have begun := step.sound trivial
            rw [alone] at step begun
            obtain ⟨next, reads, ends⟩ := readsCalmly_small begun form.rest.1 mixed
            exact ⟨next, ReadsCalmly.trans ⟨[], step, nofun⟩ reads, ends⟩
        | @digit _ rest _ first _ spelled digit several _ =>
            rw [spelled] at form ⊢
            exact readsCalmly_digit calm several digit form.rest.1

/-- Whatever a character ends, written as advised, is read without a finding, and the two readings
compare as before. -/
def KeepsPace (current other : Current) (c : Char) : Prop :=
  ∃ next, ReadsCalmly other
      ((current.step c).1.flatMap corrected ++ [c].filter (!·.isAlphanum)) next ∧
    Follows (current.step c).2 next

section Step

variable {current other : Current} {c : Char}

theorem keepsPace_of_isAlphanum (alphanumeric : c.isAlphanum = true) {words : List (List Char)}
    {after next : Current} (step : current.step c = (words, after))
    (reads : ReadsCalmly other (words.flatMap corrected) next) (follows : Follows after next) :
    KeepsPace current other c := by
  have kept : [c].filter (!·.isAlphanum) = [] := by simp [alphanumeric]
  rw [KeepsPace, step, kept, List.append_nil]
  exact ⟨next, reads, follows⟩

theorem Follows.capital (follows : Follows current other) (sound : current.Sound)
    (upper : c.isUpper = true) : KeepsPace current other c := by
  have alphanumeric := isAlphanum_of_isUpper upper
  have step : current.step c = current.capital c := Current.step_of_isUpper upper
  cases current with
  | none => exact keepsPace_of_isAlphanum alphanumeric step (.nil other) (.capitals follows.calm)
  | capitals earlier last =>
      exact keepsPace_of_isAlphanum alphanumeric step (.nil other) (.capitals follows.calm)
  | small read =>
      obtain ⟨next, reads, ends⟩ := follows.finish sound
      exact keepsPace_of_isAlphanum alphanumeric step reads (.capitals ends)

theorem Follows.goesOn (follows : Follows current other) (sound : current.Sound)
    (small : isSmall c = true)
    (several : ∀ before earlier last, current = .capitals (before :: earlier) last →
      KeepsPace current other c) : KeepsPace current other c := by
  have alphanumeric := isAlphanum_of_isSmall small
  obtain ⟨alone, behind, within⟩ := Current.step_of_isSmall small
  cases current with
  | none =>
      cases follows with
      | none => exact keepsPace_of_isAlphanum alphanumeric alone (.nil .none) (.separate rfl small)
  | small read =>
      exact keepsPace_of_isAlphanum alphanumeric (within read) (.nil other) (follows.more c)
  | capitals earlier last =>
      cases earlier with
      | nil =>
          have upper : last.isUpper = true := sound.upper last (by simp)
          exact keepsPace_of_isAlphanum alphanumeric (behind last) (.nil other)
            (.front rfl upper follows.calm)
      | cons before earlier => exact several before earlier last rfl

section Several

variable {before last : Char} {earlier : List Char}

theorem Follows.letter (follows : Follows (.capitals (before :: earlier) last) other)
    (sound : (Current.capitals (before :: earlier) last).Sound) (lower : c.isLower = true) :
    KeepsPace (.capitals (before :: earlier) last) other c := by
  have upper : last.isUpper = true := sound.upper last (by simp)
  obtain ⟨_, _, reads, ends, _⟩ := readsCalmly_capitals follows.calm sound.earlier
  have written := corrected_of_not_mixed (not_mixed_of_capitals sound.earlier)
  refine keepsPace_of_isAlphanum (isAlphanum_of_isSmall (isSmall_of_isLower lower))
    (Current.step_of_isLower lower) ?_ (.front rfl upper ends)
  rwa [List.flatMap_singleton, written]

theorem Follows.digit_step (follows : Follows (.capitals (before :: earlier) last) other)
    (sound : (Current.capitals (before :: earlier) last).Sound) (digit : c.isDigit = true) :
    KeepsPace (.capitals (before :: earlier) last) other c := by
  obtain ⟨_, _, reads, ends, several⟩ := readsCalmly_capitals follows.calm sound
  have written := corrected_of_not_mixed (not_mixed_of_capitals sound)
  refine keepsPace_of_isAlphanum (isAlphanum_of_isSmall (isSmall_of_isDigit digit))
    (Current.step_of_isDigit digit) ?_ (.digit rfl digit (several (by simp)) ends)
  rwa [List.flatMap_singleton, written]

end Several

theorem Follows.step (follows : Follows current other) (sound : current.Sound) (c : Char) :
    KeepsPace current other c := by
  rcases classes c with upper | lower | digit | separator
  · exact follows.capital sound upper
  · apply follows.goesOn sound (isSmall_of_isLower lower)
    intro before earlier last many
    subst many
    exact follows.letter sound lower
  · apply follows.goesOn sound (isSmall_of_isDigit digit)
    intro before earlier last many
    subst many
    exact follows.digit_step sound digit
  · have kept : [c].filter (!·.isAlphanum) = [c] := by simp [separator]
    rw [KeepsPace, kept, Current.step_of_separator separator]
    obtain ⟨middle, reads, ends⟩ := follows.finish sound
    have step := Passes.step middle c
    rw [Current.step_of_separator separator] at step
    exact ⟨.none, reads.trans ⟨_, step, ends.unmixed⟩, .none⟩

end Step

/-- No word of the changed identifier is found. The induction is on what is left to read of the
identifier; the changed one is read from the front of the word that is being read. -/
theorem not_mixed_of_mem_replaceFrom {current other : Current} {text : List Char}
    (sound : current.Sound) (follows : Follows current other) :
    ∀ word ∈ splitFrom other (replaceFrom corrected current text), ¬ Mixed word := by
  induction text generalizing current other with
  | nil =>
      obtain ⟨next, ⟨words, passes, unmixed⟩, ends⟩ := follows.finish sound
      intro word member
      rw [replaceFrom, passes.splitFrom_eq] at member
      rcases List.mem_append.mp member with early | late
      · exact unmixed word early
      · exact ends.unmixed word late
  | cons c rest ih =>
      obtain ⟨next, reads, later⟩ := follows.step sound c
      rw [replaceFrom, ← List.append_assoc]
      exact reads.unmixed (ih (sound.advances c).sound later)

/-! ## The advice -/

/-- A name written as the rule advises. -/
def advised (name : String) : String :=
  String.ofList (replace corrected name.toList)

theorem corrected_alike (word : List Char) :
    (corrected word).map Char.toUpper = word.map Char.toUpper := by
  by_cases mixed : Mixed word
  · rw [corrected_of_mixed mixed, capitalised, List.map_map]
    exact List.map_congr_left fun c _ => Char.toUpper_toUpper_eq_toUpper c
  · rw [corrected_of_not_mixed mixed]

theorem isMixed_of_not_mixed {word : List Char} (unmixed : ¬ Mixed word) :
    isMixed word = .ok false := by
  rw [Mixed, isMixed_eq, Except.ok.injEq, Bool.not_eq_true] at unmixed
  rw [isMixed_eq, unmixed]

theorem evaluate_of_not_mixed {cursor : Cursor} (tree : Tree)
    (unmixed : ∀ word ∈ split cursor.node.name.toList, ¬ Mixed word) :
    rule.evaluate cursor tree = .ok [] := by
  have none := filterM_eq_ok fun word member => isMixed_of_not_mixed (unmixed word member)
  simp only [rule, none, List.filter_false]
  rfl

/-- Following the advice of the rule on a name, each word where it stands, leaves the rule nothing
to find. The name keeps its length and, but for the case of letters, its characters. -/
theorem advised_clean (name : String) :
    Laid corrected (split name.toList) name.toList (advised name).toList ∧
      (∀ (cursor : Cursor) (tree : Tree), cursor.node.name = advised name →
        rule.evaluate cursor tree = .ok []) ∧
      (advised name).length = name.length ∧ (advised name).toUpper = name.toUpper := by
  have begun : Current.none.Sound := trivial
  have written : (advised name).toList = replace corrected name.toList := String.toList_ofList
  have laid : Laid corrected (split name.toList) name.toList (advised name).toList := by
    rw [written]
    exact laid_replaceFrom begun name.toList
  have alike := laid.map_eq corrected_alike
  refine ⟨laid, ?clean, ?length, ?alike⟩
  case clean =>
    intro cursor tree renamed
    apply evaluate_of_not_mixed
    rw [renamed, written]
    exact not_mixed_of_mem_replaceFrom begun .none
  case length =>
    have lengths := congrArg List.length alike
    rwa [List.length_map, List.length_map, String.length_toList, String.length_toList] at lengths
  case alike =>
    apply String.toList_injective
    rw [String.toUpper, String.toUpper, String.toList_map, String.toList_map, alike]

/-- An identifier of the given name. -/
def named (name : String) : Cursor :=
  ⟨[], ⟨.identifier, ⟨⟨1, 0, 0⟩, ⟨1, 0, 0⟩, Int.le_refl 0⟩, [("name", .text name)], []⟩, []⟩

/-- Two initialisms come to stand in one run of capitals, and the digit of a third stands alone. -/
theorem advised_clean_fused :
    advised "toUtf8UrlId" = "toUTF8URLID" ∧
      rule.evaluate (named "toUTF8URLID") ⟨(named "toUTF8URLID").node, .text "a.go"⟩ = .ok [] := by
  have renamed : advised "toUtf8UrlId" = "toUTF8URLID" := by decide
  obtain ⟨_, clean, _⟩ := advised_clean "toUtf8UrlId"
  exact ⟨renamed, clean (named "toUTF8URLID") _ renamed.symm⟩

end Initialism

end TreeLint
