import Mathlib
import TreeLint.Rule.Words

/-!
# An identifier and its words

The words of an identifier are its letters and digits in their order, cut into pieces: none is lost,
and none is in two words. A word is a run of capitals, or small letters and digits with at most one
capital in front; it is not cut again, and no word reaches over another character.
-/

set_option autoImplicit false

namespace TreeLint.Words

/-! ## Characters -/

/-- Small letters and digits, which go on with a word that has begun. -/
def isSmall (c : Char) : Bool :=
  c.isLower || c.isDigit

theorem isSmall_of_isLower {c : Char} (lower : c.isLower = true) : isSmall c = true := by
  rw [isSmall, lower, Bool.true_or]

theorem isSmall_of_isDigit {c : Char} (digit : c.isDigit = true) : isSmall c = true := by
  rw [isSmall, digit, Bool.or_true]

theorem isUpper_of_isDigit {c : Char} (digit : c.isDigit = true) : c.isUpper = false := by
  simp only [Char.isDigit, Char.isUpper] at *
  grind

theorem isLower_of_isDigit {c : Char} (digit : c.isDigit = true) : c.isLower = false := by
  simp only [Char.isDigit, Char.isLower] at *
  grind

theorem isUpper_of_isSmall {c : Char} (small : isSmall c = true) : c.isUpper = false := by
  rcases Bool.or_eq_true_iff.mp small with lower | digit
  · exact Bool.eq_false_iff.mpr (Char.not_isUpper_of_isLower lower)
  · exact isUpper_of_isDigit digit

theorem isAlphanum_of_isUpper {c : Char} (upper : c.isUpper = true) : c.isAlphanum = true := by
  simp [Char.isAlphanum, Char.isAlpha, upper]

theorem isAlphanum_of_isSmall {c : Char} (small : isSmall c = true) : c.isAlphanum = true := by
  rcases Bool.or_eq_true_iff.mp small with lower | digit
  · simp [Char.isAlphanum, Char.isAlpha, lower]
  · simp [Char.isAlphanum, digit]

theorem classes (c : Char) :
    c.isUpper = true ∨ c.isLower = true ∨ c.isDigit = true ∨ c.isAlphanum = false := by
  cases upper : c.isUpper <;> cases lower : c.isLower <;> cases digit : c.isDigit <;>
    simp [Char.isAlphanum, Char.isAlpha, upper, lower, digit]

/-! ## The form of a word -/

structure Capitals (word : List Char) : Prop where
  nonempty : word ≠ []
  upper : ∀ c ∈ word, c.isUpper = true

/-- At most one capital, and at least one small letter or digit behind it. -/
inductive Small : List Char → Prop where
  | intro (front : Option Char) {rest : List Char} : (∀ c ∈ front, c.isUpper = true) → rest ≠ [] →
      (∀ c ∈ rest, isSmall c = true) → Small (front.toList ++ rest)

def IsWord (word : List Char) : Prop :=
  Capitals word ∨ Small word

theorem Capitals.append {word more : List Char} (capitals : Capitals word)
    (upper : ∀ c ∈ more, c.isUpper = true) : Capitals (word ++ more) := by
  refine ⟨fun empty => capitals.nonempty (List.append_eq_nil_iff.mp empty).1, fun c member => ?_⟩
  rcases List.mem_append.mp member with own | added
  · exact capitals.upper c own
  · exact upper c added

theorem Small.append {word more : List Char} (small : Small word)
    (goesOn : ∀ c ∈ more, isSmall c = true) : Small (word ++ more) := by
  obtain ⟨front, upper, nonempty, rest⟩ := small
  rw [List.append_assoc]
  refine .intro front upper (fun empty => nonempty (List.append_eq_nil_iff.mp empty).1) ?_
  intro c member
  rcases List.mem_append.mp member with own | added
  · exact rest c own
  · exact goesOn c added

theorem small_singleton {c : Char} (small : isSmall c = true) : Small [c] :=
  .intro none nofun (List.cons_ne_nil c []) (by simpa using small)

theorem small_pair {c d : Char} (upper : c.isUpper = true) (small : isSmall d = true) :
    Small [c, d] :=
  .intro (some c) (by simpa using upper) (List.cons_ne_nil d []) (by simpa using small)

theorem Small.rest {first : Char} {rest : List Char} (small : Small (first :: rest)) :
    (∀ c ∈ rest, isSmall c = true) ∧ (first.isUpper = true → rest ≠ []) := by
  generalize spelled : first :: rest = word at small
  cases small with
  | @intro front letters upper nonempty letters_small =>
      cases front with
      | none =>
          obtain rfl : first :: rest = letters := spelled
          refine ⟨fun c member => letters_small c (List.mem_cons_of_mem first member), ?_⟩
          intro capital
          have small := isUpper_of_isSmall (letters_small first List.mem_cons_self)
          rw [small] at capital
          cases capital
      | some d =>
          obtain ⟨rfl, rfl⟩ := List.cons.inj spelled
          exact ⟨letters_small, fun _ => nonempty⟩

theorem IsWord.nonempty {word : List Char} (isWord : IsWord word) : word ≠ [] := by
  rcases isWord with capitals | ⟨front, _, nonempty, _⟩
  · exact capitals.nonempty
  · exact fun empty => nonempty (List.append_eq_nil_iff.mp empty).2

/-! ## One character -/

namespace Current

variable {current : Current} {c : Char}

theorem step_of_isUpper (upper : c.isUpper = true) : current.step c = current.capital c := by
  rw [step, if_pos upper]

theorem step_of_isLower (lower : c.isLower = true) : current.step c = current.letter c := by
  rw [step, if_neg (Char.not_isUpper_of_isLower lower), if_pos lower]

theorem step_of_isDigit (digit : c.isDigit = true) : current.step c = current.digit c := by
  rw [step, if_neg (by simp [isUpper_of_isDigit digit]),
    if_neg (by simp [isLower_of_isDigit digit]), if_pos digit]

theorem step_of_separator (separator : c.isAlphanum = false) :
    current.step c = (current.finished, none) := by
  simp only [Char.isAlphanum, Char.isAlpha, Bool.or_eq_false_iff] at separator
  obtain ⟨⟨upper, lower⟩, digit⟩ := separator
  simp [step, upper, lower, digit]

/-- Letters and digits differ only behind several capitals. -/
theorem step_of_isSmall (small : isSmall c = true) :
    none.step c = ([], .small [c]) ∧
      (∀ last, (capitals [] last).step c = ([], .small [c, last])) ∧
      ∀ read, (Current.small read).step c = ([], .small (c :: read)) := by
  rcases Bool.or_eq_true_iff.mp small with lower | digit
  · exact ⟨step_of_isLower lower, fun _ => step_of_isLower lower, fun _ => step_of_isLower lower⟩
  · exact ⟨step_of_isDigit digit, fun _ => step_of_isDigit digit, fun _ => step_of_isDigit digit⟩

/-- What is being read can become a word. -/
def Sound : Current → Prop
  | none => True
  | capitals earlier last => Capitals (last :: earlier).reverse
  | small word => Small word.reverse

theorem Sound.earlier {earlier : List Char} {before last : Char}
    (sound : (capitals (before :: earlier) last).Sound) : Capitals (before :: earlier).reverse := by
  refine ⟨by simp, fun c member => sound.upper c ?_⟩
  rw [List.reverse_cons]
  exact List.mem_append_left [last] member

theorem Sound.isWord (sound : current.Sound) : ∀ word ∈ current.finished, IsWord word := by
  intro word member
  cases current with
  | none => cases member
  | capitals earlier last =>
      rw [List.mem_singleton.mp member]
      exact .inl sound
  | small read =>
      rw [List.mem_singleton.mp member]
      exact .inr sound

/-- Reading a character keeps to words: those that end here are words, the one that goes on can
become one, and their characters are those read before and, unless it separates words, this one. -/
structure Advances (current : Current) (c : Char) : Prop where
  words : ∀ word ∈ (current.step c).1, IsWord word
  sound : (current.step c).2.Sound
  kept : (current.step c).1.flatten ++ (current.step c).2.finished.flatten =
    current.finished.flatten ++ [c].filter Char.isAlphanum

theorem Sound.capital (sound : current.Sound) (upper : c.isUpper = true) : current.Advances c := by
  have alone : Capitals [c] := ⟨List.cons_ne_nil c [], by simpa using upper⟩
  have kept : [c].filter Char.isAlphanum = [c] := by simp [isAlphanum_of_isUpper upper]
  constructor <;> rw [step_of_isUpper upper]
  case words =>
    cases current with
    | none => nofun
    | capitals earlier last => nofun
    | small read => exact sound.isWord
  case sound =>
    cases current with
    | none => exact alone
    | capitals earlier last =>
        have longer := Capitals.append sound alone.upper
        rwa [← List.reverse_cons] at longer
    | small read => exact alone
  case kept =>
    rw [kept]
    cases current <;> simp [Current.capital, finished]

/-- A small letter or digit goes on with a word, or begins one; only behind several capitals it
matters which it is. -/
theorem Sound.goesOn (sound : current.Sound) (small : isSmall c = true)
    (several : ∀ before earlier last, current = capitals (before :: earlier) last →
      current.Advances c) : current.Advances c := by
  obtain ⟨alone, behind, within⟩ := step_of_isSmall small
  have kept : [c].filter Char.isAlphanum = [c] := by simp [isAlphanum_of_isSmall small]
  cases current with
  | none =>
      constructor <;> rw [alone]
      case words => nofun
      case sound => exact small_singleton small
      case kept => simp [kept, finished]
  | small read =>
      constructor <;> rw [within]
      case words => nofun
      case sound =>
        have longer : Small (read.reverse ++ [c]) := Small.append sound (by simpa using small)
        rwa [← List.reverse_cons] at longer
      case kept => simp [kept, finished]
  | capitals earlier last =>
      cases earlier with
      | nil =>
          constructor <;> rw [behind]
          case words => nofun
          case sound => exact small_pair (sound.upper last (by simp)) small
          case kept => simp [kept, finished]
      | cons before earlier => exact several before earlier last rfl

section Several

variable {before last : Char} {earlier : List Char}

/-- The last of several capitals goes to the small letter behind it. -/
theorem Sound.letter (sound : (capitals (before :: earlier) last).Sound)
    (lower : c.isLower = true) : (capitals (before :: earlier) last).Advances c := by
  have small := isSmall_of_isLower lower
  constructor <;> rw [step_of_isLower lower]
  case words =>
    intro word member
    rw [List.mem_singleton.mp member]
    exact .inl sound.earlier
  case sound => exact small_pair (sound.upper last (by simp)) small
  case kept => simp [Current.letter, finished, isAlphanum_of_isSmall small]

/-- Several capitals stay together when a digit follows. -/
theorem Sound.digit (sound : (capitals (before :: earlier) last).Sound)
    (digit : c.isDigit = true) : (capitals (before :: earlier) last).Advances c := by
  have small := isSmall_of_isDigit digit
  constructor <;> rw [step_of_isDigit digit]
  case words => exact sound.isWord
  case sound => exact small_singleton small
  case kept => simp [Current.digit, finished, isAlphanum_of_isSmall small]

end Several

theorem Sound.advances (sound : current.Sound) (c : Char) : current.Advances c := by
  rcases classes c with upper | lower | digit | separator
  · exact sound.capital upper
  · apply sound.goesOn (isSmall_of_isLower lower)
    intro before earlier last many
    subst many
    exact sound.letter lower
  · apply sound.goesOn (isSmall_of_isDigit digit)
    intro before earlier last many
    subst many
    exact sound.digit digit
  · constructor <;> rw [step_of_separator separator]
    case words => exact sound.isWord
    case sound => trivial
    case kept => simp [separator, finished]

end Current

/-! ## The rest of an identifier -/

section Rest

variable {current next : Current} {text : List Char}

theorem splitFrom_cons (current : Current) (c : Char) (rest : List Char) :
    splitFrom current (c :: rest) =
      (current.step c).1 ++ splitFrom (current.step c).2 rest := rfl

theorem isWord_of_mem_splitFrom (sound : current.Sound) :
    ∀ word ∈ splitFrom current text, IsWord word := by
  induction text generalizing current with
  | nil => exact sound.isWord
  | cons c rest ih =>
      have advances := sound.advances c
      intro word member
      rw [splitFrom_cons] at member
      rcases List.mem_append.mp member with ended | later
      · exact advances.words word ended
      · exact ih advances.sound word later

theorem flatten_splitFrom (sound : current.Sound) :
    (splitFrom current text).flatten =
      current.finished.flatten ++ text.filter Char.isAlphanum := by
  induction text generalizing current with
  | nil => rw [splitFrom, List.filter_nil, List.append_nil]
  | cons c rest ih =>
      have advances := sound.advances c
      calc (splitFrom current (c :: rest)).flatten
          = (current.step c).1.flatten ++ (splitFrom (current.step c).2 rest).flatten := by
            rw [splitFrom_cons, List.flatten_append]
        _ = ((current.step c).1.flatten ++ (current.step c).2.finished.flatten) ++
              rest.filter Char.isAlphanum := by rw [ih advances.sound, List.append_assoc]
        _ = current.finished.flatten ++ (c :: rest).filter Char.isAlphanum := by
            rw [advances.kept, List.append_assoc, ← List.filter_append, List.singleton_append]

theorem splitFrom_separator (current : Current) (text : List Char) {c : Char} (rest : List Char)
    (separator : c.isAlphanum = false) :
    splitFrom current (text ++ c :: rest) = splitFrom current text ++ split rest := by
  induction text generalizing current with
  | nil =>
      rw [List.nil_append, splitFrom_cons, Current.step_of_separator separator, splitFrom, split]
  | cons d text ih => rw [List.cons_append, splitFrom_cons, splitFrom_cons, ih, List.append_assoc]

/-- Reading a text leads from one point to another and ends some words on the way. -/
inductive Passes : Current → List Char → List (List Char) → Current → Prop where
  | nil (current : Current) : Passes current [] [] current
  | cons {current next : Current} {c : Char} {rest : List Char} {words : List (List Char)} :
      Passes (current.step c).2 rest words next →
        Passes current (c :: rest) ((current.step c).1 ++ words) next

namespace Passes

variable {words : List (List Char)}

theorem step (current : Current) (c : Char) :
    Passes current [c] (current.step c).1 (current.step c).2 := by
  have passes : Passes current [c] _ _ := .cons (.nil (current.step c).2)
  rwa [List.append_nil] at passes

theorem trans {middle : Current} {more : List (List Char)} {further : List Char}
    (first : Passes current text words middle) (second : Passes middle further more next) :
    Passes current (text ++ further) (words ++ more) next := by
  induction first with
  | nil => exact second
  | cons _ ih =>
      rw [List.append_assoc]
      exact .cons (ih second)

theorem sound (passes : Passes current text words next) (sound : current.Sound) : next.Sound := by
  induction passes with
  | nil => exact sound
  | cons _ ih => exact ih (sound.advances _).sound

theorem splitFrom_append (passes : Passes current text words next) (rest : List Char) :
    splitFrom current (text ++ rest) = words ++ splitFrom next rest := by
  induction passes with
  | nil => rfl
  | cons _ ih => rw [List.cons_append, splitFrom_cons, ih, List.append_assoc]

theorem splitFrom_eq (passes : Passes current text words next) :
    splitFrom current text = words ++ next.finished := by
  have whole := passes.splitFrom_append []
  rwa [List.append_nil] at whole

end Passes

/-- A small letter or digit behind others goes on with their word. -/
theorem passes_small {more : List Char} (small : ∀ c ∈ more, isSmall c = true)
    (read : List Char) : Passes (.small read) more [] (.small (more.reverse ++ read)) := by
  induction more generalizing read with
  | nil => exact .nil (.small read)
  | cons c more ih =>
      obtain ⟨_, _, step⟩ := Current.step_of_isSmall (small c List.mem_cons_self)
      have first := Passes.step (.small read) c
      have later := ih (fun d member => small d (List.mem_cons_of_mem c member)) (c :: read)
      rw [step read] at first
      rw [List.reverse_cons, List.append_assoc]
      exact first.trans later

/-- A capital behind others goes on with their run. -/
theorem passes_capitals {more : List Char} (upper : ∀ c ∈ more, c.isUpper = true)
    (earlier : List Char) (last : Char) :
    ∃ before final, before ++ [final] = last :: more ∧
      Passes (.capitals earlier last) more [] (.capitals (before.reverse ++ earlier) final) := by
  induction more generalizing earlier last with
  | nil => exact ⟨[], last, rfl, .nil _⟩
  | cons c more ih =>
      have first := Passes.step (.capitals earlier last) c
      rw [Current.step_of_isUpper (upper c List.mem_cons_self), Current.capital] at first
      obtain ⟨before, final, spelled, later⟩ :=
        ih (fun d member => upper d (List.mem_cons_of_mem c member)) (last :: earlier) c
      refine ⟨last :: before, final, by rw [List.cons_append, spelled], ?_⟩
      rw [List.reverse_cons, List.append_assoc]
      exact first.trans later

end Rest

/-! ## Words are not cut again -/

theorem split_of_capitals {word : List Char} (capitals : Capitals word) : split word = [word] := by
  obtain ⟨first, rest, rfl⟩ := List.exists_cons_of_ne_nil capitals.nonempty
  have begins := Passes.step .none first
  rw [Current.step_of_isUpper (capitals.upper first List.mem_cons_self)] at begins
  obtain ⟨before, final, spelled, goes⟩ :=
    passes_capitals (fun c member => capitals.upper c (List.mem_cons_of_mem first member)) [] first
  have whole := (begins.trans goes).splitFrom_eq
  rw [List.append_nil] at whole
  rw [split, ← List.singleton_append, whole, List.singleton_append, ← spelled]
  simp [Current.capital, Current.finished]

/-- Behind at most one capital, letters and digits begin a word alike. -/
theorem passes_front {front : Option Char} {c : Char} (upper : ∀ d ∈ front, d.isUpper = true)
    (small : isSmall c = true) :
    Passes .none (front.toList ++ [c]) [] (.small (c :: front.toList)) := by
  obtain ⟨alone, behind, _⟩ := Current.step_of_isSmall small
  cases front with
  | none =>
      have step := Passes.step .none c
      rwa [alone] at step
  | some d =>
      have capital := Passes.step .none d
      have step := Passes.step (.capitals [] d) c
      rw [Current.step_of_isUpper (upper d rfl)] at capital
      rw [behind d] at step
      exact capital.trans step

theorem split_of_small {word : List Char} (small : Small word) : split word = [word] := by
  cases small with
  | @intro front rest upper nonempty small =>
      obtain ⟨first, rest, rfl⟩ := List.exists_cons_of_ne_nil nonempty
      have begins := passes_front upper (small first List.mem_cons_self)
      have goes := passes_small (fun c member => small c (List.mem_cons_of_mem first member))
        (first :: front.toList)
      have whole := (begins.trans goes).splitFrom_eq
      rw [List.append_assoc, List.singleton_append] at whole
      rw [split, whole]
      cases front <;> simp [Current.finished]

theorem split_of_isWord {word : List Char} (isWord : IsWord word) : split word = [word] := by
  rcases isWord with capitals | small
  · exact split_of_capitals capitals
  · exact split_of_small small

/-- What it is to cut identifiers into their words. -/
structure Partitions (cut : List Char → List (List Char)) : Prop where
  /-- The words one after the other are the letters and digits. -/
  whole : ∀ identifier, (cut identifier).flatten = identifier.filter Char.isAlphanum
  nonempty : ∀ identifier, ∀ word ∈ cut identifier, word ≠ []
  form : ∀ identifier, ∀ word ∈ cut identifier, IsWord word
  uncut : ∀ identifier, ∀ word ∈ cut identifier, cut word = [word]
  /-- A character that is no letter and no digit separates words. -/
  separate : ∀ front back, ∀ c : Char, c.isAlphanum = false →
    cut (front ++ c :: back) = cut front ++ cut back

theorem split_partitions : Partitions split := by
  have begun : Current.none.Sound := trivial
  have form (identifier : List Char) : ∀ word ∈ split identifier, IsWord word :=
    isWord_of_mem_splitFrom begun
  constructor
  case whole =>
    intro identifier
    exact flatten_splitFrom begun
  case nonempty =>
    intro identifier word member
    exact (form identifier word member).nonempty
  case form => exact form
  case uncut =>
    intro identifier word member
    exact split_of_isWord (form identifier word member)
  case separate =>
    intro front back c separator
    exact splitFrom_separator .none front back separator

example : split "parseHTTPUrl_v2HTTP2".toList =
    ["parse", "HTTP", "Url", "v2", "HTTP", "2"].map String.toList := by decide

end TreeLint.Words
