import Mathlib.Data.Nat.Find
import TreeLint.Proofs.ListsAndResults
import TreeLint.Waiver.Directive

/-!
# The grammar of directives

The token that counts is the first that no name goes on from. What is read behind it is the longest
listing of names that stands there: a gap, a name, and further names with commas and gaps between
them. The scanner, which looks at each character once, is compared with this grammar.
-/

set_option autoImplicit false

namespace TreeLint

namespace Directive

/-! ## Tokens -/

/-- A name goes on at the front of the text. -/
def Continues (text : List Char) : Prop :=
  ∃ c rest, text = c :: rest ∧ isNameChar c = true

theorem continues_iff {text : List Char} :
    Continues text ↔ text.head?.any isNameChar = true := by
  cases text with
  | nil => simp [Continues]
  | cons c rest => simp [Continues]

/-- The first token of the text that no name goes on from stands behind `front`. -/
structure Begins (text front back : List Char) : Prop where
  split : text = front ++ token.toList ++ back
  free : ¬ Continues back
  first : ∀ other rest, text = other ++ token.toList ++ rest → other.length < front.length →
    Continues rest

section Tokens

variable {c : Char} {text front back : List Char}

theorem cons_eq_token_iff :
    c :: text = front ++ token.toList ++ back ↔
      (front = [] ∧ token.toList.isPrefixOf? (c :: text) = some back) ∨
        ∃ rest, front = c :: rest ∧ text = rest ++ token.toList ++ back := by
  rw [List.append_assoc, List.cons_eq_append_iff, List.isPrefixOf?_eq_some_iff_append_eq]
  simp only [List.append_assoc]

theorem Begins.cons (begins : Begins text front back)
    (passed : ∀ tail, token.toList.isPrefixOf? (c :: text) = some tail → Continues tail) :
    Begins (c :: text) (c :: front) back := by
  refine ⟨cons_eq_token_iff.mpr (.inr ⟨front, rfl, begins.split⟩), begins.free, ?_⟩
  intro other rest occurs shorter
  rcases cons_eq_token_iff.mp occurs with ⟨-, atFront⟩ | ⟨tail, rfl, later⟩
  · exact passed rest atFront
  · exact begins.first tail rest later (by simpa using shorter)

theorem begins_of_afterToken? (found : afterToken? text = some back) :
    ∃ front, Begins text front back := by
  fun_induction afterToken? text with
  | case1 => cases found
  | case2 c text tail atFront continues ih =>
      obtain ⟨front, begins⟩ := ih found
      refine ⟨c :: front, begins.cons ?_⟩
      intro other same
      cases atFront.symm.trans same
      exact continues_iff.mpr continues
  | case3 c text tail atFront free =>
      cases found
      refine ⟨[], cons_eq_token_iff.mpr (.inl ⟨rfl, atFront⟩), ?_, nofun⟩
      rwa [continues_iff]
  | case4 c text absent ih =>
      obtain ⟨front, begins⟩ := ih found
      refine ⟨c :: front, begins.cons ?_⟩
      intro other present
      cases absent.symm.trans present

theorem continues_of_afterToken? (missing : afterToken? text = none)
    (occurs : text = front ++ token.toList ++ back) : Continues back := by
  fun_induction afterToken? text generalizing front with
  | case1 => simp [token] at occurs
  | case2 c text tail atFront continues ih =>
      rcases cons_eq_token_iff.mp occurs with ⟨-, same⟩ | ⟨rest, rfl, later⟩
      · cases atFront.symm.trans same
        exact continues_iff.mpr continues
      · exact ih missing later
  | case3 => cases missing
  | case4 c text absent ih =>
      rcases cons_eq_token_iff.mp occurs with ⟨-, present⟩ | ⟨rest, rfl, later⟩
      · cases absent.symm.trans present
      · exact ih missing later

theorem Begins.unique {other rest : List Char} (begins : Begins text front back)
    (again : Begins text other rest) : back = rest := by
  have sameLength : front.length = other.length := by
    rcases Nat.lt_trichotomy front.length other.length with shorter | same | longer
    · exact absurd (again.first front back begins.split shorter) begins.free
    · exact same
    · exact absurd (begins.first other rest again.split longer) again.free
  have splits := begins.split.symm.trans again.split
  rw [List.append_assoc, List.append_assoc] at splits
  exact List.append_cancel_left (List.append_inj_right splits sameLength)

theorem afterToken?_eq_some_iff :
    afterToken? text = some back ↔ ∃ front, Begins text front back := by
  constructor
  · exact begins_of_afterToken?
  · rintro ⟨front, begins⟩
    cases result : afterToken? text with
    | none => exact absurd (continues_of_afterToken? result begins.split) begins.free
    | some tail =>
        obtain ⟨other, again⟩ := begins_of_afterToken? result
        rw [again.unique begins]

theorem afterToken?_eq_none_iff :
    afterToken? text = none ↔
      ∀ front back, text = front ++ token.toList ++ back → Continues back := by
  constructor
  · intro missing front back occurs
    exact continues_of_afterToken? missing occurs
  · intro continues
    cases result : afterToken? text with
    | none => rfl
    | some tail =>
        obtain ⟨front, begins⟩ := begins_of_afterToken? result
        exact absurd (continues front tail begins.split) begins.free

/-- No end of the token is the beginning of another one. -/
theorem token_unbordered :
    ∀ shift < token.toList.length, 0 < shift → ¬ token.toList.drop shift <+: token.toList := by
  decide

/-- A token behind a text without one is the first. -/
theorem begins_of_absent (absent : ¬ token.toList <:+: front) (free : ¬ Continues back) :
    Begins (front ++ token.toList ++ back) front back := by
  refine ⟨rfl, free, ?_⟩
  intro other rest occurs shorter
  exfalso
  rw [List.append_assoc, List.append_assoc, List.append_eq_append_iff] at occurs
  rcases occurs with ⟨left, rfl, _⟩ | ⟨left, rfl, occurs⟩
  · rw [List.length_append] at shorter
    omega
  · -- The earlier token would lie within the front or reach into the later one.
    rcases List.append_eq_append_iff.mp occurs with ⟨between, rfl, _⟩ | ⟨overlap, cut, reaches⟩
    · exact absent ⟨other, between, by simp⟩
    · have begun : overlap <+: token.toList := by
        refine List.prefix_of_prefix_length_le ⟨rest, reaches.symm⟩ (List.prefix_append _ back) ?_
        rw [cut, List.length_append]
        exact Nat.le_add_left _ _
      have ends : overlap = token.toList.drop left.length := by rw [cut, List.drop_left]
      have early : 0 < left.length := by
        rw [List.length_append] at shorter
        omega
      by_cases reached : left.length < token.toList.length
      · exact token_unbordered left.length reached early (ends ▸ begun)
      · rw [List.drop_eq_nil_of_le (Nat.le_of_not_lt reached)] at ends
        rw [ends, List.append_nil] at cut
        exact absent ⟨other, [], by rw [cut, List.append_nil]⟩

end Tokens

/-! ## Listings -/

def IsGap (text : List Char) : Prop :=
  ∀ c ∈ text, isGap c = true

/-- A non-empty row of name characters. -/
structure IsName (text : List Char) : Prop where
  nonempty : text ≠ []
  chars : ∀ c ∈ text, isNameChar c = true

/-- Names that each stand behind a comma, with gaps before and after it. -/
inductive More : List Char → List (List Char) → Prop where
  | done : More [] []
  | another {gap space name text : List Char} {names : List (List Char)} :
      IsGap gap → IsGap space → IsName name → More text names →
      More (gap ++ ',' :: (space ++ (name ++ text))) (name :: names)

/-- A gap, a name, and further names behind commas. -/
inductive Listing : List Char → List (List Char) → Prop where
  | intro {gap name text : List Char} {names : List (List Char)} :
      gap ≠ [] → IsGap gap → IsName name → More text names →
      Listing (gap ++ (name ++ text)) (name :: names)

/-- The listing stands at the front of the text and no longer one does. -/
structure Longest (text listing : List Char) (names : List (List Char)) : Prop where
  atFront : listing <+: text
  lists : Listing listing names
  longest : ∀ other otherNames, other <+: text → Listing other otherNames →
    other.length ≤ listing.length

theorem isNameChar_of_isGap {c : Char} (gap : isGap c = true) : isNameChar c = false := by
  simp only [isGap, Bool.or_eq_true, beq_iff_eq] at gap
  rcases gap with rfl | rfl <;> decide

theorem isGap_space : IsGap [' '] := by
  simp [IsGap, isGap]

theorem IsName.exists_cons {name : List Char} (isName : IsName name) :
    ∃ c rest, name = c :: rest ∧ isNameChar c = true := by
  cases name with
  | nil => exact absurd rfl isName.nonempty
  | cons c rest => exact ⟨c, rest, rfl, isName.chars c List.mem_cons_self⟩

theorem IsName.append_char {name : List Char} {c : Char} (isName : IsName name)
    (nameChar : isNameChar c = true) : IsName (name ++ [c]) := by
  refine ⟨by simp, ?_⟩
  intro d member
  rcases List.mem_append.mp member with old | new
  · exact isName.chars d old
  · rwa [List.mem_singleton.mp new]

theorem isName_singleton {c : Char} (nameChar : isNameChar c = true) : IsName [c] :=
  ⟨by simp, by simpa using nameChar⟩

namespace More

variable {text other : List Char} {names others : List (List Char)}

theorem append (more : More text names) (further : More other others) :
    More (text ++ other) (names ++ others) := by
  induction more with
  | done => exact further
  | another gap space name _ ih => simpa using another gap space name ih

theorem append_char {c : Char} (more : More text names) (nonempty : text ≠ [])
    (nameChar : isNameChar c = true) : ∃ longer, More (text ++ [c]) longer := by
  induction more with
  | done => exact absurd rfl nonempty
  | @another gap space name text names isGap isSpace isName rest ih =>
      cases text with
      | nil => exact ⟨_, by simpa using another isGap isSpace (isName.append_char nameChar) .done⟩
      | cons d text =>
          obtain ⟨longer, rest⟩ := ih (by simp)
          exact ⟨_, by simpa using another isGap isSpace isName rest⟩

theorem not_continues (more : More text names) (free : ¬ Continues other) :
    ¬ Continues (text ++ other) := by
  cases more with
  | done => exact free
  | @another gap space name text names isGap _ _ _ =>
      rintro ⟨c, rest, split, nameChar⟩
      cases gap with
      | nil =>
          cases split
          revert nameChar
          decide
      | cons d gap =>
          obtain rfl : d = c := (List.cons.inj split).1
          rw [isNameChar_of_isGap (isGap d List.mem_cons_self)] at nameChar
          cases nameChar

end More

namespace Listing

variable {text other : List Char} {names others : List (List Char)}

theorem append (listing : Listing text names) (more : More other others) :
    Listing (text ++ other) (names ++ others) := by
  obtain ⟨nonempty, gap, name, rest⟩ := listing
  simpa using intro nonempty gap name (rest.append more)

theorem append_char {c : Char} (listing : Listing text names) (nameChar : isNameChar c = true) :
    ∃ longer, Listing (text ++ [c]) longer := by
  obtain @⟨gap, name, text, names, nonempty, isGap, isName, rest⟩ := listing
  cases text with
  | nil => exact ⟨_, by simpa using intro nonempty isGap (isName.append_char nameChar) .done⟩
  | cons d text =>
      obtain ⟨longer, rest⟩ := rest.append_char (by simp) nameChar
      exact ⟨_, by simpa using intro nonempty isGap isName rest⟩

end Listing

/-! ## Reading -/

section Reading

variable {text : List Char}

theorem namesFrom_gap {place : Place} (outside : place = .between ∨ place = .before)
    {gap : List Char} (isGap : IsGap gap) :
    namesFrom place (gap ++ text) = namesFrom place text := by
  induction gap with
  | nil => rfl
  | cons c gap ih =>
      have own := isGap c List.mem_cons_self
      have later := ih fun d member => isGap d (List.mem_cons_of_mem c member)
      rcases outside with rfl | rfl <;> rw [List.cons_append, namesFrom, if_pos own, later]

theorem namesFrom_between_comma :
    namesFrom .between (',' :: text) = namesFrom .before text := rfl

theorem namesFrom_name_append (read : List Char) {name : List Char}
    (chars : ∀ c ∈ name, isNameChar c = true) :
    namesFrom (.name read) (name ++ text) = namesFrom (.name (read ++ name)) text := by
  induction name generalizing read with
  | nil => simp
  | cons c name ih =>
      rw [List.cons_append, namesFrom, if_pos (chars c List.mem_cons_self),
        ih _ fun d member => chars d (List.mem_cons_of_mem c member), List.append_assoc,
        List.singleton_append]

theorem namesFrom_name_end (read : List Char) (free : ¬ Continues text) :
    namesFrom (.name read) text = read :: namesFrom .between text := by
  cases text with
  | nil => rfl
  | cons c rest =>
      have other : isNameChar c ≠ true := fun nameChar => free ⟨c, rest, rfl, nameChar⟩
      rw [namesFrom, if_neg other, namesFrom]
      split
      · rfl
      · split <;> rfl

theorem namesFrom_before_name {name : List Char} (isName : IsName name) (free : ¬ Continues text) :
    namesFrom .before (name ++ text) = name :: namesFrom .between text := by
  obtain ⟨c, rest, rfl, nameChar⟩ := isName.exists_cons
  have noGap : isGap c ≠ true := by
    intro gap
    rw [isNameChar_of_isGap gap] at nameChar
    cases nameChar
  have chars : ∀ d ∈ rest, isNameChar d = true := fun d member =>
    isName.chars d (List.mem_cons_of_mem c member)
  rw [List.cons_append, namesFrom, if_neg noGap, if_pos nameChar, namesFrom_name_append _ chars,
    namesFrom_name_end _ free, List.singleton_append]

/-- Where further names end, reading goes on as behind any name. -/
theorem More.namesFrom_append {front : List Char} {listed : List (List Char)}
    (more : More front listed) (free : ¬ Continues text) :
    namesFrom .between (front ++ text) = listed ++ namesFrom .between text := by
  induction more with
  | done => rfl
  | @another gap space name front listed isGap isSpace isName rest ih =>
      rw [List.append_assoc, namesFrom_gap (.inl rfl) isGap, List.cons_append,
        namesFrom_between_comma, List.append_assoc, namesFrom_gap (.inr rfl) isSpace,
        List.append_assoc, namesFrom_before_name isName (rest.not_continues free), ih,
        List.cons_append]

theorem names_gap {gap : List Char} (nonempty : gap ≠ []) (isGap : IsGap gap) :
    names (gap ++ text) = namesFrom .before text := by
  cases gap with
  | nil => exact absurd rfl nonempty
  | cons c gap =>
      rw [List.cons_append, names, if_pos (isGap c List.mem_cons_self)]
      exact namesFrom_gap (.inr rfl) fun d member => isGap d (List.mem_cons_of_mem c member)

theorem Listing.names_append {front : List Char} {listed : List (List Char)}
    (listing : Listing front listed) (free : ¬ Continues text) :
    names (front ++ text) = listed ++ namesFrom .between text := by
  obtain ⟨nonempty, isGap, isName, rest⟩ := listing
  rw [List.append_assoc, names_gap nonempty isGap, List.append_assoc,
    namesFrom_before_name isName (rest.not_continues free), rest.namesFrom_append free,
    List.cons_append]

theorem exists_of_namesFrom_before (found : namesFrom .before text ≠ []) :
    ∃ gap c rest, text = gap ++ c :: rest ∧ IsGap gap ∧ isNameChar c = true := by
  induction text with
  | nil => exact absurd rfl found
  | cons c text ih =>
      rw [namesFrom] at found
      split at found
      next isGap =>
        obtain ⟨gap, d, rest, rfl, gaps, nameChar⟩ := ih found
        exact ⟨c :: gap, d, rest, rfl, List.forall_mem_cons.mpr ⟨isGap, gaps⟩, nameChar⟩
      next =>
        split at found
        next nameChar => exact ⟨[], c, text, rfl, nofun, nameChar⟩
        next => exact absurd rfl found

theorem exists_of_namesFrom_between (found : namesFrom .between text ≠ []) :
    ∃ gap rest, text = gap ++ ',' :: rest ∧ IsGap gap ∧ namesFrom .before rest ≠ [] := by
  induction text with
  | nil => exact absurd rfl found
  | cons c text ih =>
      rw [namesFrom] at found
      split at found
      next isGap =>
        obtain ⟨gap, rest, rfl, gaps, further⟩ := ih found
        exact ⟨c :: gap, rest, rfl, List.forall_mem_cons.mpr ⟨isGap, gaps⟩, further⟩
      next =>
        split at found
        next comma =>
          obtain rfl : c = ',' := by simpa using comma
          exact ⟨[], text, rfl, nofun, found⟩
        next => exact absurd rfl found

/-- Where a name is read behind another, one more name can be listed. -/
theorem exists_more (found : namesFrom .between text ≠ []) :
    ∃ front rest listed, text = front ++ rest ∧ front ≠ [] ∧ More front listed := by
  obtain ⟨gap, behind, rfl, isGap, further⟩ := exists_of_namesFrom_between found
  obtain ⟨space, c, rest, rfl, isSpace, nameChar⟩ := exists_of_namesFrom_before further
  exact ⟨_, rest, _, by simp, by simp, .another isGap isSpace (isName_singleton nameChar) .done⟩

theorem exists_listing (found : names text ≠ []) :
    ∃ listing listed, listing <+: text ∧ Listing listing listed := by
  cases text with
  | nil => exact absurd rfl found
  | cons c text =>
      rw [names] at found
      split at found
      next isGap =>
        obtain ⟨gap, d, rest, rfl, gaps, nameChar⟩ := exists_of_namesFrom_before found
        have gaps : IsGap (c :: gap) := List.forall_mem_cons.mpr ⟨isGap, gaps⟩
        have listing := Listing.intro (by simp) gaps (isName_singleton nameChar) .done
        exact ⟨_, _, ⟨rest, by simp⟩, listing⟩
      next => exact absurd rfl found

end Reading

/-! ## The longest listing -/

section Longest

variable {text listing : List Char} {listed : List (List Char)}

theorem exists_longest (atFront : listing <+: text) (lists : Listing listing listed) :
    ∃ listing listed, Longest text listing listed := by
  classical
  -- Prefixes are told apart by their lengths, which are bounded.
  let Reaches (length : Nat) : Prop := ∃ listed, Listing (text.take length) listed
  have reaches : ∀ {other otherNames}, other <+: text → Listing other otherNames →
      Reaches other.length := by
    intro other otherNames front lists
    exact ⟨otherNames, List.prefix_iff_eq_take.mp front ▸ lists⟩
  obtain ⟨names, greatest⟩ := Nat.findGreatest_spec (P := Reaches) atFront.length_le
    (reaches atFront lists)
  refine ⟨_, names, List.take_prefix _ _, greatest, ?_⟩
  intro other otherNames front lists
  have bounded := Nat.le_findGreatest front.length_le (reaches front lists)
  rw [List.length_take]
  exact Nat.le_min.mpr ⟨bounded, front.length_le⟩

theorem Longest.names_eq (longest : Longest text listing listed) : names text = listed := by
  obtain ⟨⟨tail, rfl⟩, lists, isLongest⟩ := longest
  -- Whatever could be read behind the listing would make a longer one.
  have free : ¬ Continues tail := by
    rintro ⟨c, rest, rfl, nameChar⟩
    obtain ⟨longer, lists⟩ := lists.append_char nameChar
    have bound := isLongest _ _ ⟨rest, by simp⟩ lists
    rw [List.length_append, List.length_singleton] at bound
    omega
  have ended : namesFrom .between tail = [] := by
    by_contra further
    obtain ⟨front, rest, more, rfl, nonempty, follows⟩ := exists_more further
    have bound := isLongest _ _ ⟨rest, by simp⟩ (lists.append follows)
    have grown := List.length_pos_iff.mpr nonempty
    rw [List.length_append] at bound
    omega
  rw [lists.names_append free, ended, List.append_nil]

/-- What the names behind a token are, as the grammar has it. -/
def Reads (text : List Char) (listed : List (List Char)) : Prop :=
  (∃ listing, Longest text listing listed) ∨
    (listed = [] ∧ ∀ listing others, listing <+: text → ¬ Listing listing others)

theorem reads_iff : Reads text listed ↔ listed = names text := by
  constructor
  · rintro (⟨listing, longest⟩ | ⟨rfl, unlisted⟩)
    · exact longest.names_eq.symm
    · by_contra found
      obtain ⟨listing, others, atFront, lists⟩ := exists_listing (Ne.symm found)
      exact unlisted listing others atFront lists
  · rintro rfl
    by_cases found : ∃ listing others, listing <+: text ∧ Listing listing others
    · obtain ⟨_, _, atFront, lists⟩ := found
      obtain ⟨listing, listed, longest⟩ := exists_longest atFront lists
      exact .inl ⟨listing, longest.names_eq ▸ longest⟩
    · refine .inr ⟨?_, fun listing others atFront lists => found ⟨listing, others, atFront, lists⟩⟩
      by_contra nonempty
      exact found (exists_listing nonempty)

end Longest

/-! ## The grammar as a whole -/

/-- A comma and a space in front of every name. -/
theorem more_flatMap {names : List (List Char)} (isName : ∀ name ∈ names, IsName name) :
    More (names.flatMap fun name => ',' :: ' ' :: name) names := by
  induction names with
  | nil => exact .done
  | cons name names ih =>
      have rest := ih fun other member => isName other (List.mem_cons_of_mem name member)
      have nothing : IsGap [] := nofun
      have more := More.another nothing isGap_space (isName name List.mem_cons_self) rest
      exact more

theorem intercalate_cons {name : List Char} {names : List (List Char)} :
    [',', ' '].intercalate (name :: names) =
      name ++ names.flatMap fun name => ',' :: ' ' :: name := by
  induction names generalizing name with
  | nil => simp
  | cons other names ih => rw [List.intercalate_cons_cons, ih]; simp

theorem names_intercalate {ids : List (List Char)} {back : List Char} (nonempty : ids ≠ [])
    (isName : ∀ id ∈ ids, IsName id) (ends : ∀ c rest, back = c :: rest →
      isNameChar c = false ∧ isGap c = false ∧ c ≠ ',') :
    names (' ' :: ([',', ' '].intercalate ids ++ back)) = ids := by
  have free : ¬ Continues back := by
    rintro ⟨c, rest, split, nameChar⟩
    simp [(ends c rest split).1] at nameChar
  have ended : namesFrom .between back = [] := by
    cases back with
    | nil => rfl
    | cons c rest => simp [namesFrom, ends c rest rfl]
  cases ids with
  | nil => exact absurd rfl nonempty
  | cons id ids =>
      have further := more_flatMap fun other member =>
        isName other (List.mem_cons_of_mem id member)
      have listing := Listing.intro (by simp) isGap_space (isName id List.mem_cons_self) further
      have read := listing.names_append free
      rw [ended, List.append_nil, ← intercalate_cons] at read
      exact read

theorem More.isName {text : List Char} {names : List (List Char)} (more : More text names) :
    ∀ name ∈ names, IsName name := by
  induction more with
  | done => nofun
  | another _ _ isName _ ih => exact List.forall_mem_cons.mpr ⟨isName, ih⟩

theorem Listing.isName {text : List Char} {names : List (List Char)}
    (listing : Listing text names) : ∀ name ∈ names, IsName name := by
  obtain ⟨_, _, isName, more⟩ := listing
  exact List.forall_mem_cons.mpr ⟨isName, more.isName⟩

theorem parse?_eq_some_iff {text : String} {ids : List String} :
    parse? text = some ids ↔ ∃ front back listed, Begins text.toList front back ∧
      Reads back listed ∧ ids = (listed.map String.ofList).eraseDups := by
  simp only [parse?, Option.map_eq_some_iff, afterToken?_eq_some_iff]
  constructor
  · rintro ⟨back, ⟨front, begins⟩, rfl⟩
    exact ⟨front, back, names back, begins, reads_iff.mpr rfl, rfl⟩
  · rintro ⟨front, back, listed, begins, reads, rfl⟩
    exact ⟨back, ⟨front, begins⟩, by rw [reads_iff.mp reads]⟩

/-- Reading comments by the grammar of directives. -/
structure Grammatical (read : String → Option (List String)) : Prop where
  none_iff : ∀ text, read text = none ↔
    ∀ front back, text.toList = front ++ token.toList ++ back → Continues back
  some_iff : ∀ text ids, read text = some ids ↔
    ∃ front back listed, Begins text.toList front back ∧ Reads back listed ∧
      ids = (listed.map String.ofList).eraseDups
  ids_isName : ∀ text ids, read text = some ids → ∀ id ∈ ids, IsName id.toList
  /-- Names that are written out are read back, as long as nothing behind them fits in. -/
  reads_back : ∀ (front : String) (ids : List String) (back : String),
    ¬ token.toList <:+: front.toList → ids ≠ [] → (∀ id ∈ ids, IsName id.toList) →
    (∀ c rest, back.toList = c :: rest → isNameChar c = false ∧ isGap c = false ∧ c ≠ ',') →
    read (front ++ token ++ " " ++ ", ".intercalate ids ++ back) = some ids.eraseDups

/-- Directives are recognised exactly by their grammar. -/
theorem parse?_grammatical : Grammatical parse? := by
  refine ⟨?none, fun _ _ => parse?_eq_some_iff, ?isName, ?back⟩
  case none =>
      intro text
      rw [parse?, Option.map_eq_none_iff, afterToken?_eq_none_iff]
  case isName =>
      intro text ids parsed id member
      obtain ⟨_, _, listed, _, reads, rfl⟩ := parse?_eq_some_iff.mp parsed
      obtain ⟨name, isListed, rfl⟩ := List.mem_map.mp (List.mem_eraseDups.mp member)
      rw [String.toList_ofList]
      rcases reads with ⟨_, longest⟩ | ⟨rfl, _⟩
      · exact longest.lists.isName name isListed
      · cases isListed
  case back =>
      intro front ids back absent nonempty isName ends
      let tail := ' ' :: ([',', ' '].intercalate (ids.map String.toList) ++ back.toList)
      have listed : names tail = ids.map String.toList :=
        names_intercalate (by simpa using nonempty) (by simpa using isName) ends
      have free : ¬ Continues tail := by
        rintro ⟨c, rest, split, nameChar⟩
        obtain rfl := (List.cons.inj split).1
        revert nameChar
        decide
      refine parse?_eq_some_iff.mpr ⟨front.toList, tail, ids.map String.toList, ?_,
        reads_iff.mpr listed.symm, by simp⟩
      simpa [tail] using begins_of_absent absent free

end Directive

end TreeLint
