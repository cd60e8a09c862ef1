import TreeLint.Proofs.DirectiveAnchors
import TreeLint.Proofs.DocumentTrees
import TreeLint.Proofs.EngineSetup

/-!
# Reading policies section by section

A document falls into five parts: the members under unknown keys, and one for each section. Reading
looks up each section by its key, so a part is read as it would be on its own, and neither its
problems nor what it gives depend on the other parts.
-/

set_option autoImplicit false

namespace TreeLint

namespace Severity

/-- The value displays as the name of the severity, once trimmed and in upper case. -/
def Names (value : Value) (severity : Severity) : Prop :=
  (Text.trimChars value.display.toList).flatMap Text.upperAscii = severity.name.toList

theorem ofValue?_eq_some_iff {value : Value} {severity : Severity} :
    ofValue? value = some severity ↔ Names value severity := by
  constructor
  · intro found
    have spelled := List.find?_some found
    exact (beq_iff_eq.mp spelled).symm
  · intro spelled
    unfold ofValue? ofText?
    rw [spelled]
    cases severity <;> rfl

def Named (value : Value) : Prop :=
  ∃ severity, Names value severity

instance (value : Value) : Decidable (Named value) :=
  decidable_of_iff ((ofValue? value).isSome = true) <| by
    simp only [Named, Option.isSome_iff_exists, ofValue?_eq_some_iff]

end Severity

/-! ## Parts of documents -/

/-- The members under the keys that are wanted. -/
def Members.restrict (members : Members) (wanted : String → Bool) : Members :=
  members.filter fun member => wanted member.1

theorem Members.get?_restrict (members : Members) (wanted : String → Bool) (key : String) :
    (members.restrict wanted).get? key = if wanted key then members.get? key else none := by
  unfold restrict get?
  induction members with
  | nil => simp
  | cons first rest ih =>
      obtain ⟨name, value⟩ := first
      cases kept : wanted name with
      | true =>
          rw [List.filter_cons_of_pos (by simpa using kept), List.lookup_cons, List.lookup_cons, ih]
          cases same : key == name with
          | true => simp [beq_iff_eq.mp same, kept]
          | false => rfl
      | false =>
          rw [List.filter_cons_of_neg (by simp [kept]), List.lookup_cons, ih]
          cases same : key == name with
          | true => simp [beq_iff_eq.mp same, kept]
          | false => rfl

theorem Members.isWritable_restrict (members : Members)
    (writable : (Value.object members).isWritable = true) (wanted : String → Bool) :
    (Value.object (members.restrict wanted)).isWritable = true := by
  rw [Value.isWritable] at writable ⊢
  unfold restrict
  induction members with
  | nil => rfl
  | cons first rest ih =>
      rw [Value.membersAreWritable, Bool.and_eq_true] at writable
      cases kept : wanted first.1 with
      | true =>
          rw [List.filter_cons_of_pos (by simpa using kept), Value.membersAreWritable, writable.1]
          exact ih writable.2
      | false =>
          rw [List.filter_cons_of_neg (by simp [kept])]
          exact ih writable.2

namespace Policy

/-- The members under keys of no section. -/
def others (members : Members) : Members :=
  members.restrict fun key => !knownKeys.contains key

/-- The members under the key of one section. -/
def only (key : String) (members : Members) : Members :=
  members.restrict fun other => other == key

def parts (members : Members) : List Members :=
  others members :: knownKeys.map fun key => only key members

theorem unknownKeyProblems_others (members : Members) :
    unknownKeyProblems (others members) = unknownKeyProblems members := by
  have same : ((others members).map (·.1)).filter (fun key => !knownKeys.contains key) =
      (members.map (·.1)).filter fun key => !knownKeys.contains key := by
    simp [others, Members.restrict, List.filter_map, List.filter_filter, Function.comp_def]
  rw [unknownKeyProblems, same, unknownKeyProblems]

theorem unknownKeyProblems_only {key : String} (known : key ∈ knownKeys) (members : Members) :
    unknownKeyProblems (only key members) = [] := by
  have none : ((only key members).map (·.1)).filter (fun key => !knownKeys.contains key) = [] := by
    rw [List.filter_eq_nil_iff]
    intro other listed
    obtain ⟨member, kept, rfl⟩ := List.mem_map.mp listed
    have own : member.1 = key := by simpa using (List.mem_filter.mp kept).2
    simp [own, known]
  rw [unknownKeyProblems, none]
  simp [sorted]

section Restrict

variable (members : Members) (wanted : String → Bool)

theorem readTexts_restrict (key : String) :
    readTexts (members.restrict wanted) key =
      if wanted key then readTexts members key else .ok ⟨[], []⟩ := by
  unfold readTexts
  rw [Members.get?_restrict]
  cases wanted key <;> rfl

theorem readOverrides_restrict :
    readOverrides (members.restrict wanted) =
      if wanted "severity_overrides" then readOverrides members else ⟨[], []⟩ := by
  unfold readOverrides
  rw [Members.get?_restrict]
  cases wanted "severity_overrides" <;> rfl

theorem readExclusions_restrict :
    readExclusions (members.restrict wanted) =
      if wanted "exclusions" then readExclusions members else .ok ⟨[], []⟩ := by
  unfold readExclusions
  rw [Members.get?_restrict]
  cases wanted "exclusions" <;> rfl

end Restrict

/-! ## Sections put together -/

/-- The problems that reading ended with. -/
def problemsOf : Except PolicyError Policy → List PolicyProblem
  | .error (.invalid problems) => problems
  | _ => []

/-- What the sections come to, behind the problems of unknown keys. -/
def assemble (unknown : List PolicyProblem) (excluded disabled : Section (List String))
    (overrides : Section (List (String × Severity))) (exclusions : Section (List Exclusion)) :
    Except PolicyError Policy :=
  match unknown ++ excluded.problems ++ disabled.problems ++ overrides.problems ++
      exclusions.problems with
  | [] =>
      .ok
        { excludedPaths := excluded.content.eraseDups
          disabledRules := disabled.content.eraseDups
          overrides := overrides.content
          exclusions := exclusions.content }
  | problems => .error (.invalid problems)

section Assemble

variable {unknown : List PolicyProblem} {excluded disabled : Section (List String)}
  {overrides : Section (List (String × Severity))} {exclusions : Section (List Exclusion)}

theorem problemsOf_assemble :
    problemsOf (assemble unknown excluded disabled overrides exclusions) =
      unknown ++ excluded.problems ++ disabled.problems ++ overrides.problems ++
        exclusions.problems := by
  unfold assemble
  split
  next clean =>
    rw [clean]
    rfl
  next => rfl

theorem assemble_eq_ok_iff {policy : Policy} :
    assemble unknown excluded disabled overrides exclusions = .ok policy ↔
      (unknown = [] ∧ excluded.problems = [] ∧ disabled.problems = [] ∧ overrides.problems = [] ∧
        exclusions.problems = []) ∧
      policy = ⟨excluded.content.eraseDups, disabled.content.eraseDups, overrides.content,
        exclusions.content⟩ := by
  unfold assemble
  split
  next clean =>
    simp only [List.append_eq_nil_iff, and_assoc] at clean
    simp [clean, eq_comm]
  next faulty =>
    simp only [List.append_eq_nil_iff, and_assoc] at faulty
    simp only [reduceCtorEq, false_iff, not_and]
    intro clean
    exact absurd clean faulty

theorem assemble_eq_error {error : PolicyError}
    (failed : assemble unknown excluded disabled overrides exclusions = .error error) :
    ∃ first rest, error = .invalid (first :: rest) := by
  unfold assemble at failed
  split at failed
  next => cases failed
  next problems faulty =>
    cases failed
    obtain ⟨first, rest, same⟩ := List.exists_cons_of_ne_nil faulty
    exact ⟨first, rest, by rw [same]⟩

theorem assemble_invalid_iff :
    (∃ problems, assemble unknown excluded disabled overrides exclusions =
        .error (.invalid problems)) ↔
      problemsOf (assemble unknown excluded disabled overrides exclusions) ≠ [] := by
  cases outcome : assemble unknown excluded disabled overrides exclusions with
  | ok policy => simp [problemsOf]
  | error error =>
      obtain ⟨first, rest, rfl⟩ := assemble_eq_error outcome
      simp [problemsOf]

end Assemble

/-! ## Texts -/

def areTexts : Value → Bool
  | .null | .text _ | .list _ => true
  | _ => false

def textsFaults (key : String) (given : Option Value) : List PolicyProblem :=
  if given.all areTexts then [] else [.notTexts key]

def textsOf : Option Value → List String
  | some (.text text) => [text]
  | some (.list items) => items.map Value.display
  | _ => []

theorem readTexts_eq {members : Members} (writable : (Value.object members).isWritable = true)
    (key : String) :
    readTexts members key =
      .ok ⟨textsOf (members.get? key), textsFaults key (members.get? key)⟩ := by
  unfold readTexts
  cases given : members.get? key with
  | none => rfl
  | some value =>
      cases value with
      | list items =>
          have written := Value.isWritable_of_get? writable given
          rw [Value.isWritable] at written
          simp only [written]
          rfl
      | _ => rfl

/-! ## Overrides -/

/-- The override is of the rule that the entry is for, with the severity that the entry names. -/
def Overrides (entry : String × Value) (override : String × Severity) : Prop :=
  override.1 = entry.1 ∧ Severity.Names entry.2 override.2

def overrideEntries : Option Value → Members
  | some (.object entries) => entries
  | _ => []

/-- One problem for a value that is no object, and one for each entry that names no severity. -/
def overrideFaults : Option Value → List PolicyProblem
  | some (.object entries) =>
      (entries.filter fun (_, given) => ¬Severity.Named given).map
        fun (id, given) => .unknownSeverity id given
  | some other => if other.isFalsy then [] else [.overridesNotMapping]
  | none => []

theorem readOverride_named {read : Section (List (String × Severity))} {entry : String × Value}
    {severity : Severity} (names : Severity.Names entry.2 severity) :
    readOverride read entry =
      { read with content := setOverride read.content entry.1 severity } := by
  rw [readOverride, Severity.ofValue?_eq_some_iff.mpr names]

theorem readOverride_unnamed {read : Section (List (String × Severity))} {entry : String × Value}
    (unnamed : ¬Severity.Named entry.2) :
    readOverride read entry =
      { read with problems := read.problems ++ [.unknownSeverity entry.1 entry.2] } := by
  cases found : Severity.ofValue? entry.2 with
  | none => rw [readOverride, found]
  | some severity => exact absurd ⟨severity, Severity.ofValue?_eq_some_iff.mp found⟩ unnamed

theorem foldl_readOverride (entries : Members) (start : Section (List (String × Severity))) :
    ∃ read,
      List.Forall₂ Overrides
          (entries.filter fun entry => Severity.Named entry.2) read ∧
        entries.foldl readOverride start =
          ⟨setOverrides start.content read,
            start.problems ++ overrideFaults (some (.object entries))⟩ := by
  -- What was read before stays in front, whatever it was.
  induction entries generalizing start with
  | nil => exact ⟨[], .nil, by simp [overrideFaults, setOverrides]⟩
  | cons entry rest ih =>
      by_cases named : Severity.Named entry.2
      · obtain ⟨severity, names⟩ := named
        obtain ⟨read, each, folded⟩ := ih (readOverride start entry)
        have kept : Severity.Named entry.2 := ⟨severity, names⟩
        refine ⟨(entry.1, severity) :: read, ?_, ?_⟩
        · rw [List.filter_cons_of_pos (by simpa using kept)]
          exact .cons ⟨rfl, names⟩ each
        · rw [List.foldl_cons, folded, readOverride_named names, setOverrides_cons]
          simp [overrideFaults, kept]
      · obtain ⟨read, each, folded⟩ := ih (readOverride start entry)
        refine ⟨read, ?_, ?_⟩
        · rwa [List.filter_cons_of_neg (by simpa using named)]
        · rw [List.foldl_cons, folded, readOverride_unnamed named]
          simp [overrideFaults, named]

theorem readOverrides_eq (members : Members) :
    ∃ read,
      List.Forall₂ Overrides
          ((overrideEntries (members.get? "severity_overrides")).filter
            fun entry => Severity.Named entry.2) read ∧
        readOverrides members =
          ⟨setOverrides [] read, overrideFaults (members.get? "severity_overrides")⟩ := by
  unfold readOverrides
  cases members.get? "severity_overrides" with
  | none => exact ⟨[], .nil, rfl⟩
  | some value =>
      cases value with
      | object entries =>
          have taken : Value.orElse (some (.object entries)) (.object []) = .object entries := by
            cases entries <;> rfl
          rw [taken]
          exact foldl_readOverride entries ⟨[], []⟩
      | _ =>
          refine ⟨[], .nil, ?_⟩
          simp only [Value.orElse, overrideFaults]
          split_ifs <;> rfl

theorem filter_named_eq_self {given : Option Value} (clean : overrideFaults given = []) :
    ((overrideEntries given).filter fun entry => Severity.Named entry.2) =
      overrideEntries given := by
  rw [List.filter_eq_self]
  intro entry listed
  cases given with
  | none => cases listed
  | some value =>
      cases value with
      | object entries =>
          rw [overrideFaults, List.map_eq_nil_iff, List.filter_eq_nil_iff] at clean
          simpa using clean entry listed
      | _ => cases listed

theorem mem_of_mem_setOverride {overrides : List (String × Severity)} {id : String}
    {severity : Severity} {override : String × Severity}
    (listed : override ∈ setOverride overrides id severity) :
    override ∈ overrides ∨ override = (id, severity) := by
  induction overrides with
  | nil => exact .inr (List.mem_singleton.mp listed)
  | cons first rest ih =>
      rw [setOverride] at listed
      split at listed
      next same => grind
      next => grind

theorem mem_of_mem_setOverrides {overrides added : List (String × Severity)}
    {override : String × Severity} (listed : override ∈ setOverrides overrides added) :
    override ∈ overrides ∨ override ∈ added := by
  induction added generalizing overrides with
  | nil => exact .inl listed
  | cons first rest ih =>
      rw [setOverrides_cons] at listed
      cases ih listed with
      | inl before =>
          cases mem_of_mem_setOverride before with
          | inl known => exact .inl known
          | inr own => exact .inr (own ▸ List.mem_cons_self)
      | inr later => exact .inr (List.mem_cons_of_mem first later)

/-! ## Exclusions -/

/-- What `rule` displays as, unless it is absent or falsy. -/
def ruleGiven (members : Members) : Option String :=
  ((members.get? "rule").filter (!·.isFalsy)).map Value.display

/-- The item is an object with the pattern as a text under `path`, for the rule that it gives. -/
def Excludes (item : Value) (exclusion : Exclusion) : Prop :=
  ∃ members, item = .object members ∧
    Members.get? members "path" = some (.text exclusion.pattern) ∧
    exclusion.ruleId = ruleGiven members

/-- The item is an object with a text under `path`. -/
def hasPath : Value → Bool
  | .object members => ((Members.get? members "path").bind Value.text?).isSome
  | _ => false

def exclusionItems : Option Value → List Value
  | some (.list items) => items
  | _ => []

/-- The items of a list that have no path, counted from an index on. -/
def itemFaults (index : Nat) (items : List Value) : List PolicyProblem :=
  ((items.zipIdx index).filter fun (item, _) => !hasPath item).map
    fun (_, position) => .badExclusion position

/-- One problem for a value that is no list, and one for each item without a path. -/
def exclusionFaults : Option Value → List PolicyProblem
  | some (.list items) => itemFaults 0 items
  | some other => if other.isFalsy then [] else [.exclusionsNotList]
  | none => []

theorem readExclusion_eq {members : Members} {pattern : String}
    (writable : (Value.object members).isWritable = true)
    (path : members.get? "path" = some (.text pattern)) :
    readExclusion (.object members) = .ok (some ⟨pattern, ruleGiven members⟩) := by
  rw [readExclusion, path, ruleGiven]
  cases given : members.get? "rule" with
  | none => rfl
  | some rule =>
      have written := Value.isWritable_of_get? writable given
      cases falsy : rule.isFalsy with
      | true => simp [Value.orElse, falsy]
      | false =>
          -- Null is taken for an absent rule, and it is falsy itself.
          cases rule with
          | null => cases falsy
          | _ => simp [Value.orElse, falsy, written]

theorem readExclusion_of_hasPath {item : Value} (writable : item.isWritable = true)
    (pathed : hasPath item = true) :
    ∃ exclusion, readExclusion item = .ok (some exclusion) ∧ Excludes item exclusion := by
  cases item with
  | object members =>
      obtain ⟨pattern, found⟩ := Option.isSome_iff_exists.mp pathed
      obtain ⟨path, given, isText⟩ := Option.bind_eq_some_iff.mp found
      cases path with
      | text own => exact ⟨_, readExclusion_eq writable given, members, rfl, given, rfl⟩
      | _ => cases isText
  | _ => cases pathed

theorem readExclusion_of_not_hasPath {item : Value} (pathless : hasPath item = false) :
    readExclusion item = .ok none := by
  unfold readExclusion
  split
  next members =>
    split
    next pattern named => simp [hasPath, named, Value.text?] at pathless
    next => rfl
  next => rfl

theorem readExclusionItems_eq {items : List Value} (writable : Value.areWritable items = true)
    (index : Nat) :
    ∃ read, List.Forall₂ Excludes (items.filter hasPath) read ∧
      readExclusionItems index items = .ok ⟨read, itemFaults index items⟩ := by
  induction items generalizing index with
  | nil => exact ⟨[], .nil, rfl⟩
  | cons item rest ih =>
      rw [Value.areWritable, Bool.and_eq_true] at writable
      obtain ⟨read, each, later⟩ := ih writable.2 (index + 1)
      cases pathed : hasPath item with
      | true =>
          obtain ⟨exclusion, own, excludes⟩ := readExclusion_of_hasPath writable.1 pathed
          refine ⟨exclusion :: read, ?_, ?_⟩
          · rw [List.filter_cons_of_pos pathed]
            exact .cons excludes each
          · rw [readExclusionItems, own, later]
            simp [bind, Except.bind, itemFaults, pathed]
      | false =>
          refine ⟨read, ?_, ?_⟩
          · rwa [List.filter_cons_of_neg (by simp [pathed])]
          · rw [readExclusionItems, readExclusion_of_not_hasPath pathed, later]
            simp [bind, Except.bind, itemFaults, pathed]

theorem readExclusions_eq {members : Members}
    (writable : (Value.object members).isWritable = true) :
    ∃ read, List.Forall₂ Excludes
        ((exclusionItems (members.get? "exclusions")).filter hasPath) read ∧
      readExclusions members = .ok ⟨read, exclusionFaults (members.get? "exclusions")⟩ := by
  unfold readExclusions
  cases given : members.get? "exclusions" with
  | none => exact ⟨[], .nil, rfl⟩
  | some value =>
      cases value with
      | list items =>
          have written := Value.isWritable_of_get? writable given
          rw [Value.isWritable] at written
          have taken : Value.orElse (some (.list items)) (.list []) = .list items := by
            cases items <;> rfl
          rw [taken]
          exact readExclusionItems_eq written 0
      | _ =>
          refine ⟨[], .nil, ?_⟩
          simp only [Value.orElse, exclusionFaults]
          split_ifs <;> rfl

theorem filter_hasPath_eq_self {given : Option Value} (clean : exclusionFaults given = []) :
    (exclusionItems given).filter hasPath = exclusionItems given := by
  rw [List.filter_eq_self]
  intro item listed
  cases given with
  | none => cases listed
  | some value =>
      cases value with
      | list items =>
          rw [exclusionFaults, itemFaults, List.map_eq_nil_iff, List.filter_eq_nil_iff] at clean
          have inside : item ∈ items := listed
          obtain ⟨index, found⟩ := List.mem_iff_getElem?.mp inside
          simpa using clean (item, index) (List.mk_mem_zipIdx_iff_getElem?.mpr found)
      | _ => cases listed

/-! ## Whole documents -/

section Parts

variable {members : Members} {excluded disabled : Section (List String)}
  {exclusions : Section (List Exclusion)}

theorem ofMembers_eq_assemble (excludedRead : readTexts members "excluded_paths" = .ok excluded)
    (disabledRead : readTexts members "disabled_rules" = .ok disabled)
    (exclusionsRead : readExclusions members = .ok exclusions) :
    ofMembers members =
      assemble (unknownKeyProblems members) excluded disabled (readOverrides members)
        exclusions := by
  rw [ofMembers, excludedRead, disabledRead, exclusionsRead]
  rfl

theorem ofMembers_restrict (excludedRead : readTexts members "excluded_paths" = .ok excluded)
    (disabledRead : readTexts members "disabled_rules" = .ok disabled)
    (exclusionsRead : readExclusions members = .ok exclusions) (wanted : String → Bool) :
    ofMembers (members.restrict wanted) =
      assemble (unknownKeyProblems (members.restrict wanted))
        (if wanted "excluded_paths" then excluded else ⟨[], []⟩)
        (if wanted "disabled_rules" then disabled else ⟨[], []⟩)
        (if wanted "severity_overrides" then readOverrides members else ⟨[], []⟩)
        (if wanted "exclusions" then exclusions else ⟨[], []⟩) := by
  rw [← readOverrides_restrict]
  apply ofMembers_eq_assemble
  · rw [readTexts_restrict, excludedRead, apply_ite Except.ok]
  · rw [readTexts_restrict, disabledRead, apply_ite Except.ok]
  · rw [readExclusions_restrict, exclusionsRead, apply_ite Except.ok]

theorem map_ofMembers_parts (excludedRead : readTexts members "excluded_paths" = .ok excluded)
    (disabledRead : readTexts members "disabled_rules" = .ok disabled)
    (exclusionsRead : readExclusions members = .ok exclusions) :
    (parts members).map ofMembers =
      [assemble (unknownKeyProblems members) ⟨[], []⟩ ⟨[], []⟩ ⟨[], []⟩ ⟨[], []⟩,
        assemble [] excluded ⟨[], []⟩ ⟨[], []⟩ ⟨[], []⟩,
        assemble [] ⟨[], []⟩ disabled ⟨[], []⟩ ⟨[], []⟩,
        assemble [] ⟨[], []⟩ ⟨[], []⟩ (readOverrides members) ⟨[], []⟩,
        assemble [] ⟨[], []⟩ ⟨[], []⟩ ⟨[], []⟩ exclusions] := by
  have read := ofMembers_restrict excludedRead disabledRead exclusionsRead
  -- Of the four look-ups only the one for the key of the part finds something.
  have alone (key : String) (known : key ∈ knownKeys) :
      ofMembers (only key members) =
        assemble [] (if "excluded_paths" == key then excluded else ⟨[], []⟩)
          (if "disabled_rules" == key then disabled else ⟨[], []⟩)
          (if "severity_overrides" == key then readOverrides members else ⟨[], []⟩)
          (if "exclusions" == key then exclusions else ⟨[], []⟩) := by
    have none := unknownKeyProblems_only known members
    unfold only at none ⊢
    rw [read, none]
  have unknown : ofMembers (others members) =
      assemble (unknownKeyProblems members) ⟨[], []⟩ ⟨[], []⟩ ⟨[], []⟩ ⟨[], []⟩ := by
    rw [← unknownKeyProblems_others]
    exact read _
  have each : knownKeys.map (ofMembers <| only · members) = _ := List.map_congr_left alone
  rw [parts, List.map_cons, List.map_map, unknown]
  exact congrArg _ each

end Parts

theorem isWritable_of_mem_parts {members : Members}
    (writable : (Value.object members).isWritable = true) {part : Members}
    (listed : part ∈ parts members) : (Value.object part).isWritable = true := by
  rw [parts, List.mem_cons, List.mem_map] at listed
  rcases listed with rfl | ⟨key, _, rfl⟩
  · exact members.isWritable_restrict writable _
  · exact members.isWritable_restrict writable _

theorem invalid_iff {members : Members} (writable : (Value.object members).isWritable = true) :
    (∃ problems, ofMembers members = .error (.invalid problems)) ↔
      problemsOf (ofMembers members) ≠ [] := by
  obtain ⟨_, _, exclusionsRead⟩ := readExclusions_eq writable
  rw [ofMembers_eq_assemble (readTexts_eq writable _) (readTexts_eq writable _) exclusionsRead]
  exact assemble_invalid_iff

/-- What a document gives, once nothing is wrong with it. -/
structure Gives (members : Members) (policy : Policy) : Prop where
  /-- Each part alone gives its own field, and leaves the others as the neutral policy has them. -/
  alone : (parts members).map ofMembers =
    [.ok neutral, .ok { neutral with excludedPaths := policy.excludedPaths },
      .ok { neutral with disabledRules := policy.disabledRules },
      .ok { neutral with overrides := policy.overrides },
      .ok { neutral with exclusions := policy.exclusions }]
  excludedPaths : policy.excludedPaths = (textsOf (members.get? "excluded_paths")).eraseDups
  disabledRules : policy.disabledRules = (textsOf (members.get? "disabled_rules")).eraseDups
  /-- No entry is left out. -/
  overrides : ∃ read,
    List.Forall₂ Overrides (overrideEntries (members.get? "severity_overrides")) read ∧
      policy.overrides = setOverrides [] read
  named : ∀ override ∈ policy.overrides,
    ∃ entry ∈ overrideEntries (members.get? "severity_overrides"), Overrides entry override
  exclusions :
    List.Forall₂ Excludes (exclusionItems (members.get? "exclusions")) policy.exclusions

/-- How reading a document depends on its parts. -/
structure ReadByPart (members : Members) : Prop where
  reported : ∀ error, ofMembers members = .error error →
    ∃ first rest, error = .invalid (first :: rest)
  rejected : (∃ problems, ofMembers members = .error (.invalid problems)) ↔
    ∃ part ∈ parts members, ∃ problems, ofMembers part = .error (.invalid problems)
  problems : problemsOf (ofMembers members) =
    (parts members).flatMap fun part => problemsOf (ofMembers part)
  each : ∃ keys,
    keys.Perm ((members.map Prod.fst).filter fun key => key ∉ knownKeys) ∧
      keys.Pairwise (· ≤ ·) ∧
      (parts members).map (fun part => problemsOf (ofMembers part)) =
        [if keys = [] then [] else [.unknownKeys keys],
          textsFaults "excluded_paths" (members.get? "excluded_paths"),
          textsFaults "disabled_rules" (members.get? "disabled_rules"),
          overrideFaults (members.get? "severity_overrides"),
          exclusionFaults (members.get? "exclusions")]
  accepted : ∀ policy, ofMembers members = .ok policy → Gives members policy

theorem unknownKeyProblems_eq (members : Members) :
    ∃ keys, keys.Perm ((members.map Prod.fst).filter fun key => key ∉ knownKeys) ∧
      keys.Pairwise (· ≤ ·) ∧
      unknownKeyProblems members = if keys = [] then [] else [.unknownKeys keys] := by
  refine ⟨sorted ((members.map Prod.fst).filter fun key => key ∉ knownKeys), sorted_perm _,
    pairwise_sorted _, ?_⟩
  have same : (fun key => !knownKeys.contains key) = fun key => decide (key ∉ knownKeys) := by
    funext key
    simp
  rw [unknownKeyProblems, same]
  split
  next none => rw [none, if_pos rfl]
  next some => rw [if_neg some]

theorem gives_of_ofMembers {members : Members} (writable : (Value.object members).isWritable = true)
    {policy : Policy} (read : ofMembers members = .ok policy) : Gives members policy := by
  have excludedRead := readTexts_eq writable "excluded_paths"
  have disabledRead := readTexts_eq writable "disabled_rules"
  obtain ⟨overrides, overriding, overridesRead⟩ := readOverrides_eq members
  obtain ⟨exclusions, excluding, exclusionsRead⟩ := readExclusions_eq writable
  have alone := map_ofMembers_parts excludedRead disabledRead exclusionsRead
  rw [ofMembers_eq_assemble excludedRead disabledRead exclusionsRead, assemble_eq_ok_iff,
    overridesRead] at read
  obtain ⟨clean, rfl⟩ := read
  dsimp only at clean
  -- Nothing was filtered out, as each entry that is left out would be a problem.
  rw [filter_named_eq_self clean.2.2.2.1] at overriding
  rw [filter_hasPath_eq_self clean.2.2.2.2] at excluding
  refine { alone := ?alone, excludedPaths := rfl, disabledRules := rfl,
           overrides := ⟨overrides, overriding, rfl⟩, named := ?named, exclusions := excluding }
  case alone =>
    rw [alone, overridesRead]
    simp [assemble_eq_ok_iff, clean, neutral]
  case named =>
    intro override listed
    cases mem_of_mem_setOverrides listed with
    | inl impossible => cases impossible
    | inr given => exact exists_of_forall₂ overriding given

/-- A document whose integers are not too long is read part by part. -/
theorem ofMembers_readByPart {members : Members}
    (writable : (Value.object members).isWritable = true) : ReadByPart members := by
  have excludedRead := readTexts_eq writable "excluded_paths"
  have disabledRead := readTexts_eq writable "disabled_rules"
  obtain ⟨overrides, _, overridesRead⟩ := readOverrides_eq members
  obtain ⟨exclusions, _, exclusionsRead⟩ := readExclusions_eq writable
  have whole := ofMembers_eq_assemble excludedRead disabledRead exclusionsRead
  have alone := map_ofMembers_parts excludedRead disabledRead exclusionsRead
  have problems : problemsOf (ofMembers members) =
      (parts members).flatMap fun part => problemsOf (ofMembers part) := by
    rw [← List.flatMap_map, alone, whole]
    simp [problemsOf_assemble]
  refine { reported := ?reported, rejected := ?rejected, problems, each := ?each,
           accepted := fun _ => gives_of_ofMembers writable }
  case reported =>
    intro error failed
    rw [whole] at failed
    exact assemble_eq_error failed
  case rejected =>
    rw [invalid_iff writable, problems, Ne, List.flatMap_eq_nil_iff, not_forall]
    apply exists_congr
    intro part
    rw [Classical.not_imp]
    apply and_congr_right
    intro listed
    exact (invalid_iff (isWritable_of_mem_parts writable listed)).symm
  case each =>
    obtain ⟨keys, permuted, ordered, unknown⟩ := unknownKeyProblems_eq members
    refine ⟨keys, permuted, ordered, ?_⟩
    rw [← Function.comp_def, ← List.map_map, alone, overridesRead, ← unknown]
    simp [problemsOf_assemble]

/-- Every part has a problem, but for the disabled rules. -/
def muddled : Members :=
  [("exclusions", .list [.object [("path", .text "gen/*")], .text "gen/*"]),
    ("severity_overrides", .object [("naming.getter-prefix", .text " Info"), ("x", .integer 3)]),
    ("strict", .bool true), ("excluded_paths", .integer 0)]

theorem ofMembers_readByPart_muddled :
    (Value.object muddled).isWritable = true ∧ ReadByPart muddled ∧
      problemsOf (ofMembers muddled) =
        [.unknownKeys ["strict"], .notTexts "excluded_paths", .unknownSeverity "x" (.integer 3),
          .badExclusion 1] := by
  have writable : (Value.object muddled).isWritable = true := by decide +kernel
  have unknown : unknownKeyProblems muddled = [.unknownKeys ["strict"]] := by
    simp [unknownKeyProblems, muddled, knownKeys, sorted]
  obtain ⟨_, _, exclusionsRead⟩ := readExclusions_eq writable
  refine ⟨writable, ofMembers_readByPart writable, ?_⟩
  rw [ofMembers_eq_assemble (readTexts_eq writable _) (readTexts_eq writable _) exclusionsRead,
    problemsOf_assemble, unknown]
  rfl

end Policy

end TreeLint
