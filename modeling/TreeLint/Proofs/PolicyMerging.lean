import TreeLint.Proofs.LoadedTrees

/-!
# Merging policies

Four sections are merged under four rules. All of them come down to adding entries one by one, and
adding what was gathered before comes to the same as adding its entries where they stand. Merging is
therefore a matter of the sequence of policies alone, however they are grouped.
-/

set_option autoImplicit false

namespace TreeLint

/-! ## Members added one by one -/

section Sets

variable {α : Type} [DecidableEq α]

theorem mem_union {members added : List α} {member : α} :
    member ∈ union members added ↔ member ∈ members ∨ member ∈ added := by
  induction added generalizing members with
  | nil => simp [union]
  | cons first rest ih =>
      change member ∈ union (insertNew members first) rest ↔ _
      rw [ih, mem_insertNew, List.mem_cons, or_assoc]

theorem nodup_union {members : List α} (unique : members.Nodup) (added : List α) :
    (union members added).Nodup := by
  induction added generalizing members with
  | nil => exact unique
  | cons first rest ih => exact ih (nodup_insertNew unique first)

theorem union_insertNew (members added : List α) (member : α) :
    union members (insertNew added member) = insertNew (union members added) member := by
  by_cases present : member ∈ added
  · have joined : member ∈ union members added := mem_union.mpr (.inr present)
    rw [insertNew, if_pos present, insertNew, if_pos joined]
  · rw [insertNew, if_neg present, union, List.foldl_append]
    rfl

theorem union_union (members added more : List α) :
    union members (union added more) = union (union members added) more := by
  induction more generalizing added with
  | nil => rfl
  | cons first rest ih =>
      calc union members (union (insertNew added first) rest)
        _ = union (union members (insertNew added first)) rest := ih _
        _ = union (insertNew (union members added) first) rest := by rw [union_insertNew]

end Sets

namespace Policy

/-! ## Overrides set one by one -/

/-- Sets overrides in the order given. -/
def setOverrides (overrides added : List (String × Severity)) : List (String × Severity) :=
  added.foldl (fun overrides (ruleId, severity) => setOverride overrides ruleId severity) overrides

theorem setOverrides_cons (overrides added : List (String × Severity)) (id : String)
    (severity : Severity) :
    setOverrides overrides ((id, severity) :: added) =
      setOverrides (setOverride overrides id severity) added := rfl

theorem map_fst_setOverride (overrides : List (String × Severity)) (id : String)
    (severity : Severity) :
    (setOverride overrides id severity).map Prod.fst = insertNew (overrides.map Prod.fst) id := by
  induction overrides with
  | nil => rfl
  | cons first rest ih =>
      obtain ⟨other, old⟩ := first
      rw [setOverride]
      by_cases same : other = id
      · simp [same, insertNew]
      · rw [if_neg same, List.map_cons, ih, insertNew, insertNew]
        by_cases present : id ∈ rest.map Prod.fst
        · simp [present]
        · simp [present, Ne.symm same]

theorem map_fst_setOverrides (overrides added : List (String × Severity)) :
    (setOverrides overrides added).map Prod.fst =
      union (overrides.map Prod.fst) (added.map Prod.fst) := by
  induction added generalizing overrides with
  | nil => rfl
  | cons first rest ih =>
      obtain ⟨id, severity⟩ := first
      rw [setOverrides_cons, ih, map_fst_setOverride]
      rfl

theorem lookup_cons_eq_ite (overrides : List (String × Severity)) (id other : String)
    (severity : Severity) :
    ((id, severity) :: overrides).lookup other =
      if other = id then some severity else overrides.lookup other := by
  by_cases same : other = id
  · subst same
    rw [List.lookup_cons_self, if_pos rfl]
  · have differs : (other == id) = false := by simpa using same
    rw [List.lookup_cons, differs, if_neg same]

theorem lookup_setOverride (overrides : List (String × Severity)) (id other : String)
    (severity : Severity) :
    (setOverride overrides id severity).lookup other =
      if other = id then some severity else overrides.lookup other := by
  induction overrides with
  | nil => exact lookup_cons_eq_ite [] id other severity
  | cons first rest ih =>
      obtain ⟨known, old⟩ := first
      rw [setOverride, lookup_cons_eq_ite]
      by_cases found : known = id
      · rw [if_pos found, lookup_cons_eq_ite, found]
        by_cases same : other = id <;> simp [same]
      · rw [if_neg found, lookup_cons_eq_ite, ih]
        by_cases same : other = known
        · subst same
          simp [found]
        · simp [same]

/-- The overrides that are set come before those there were. -/
theorem lookup_setOverrides (overrides : List (String × Severity))
    {added : List (String × Severity)} (keyed : (added.map Prod.fst).Nodup) (id : String) :
    (setOverrides overrides added).lookup id = (added.lookup id).or (overrides.lookup id) := by
  induction added generalizing overrides with
  | nil => rfl
  | cons first rest ih =>
      obtain ⟨given, severity⟩ := first
      obtain ⟨once, keyed⟩ := List.nodup_cons.mp keyed
      rw [setOverrides_cons, ih _ keyed, lookup_setOverride, lookup_cons_eq_ite]
      by_cases same : id = given
      · subst same
        have unset : rest.lookup id = none := by
          rw [List.lookup_eq_none_iff]
          intro entry member
          have named : entry.1 ∈ rest.map Prod.fst := List.mem_map_of_mem member
          have differs : id ≠ entry.1 := fun equal => once (equal ▸ named)
          simpa using differs
        rw [unset, if_pos rfl, if_pos rfl]
        rfl
      · rw [if_neg same, if_neg same]

theorem setOverride_again (overrides : List (String × Severity)) (id : String)
    (old new : Severity) :
    setOverride (setOverride overrides id old) id new = setOverride overrides id new := by
  induction overrides with
  | nil => simp [setOverride]
  | cons first rest ih =>
      obtain ⟨other, severity⟩ := first
      by_cases same : other = id <;> simp [setOverride, same, ih]

/-- Two rules may be overridden in either order, as long as one of them is overridden already; else
the order of the entries would tell. -/
theorem setOverride_comm {overrides : List (String × Severity)} {id other : String}
    (present : id ∈ overrides.map Prod.fst) (differs : other ≠ id) (severity given : Severity) :
    setOverride (setOverride overrides other given) id severity =
      setOverride (setOverride overrides id severity) other given := by
  induction overrides with
  | nil => cases present
  | cons first rest ih =>
      obtain ⟨known, old⟩ := first
      by_cases own : known = id
      · subst own
        simp [setOverride, Ne.symm differs]
      · have later : id ∈ rest.map Prod.fst := by
          rcases List.mem_cons.mp present with equal | later
          · exact absurd equal.symm own
          · exact later
        by_cases taken : known = other
        · subst taken
          simp [setOverride, own]
        · simp [setOverride, own, taken, ih later]

theorem setOverride_setOverrides {overrides added : List (String × Severity)} {id : String}
    (present : id ∈ overrides.map Prod.fst) (absent : id ∉ added.map Prod.fst)
    (severity : Severity) :
    setOverride (setOverrides overrides added) id severity =
      setOverrides (setOverride overrides id severity) added := by
  induction added generalizing overrides with
  | nil => rfl
  | cons first rest ih =>
      obtain ⟨other, given⟩ := first
      rw [List.map_cons, List.mem_cons, not_or] at absent
      have kept : id ∈ (setOverride overrides other given).map Prod.fst := by
        rw [map_fst_setOverride]
        exact mem_insertNew.mpr (.inl present)
      rw [setOverrides_cons, setOverrides_cons, ih kept absent.2,
        setOverride_comm present (Ne.symm absent.1)]

theorem setOverrides_setOverride (overrides : List (String × Severity))
    {added : List (String × Severity)} (keyed : (added.map Prod.fst).Nodup) (id : String)
    (severity : Severity) :
    setOverrides overrides (setOverride added id severity) =
      setOverride (setOverrides overrides added) id severity := by
  induction added generalizing overrides with
  | nil => rfl
  | cons first rest ih =>
      obtain ⟨other, old⟩ := first
      obtain ⟨once, keyed⟩ := List.nodup_cons.mp keyed
      rw [setOverride]
      by_cases same : other = id
      · subst same
        have present : other ∈ (setOverride overrides other old).map Prod.fst := by
          rw [map_fst_setOverride]
          exact mem_insertNew.mpr (.inr rfl)
        rw [if_pos rfl, setOverrides_cons, setOverrides_cons,
          setOverride_setOverrides present once, setOverride_again]
      · rw [if_neg same, setOverrides_cons, setOverrides_cons, ih _ keyed]

theorem setOverrides_setOverrides (overrides : List (String × Severity))
    {added : List (String × Severity)} (keyed : (added.map Prod.fst).Nodup)
    (more : List (String × Severity)) :
    setOverrides overrides (setOverrides added more) =
      setOverrides (setOverrides overrides added) more := by
  induction more generalizing added with
  | nil => rfl
  | cons first rest ih =>
      obtain ⟨id, severity⟩ := first
      have stillKeyed : ((setOverride added id severity).map Prod.fst).Nodup := by
        rw [map_fst_setOverride]
        exact nodup_insertNew keyed id
      rw [setOverrides_cons, setOverrides_cons, ih stillKeyed, setOverrides_setOverride _ keyed]

/-! ## Policies one after the other -/

/-- No rule is overridden twice. -/
def Keyed (policy : Policy) : Prop :=
  (policy.overrides.map Prod.fst).Nodup

theorem keyed_neutral : neutral.Keyed :=
  List.nodup_nil

theorem Keyed.add {policy : Policy} (keyed : policy.Keyed) (later : Policy) :
    (policy.add later).Keyed := by
  change ((setOverrides policy.overrides later.overrides).map Prod.fst).Nodup
  rw [map_fst_setOverrides]
  exact nodup_union keyed _

theorem merge_append_singleton (policies : List Policy) (last : Policy) :
    merge (policies ++ [last]) = (merge policies).add last :=
  List.foldl_append

theorem keyed_merge (policies : List Policy) : (merge policies).Keyed := by
  induction policies using List.reverseRecOn with
  | nil => exact keyed_neutral
  | append_singleton policies last ih =>
      rw [merge_append_singleton]
      exact ih.add last

theorem keyed_readOverride {read : Section (List (String × Severity))}
    (keyed : (read.content.map Prod.fst).Nodup) (entry : String × Value) :
    ((readOverride read entry).content.map Prod.fst).Nodup := by
  unfold readOverride
  split
  · rw [map_fst_setOverride]
    exact nodup_insertNew keyed entry.1
  · exact keyed

/-- A policy that is read from a document overrides no rule twice either. -/
theorem keyed_of_ofMembers {members : Members} {policy : Policy}
    (read : ofMembers members = .ok policy) : policy.Keyed := by
  obtain ⟨_, _, read⟩ := bind_eq_ok_iff.mp read
  obtain ⟨_, _, read⟩ := bind_eq_ok_iff.mp read
  obtain ⟨_, _, read⟩ := bind_eq_ok_iff.mp read
  split at read
  next =>
    cases read
    change ((readOverrides members).content.map Prod.fst).Nodup
    unfold readOverrides
    split
    next entries given =>
      clear given
      induction entries using List.reverseRecOn with
      | nil => exact List.nodup_nil
      | append_singleton entries entry ih =>
          rw [List.foldl_append]
          exact keyed_readOverride ih entry
    next => exact List.nodup_nil
  next => cases read

theorem add_add (first : Policy) {second : Policy} (keyed : second.Keyed) (third : Policy) :
    first.add (second.add third) = (first.add second).add third := by
  have overrides := setOverrides_setOverrides first.overrides keyed third.overrides
  simp only [add, mk.injEq]
  exact ⟨union_union _ _ _, union_union _ _ _, overrides, union_union _ _ _⟩

/-- Adding a merge is adding the merged policies one by one. -/
theorem add_merge (policy : Policy) (policies : List Policy) :
    policy.add (merge policies) = policies.foldl add policy := by
  induction policies using List.reverseRecOn with
  | nil => rfl
  | append_singleton policies last ih =>
      rw [merge_append_singleton, add_add policy (keyed_merge policies), ih, List.foldl_append]
      rfl

theorem merge_splice (front inner back : List Policy) :
    merge (front ++ merge inner :: back) = merge (front ++ inner ++ back) := by
  simp only [merge, List.foldl_append, List.foldl_cons]
  exact congrArg (back.foldl add) (add_merge _ inner)

theorem foldl_add_map_merge (policy : Policy) (groups : List (List Policy)) :
    (groups.map merge).foldl add policy = groups.flatten.foldl add policy := by
  induction groups generalizing policy with
  | nil => rfl
  | cons group rest ih =>
      rw [List.map_cons, List.foldl_cons, ih, add_merge, List.flatten_cons, List.foldl_append]

/-! ## What a merged policy says -/

/-- A section of texts or exclusions that is merged by union has the first occurrence of each entry
of all policies. -/
theorem merge_union {α : Type} [DecidableEq α] {entries : Policy → List α}
    (empty : entries neutral = [])
    (added : ∀ policy later : Policy,
      entries (policy.add later) = union (entries policy) (entries later))
    (policies : List Policy) : entries (merge policies) = (policies.flatMap entries).eraseDups := by
  induction policies using List.reverseRecOn with
  | nil => exact empty
  | append_singleton policies last ih =>
      rw [merge_append_singleton, added, ih, List.flatMap_append, eraseDups_append,
        List.flatMap_singleton]

theorem excludedPaths_merge (policies : List Policy) :
    (merge policies).excludedPaths = (policies.flatMap excludedPaths).eraseDups :=
  merge_union rfl (fun _ _ => rfl) policies

theorem disabledRules_merge (policies : List Policy) :
    (merge policies).disabledRules = (policies.flatMap disabledRules).eraseDups :=
  merge_union rfl (fun _ _ => rfl) policies

theorem exclusions_merge (policies : List Policy) :
    (merge policies).exclusions = (policies.flatMap exclusions).eraseDups :=
  merge_union rfl (fun _ _ => rfl) policies

theorem lookup_merge {policies : List Policy} (keyed : ∀ policy ∈ policies, policy.Keyed)
    (id : String) :
    (merge policies).overrides.lookup id =
      (policies.filterMap fun policy => policy.overrides.lookup id).getLast? := by
  induction policies using List.reverseRecOn with
  | nil => rfl
  | append_singleton policies last ih =>
      have lastKeyed : last.Keyed :=
        keyed last (List.mem_append_right policies (List.mem_singleton_self last))
      have before := ih fun policy member => keyed policy (List.mem_append_left _ member)
      rw [merge_append_singleton]
      change (setOverrides (merge policies).overrides last.overrides).lookup id = _
      rw [lookup_setOverrides _ lastKeyed, before, List.filterMap_append, List.getLast?_append]
      cases given : last.overrides.lookup id <;> simp [given]

theorem mem_allExclusions {policy : Policy} {exclusion : Exclusion} :
    exclusion ∈ policy.allExclusions ↔
      (∃ pattern ∈ policy.excludedPaths, ⟨pattern, none⟩ = exclusion) ∨
        exclusion ∈ policy.exclusions := by
  rw [allExclusions, List.mem_append, List.mem_map]
  simp only [sorted, List.mem_mergeSort]

theorem mem_allExclusions_merge {policies : List Policy} {exclusion : Exclusion} :
    exclusion ∈ (merge policies).allExclusions ↔
      ∃ policy ∈ policies, exclusion ∈ policy.allExclusions := by
  simp only [mem_allExclusions, excludedPaths_merge, exclusions_merge, List.mem_eraseDups,
    List.mem_flatMap]
  constructor
  · rintro (⟨pattern, ⟨policy, member, listed⟩, rfl⟩ | ⟨policy, member, listed⟩)
    · exact ⟨policy, member, .inl ⟨pattern, listed, rfl⟩⟩
    · exact ⟨policy, member, .inr listed⟩
  · rintro ⟨policy, member, ⟨pattern, listed, rfl⟩ | listed⟩
    · exact .inl ⟨pattern, ⟨policy, member, listed⟩, rfl⟩
    · exact .inr ⟨policy, member, listed⟩

end Policy

/-- Exclusions silence a finding in the file of a path. -/
def Finding.ExcludedBy (finding : Finding) (path : Value) (exclusions : List Exclusion) : Prop :=
  Waiver.anyCovers finding path (exclusions.map .exclusion) = .ok true

theorem Finding.excludedBy_iff {finding : Finding} {path : Value} {exclusions : List Exclusion} :
    finding.ExcludedBy path exclusions ↔
      ∃ exclusion ∈ exclusions, exclusion.covers finding path = .ok true := by
  by_cases isText : path.IsText
  · obtain ⟨text, rfl⟩ := isText
    have covers_iff (exclusion : Exclusion) :
        exclusion.covers finding (.text text) = .ok true ↔
          (Waiver.exclusion exclusion).Covers text finding.key := by
      have answer := Waiver.covers_text finding text (.exclusion exclusion)
      rw [Waiver.covers] at answer
      rw [answer, Except.ok.injEq, decide_eq_true_iff]
    rw [ExcludedBy, Waiver.anyCovers_text]
    simp [covers_iff]
  · -- Over any other path an exclusion fails or does not look, so none covers the finding.
    have uncovered (exclusion : Exclusion) : exclusion.covers finding path ≠ .ok true := by
      rw [exclusion.covers_of_not_isText isText]
      split <;> simp
    rw [ExcludedBy, Waiver.anyCovers_exclusions isText]
    refine iff_of_false ?_ ?_
    · split <;> simp
    · rintro ⟨exclusion, _, covers⟩
      exact uncovered exclusion covers

namespace Policy

/-- What the merge of policies has to say. -/
structure Unites (policies : List Policy) (merged : Policy) : Prop where
  keyed : merged.Keyed
  disabledRules : ∀ id,
    id ∈ merged.disabledRules ↔ ∃ policy ∈ policies, id ∈ policy.disabledRules
  excludedPaths : ∀ pattern,
    pattern ∈ merged.excludedPaths ↔ ∃ policy ∈ policies, pattern ∈ policy.excludedPaths
  /-- The last policy that overrides a rule decides. -/
  severityFor : ∀ id own, merged.severityFor id own =
    (policies.filterMap fun policy => policy.overrides.lookup id).getLast?.getD own
  /-- Of each exclusion the first occurrence is left. -/
  exclusions : merged.exclusions = (policies.flatMap (·.exclusions)).eraseDups
  excludes : ∀ (finding : Finding) (path : Value),
    finding.ExcludedBy path merged.allExclusions ↔
      ∃ policy ∈ policies, finding.ExcludedBy path policy.allExclusions

/-- Policies may be merged in groups, or one merge put in place of the policies it was made of, and
a merged policy says what its policies say together. A policy from a document is keyed. -/
theorem merge_flattens :
    (∀ groups : List (List Policy), merge (groups.map merge) = merge groups.flatten) ∧
      (∀ front inner back : List Policy,
        merge (front ++ merge inner :: back) = merge (front ++ inner ++ back)) ∧
      (∀ policies : List Policy, (∀ policy ∈ policies, policy.Keyed) →
        Unites policies (merge policies)) ∧
      ∀ members policy, ofMembers members = .ok policy → policy.Keyed := by
  refine ⟨foldl_add_map_merge neutral, merge_splice, fun policies keyed => ?_,
    fun _ _ => keyed_of_ofMembers⟩
  refine {
    keyed := keyed_merge policies, disabledRules := ?disabledRules,
    excludedPaths := ?excludedPaths, severityFor := ?severityFor, exclusions := ?exclusions,
    excludes := ?excludes }
  case disabledRules =>
      intro id
      rw [disabledRules_merge, List.mem_eraseDups, List.mem_flatMap]
  case excludedPaths =>
      intro pattern
      rw [excludedPaths_merge, List.mem_eraseDups, List.mem_flatMap]
  case severityFor =>
      intro id own
      rw [severityFor, lookup_merge keyed]
  case exclusions => rw [exclusions_merge]
  case excludes =>
      intro finding path
      simp only [Finding.excludedBy_iff, mem_allExclusions_merge]
      constructor
      · rintro ⟨exclusion, ⟨policy, member, listed⟩, covers⟩
        exact ⟨policy, member, exclusion, listed, covers⟩
      · rintro ⟨policy, member, exclusion, listed, covers⟩
        exact ⟨exclusion, ⟨policy, member, listed⟩, covers⟩

/-- Overrides one rule and names one exclusion twice. -/
def strict : Policy :=
  ⟨["vendor/*"], [], [("naming.getter-prefix", .error)], [⟨"a.go", none⟩, ⟨"a.go", none⟩]⟩

/-- Overrides the same rule and repeats the exclusion. -/
def relaxed : Policy :=
  ⟨[], ["imports.duplicate"], [("naming.getter-prefix", .info)], [⟨"b.go", none⟩, ⟨"a.go", none⟩]⟩

theorem merge_flattens_strict :
    (∀ policy ∈ [strict, relaxed], policy.Keyed) ∧
      Unites [strict, relaxed] (merge [strict, relaxed]) ∧
      (merge [strict, relaxed]).severityFor "naming.getter-prefix" .warning = .info ∧
      (merge [strict, relaxed]).exclusions = [⟨"a.go", none⟩, ⟨"b.go", none⟩] := by
  have keyed : ∀ policy ∈ [strict, relaxed], policy.Keyed := by
    intro policy member
    rcases List.mem_pair.mp member with rfl | rfl
    · exact List.nodup_singleton _
    · exact List.nodup_singleton _
  have unites := merge_flattens.2.2.1 [strict, relaxed] keyed
  exact ⟨keyed, unites, unites.severityFor _ _, unites.exclusions.trans (by decide)⟩

end Policy

end TreeLint
