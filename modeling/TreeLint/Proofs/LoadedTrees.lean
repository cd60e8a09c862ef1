import TreeLint.Command.Program
import TreeLint.Proofs.DocumentErrors
import TreeLint.Proofs.StandardRules

/-!
# What becomes of trees that are read from files

A tree keeps the path that its document gives, be it a text or not. Only exclusions look at the
path, each for the findings of the rules that it is for. A run with the standard rules over the tree
therefore ends with a report, unless an exclusion comes to look at a path that is no text. This
holds however the texts of files are read as documents.
-/

set_option autoImplicit false

namespace TreeLint

def Value.IsText (value : Value) : Prop :=
  ∃ text, value = .text text

theorem Value.not_isText_of_typeName {value : Value} {name : String}
    (named : value.typeName = name) (other : name ≠ "str") : ¬ value.IsText := by
  rintro ⟨text, rfl⟩
  exact other named.symm

/-! ## Waivers that look at the path -/

theorem Exclusion.covers_of_not_isText (exclusion : Exclusion) {finding : Finding} {path : Value}
    (notText : ¬ path.IsText) :
    exclusion.covers finding path =
      if exclusion.ruleId.all (· == finding.ruleId) then .error ⟨path.typeName⟩
      else .ok false := by
  unfold Exclusion.covers
  cases path with
  | text text => exact absurd ⟨text, rfl⟩ notText
  | _ => rfl

theorem Waiver.anyCovers_exclusions {finding : Finding} {path : Value} (notText : ¬ path.IsText)
    (exclusions : List Exclusion) :
    anyCovers finding path (exclusions.map .exclusion) =
      if exclusions.any (·.ruleId.all (· == finding.ruleId)) then .error ⟨path.typeName⟩
      else .ok false := by
  induction exclusions with
  | nil => rfl
  | cons exclusion rest ih =>
      rw [List.map_cons, anyCovers, ih, List.any_cons, covers,
        Exclusion.covers_of_not_isText exclusion notText]
      cases exclusion.ruleId.all (· == finding.ruleId) <;> rfl

/-- No directive covers a finding, and some exclusion is for its rule. -/
def WaiverSheet.ConsultsPath (sheet : WaiverSheet) (finding : Finding) : Prop :=
  (∀ waiver ∈ sheet.inline, waiver.covers finding = false) ∧
    ∃ exclusion ∈ sheet.exclusions,
      exclusion.ruleId = none ∨ exclusion.ruleId = some finding.ruleId

theorem WaiverSheet.stuckOn_iff {sheet : WaiverSheet} {finding : Finding} :
    sheet.stuckOn finding = true ↔ ¬ sheet.path.IsText ∧ sheet.ConsultsPath finding := by
  by_cases isText : sheet.path.IsText
  · obtain ⟨path, named⟩ := isText
    simp [stuckOn_text named, named, Value.IsText]
  · have concerned (exclusion : Exclusion) :
        exclusion.ruleId.all (· == finding.ruleId) = true ↔
          exclusion.ruleId = none ∨ exclusion.ruleId = some finding.ruleId := by
      cases exclusion.ruleId <;> simp
    rw [stuckOn, covers, waivers, Waiver.anyCovers_inline_append,
      Waiver.anyCovers_exclusions isText, and_iff_right isText, ConsultsPath]
    by_cases covered : sheet.inline.any (·.covers finding) = true
    · rw [if_pos covered]
      obtain ⟨waiver, member, own⟩ := List.any_eq_true.mp covered
      refine iff_of_false Bool.false_ne_true fun consults => ?_
      rw [consults.1 waiver member] at own
      cases own
    · have uncovered : ∀ waiver ∈ sheet.inline, waiver.covers finding = false := by
        simpa using covered
      rw [if_neg covered, and_iff_right uncovered]
      by_cases asked : sheet.exclusions.any (·.ruleId.all (· == finding.ruleId)) = true
      · rw [if_pos asked]
        simpa [concerned] using asked
      · rw [if_neg asked]
        simpa [concerned] using asked

/-- Before a signal stops it, a run meets a finding for which an exclusion looks at the path. -/
def Engine.ConsultsPath (engine : Engine) (tree : Tree) (signal : Signal) : Prop :=
  ∃ cursor ∈ tree.upTo signal, ∃ outcome, engine.dispatch tree cursor = .ok outcome ∧
    ∃ finding ∈ outcome.findings, (engine.sheet tree).ConsultsPath finding

namespace Run

variable {engine : Engine} {tree : Tree} {signal : Signal}
  (whole : ¬ engine.Breaks tree (tree.upTo signal))

include whole

theorem any_stuckOn_iff :
    (engine.outcome tree (tree.upTo signal)).findings.any (engine.sheet tree).stuckOn = true ↔
      ¬ tree.path.IsText ∧ engine.ConsultsPath tree signal := by
  have dispatched := @Engine.dispatch_of_not_breaks engine tree _ whole
  simp only [Engine.any_findings_outcome, List.any_eq_true, WaiverSheet.stuckOn_iff,
    Engine.sheet_path, Engine.ConsultsPath]
  constructor
  · rintro ⟨cursor, visited, finding, found, notText, consults⟩
    exact ⟨notText, cursor, visited, _, dispatched visited, finding, found, consults⟩
  · rintro ⟨notText, cursor, visited, outcome, answer, finding, found, consults⟩
    rw [dispatched visited] at answer
    cases answer
    exact ⟨cursor, visited, finding, found, notText, consults⟩

theorem execute_eq_error (notText : ¬ tree.path.IsText)
    (consults : engine.ConsultsPath tree signal) :
    ((start engine tree).execute signal).result = .error (.path ⟨tree.path.typeName⟩) := by
  rw [execute_unbroken whole, if_pos ((any_stuckOn_iff whole).mpr ⟨notText, consults⟩)]

theorem execute_eq_ok (free : tree.path.IsText ∨ ¬ engine.ConsultsPath tree signal) :
    ∃ report, ((start engine tree).execute signal).result = .ok report := by
  have unstuck : ¬ (¬ tree.path.IsText ∧ engine.ConsultsPath tree signal) := by
    tauto
  rw [execute_unbroken whole, if_neg ((any_stuckOn_iff whole).not.mpr unstuck)]
  exact ⟨_, rfl⟩

end Run

/-! ## Paths of trees from files -/

namespace Tree

/-- A falsy path is replaced by a text; any other is kept. -/
theorem choosePath_isText_iff {given path : Value} {members : Members}
    (chosen : choosePath given members = .ok path) :
    path.IsText ↔ given.isFalsy = true ∨ given.IsText := by
  unfold choosePath at chosen
  split at chosen
  next falsy =>
    simp only at chosen
    split at chosen
    next =>
      cases chosen
      exact iff_of_true ⟨_, rfl⟩ (.inl falsy)
    next => cases chosen
  next truthy =>
    cases chosen
    rw [or_iff_right truthy]

theorem ofDocument_path {given : Value} {members : Members} {tree : Tree}
    (read : ofDocument given (.object members) = .ok tree) :
    choosePath given members = .ok tree.path := by
  obtain ⟨path, chosen, rest⟩ := bind_eq_ok_iff.mp read
  obtain ⟨root, _, made⟩ := bind_eq_ok_iff.mp rest
  cases made
  exact chosen

end Tree

namespace Program

variable {files : Files} {file : String} {source : Option String} {tree : Tree}

/-- The document of a file gives a path that is neither falsy nor a text, and no path of the source
is given in its place. -/
def Misnamed (files : Files) (file : String) (source : Option String) : Prop :=
  (source = none ∨ source = some "") ∧
    ∃ members value, files.document (.ofText file) = .ok (.object members) ∧
      Members.get? members "path" = some value ∧ value.isFalsy = false ∧ ¬ value.IsText

theorem readTree_eq_ok (loaded : readTree files file source = .ok tree) :
    ∃ members, files.document (.ofText file) = .ok (.object members) ∧
      Tree.choosePath (treePath source members (.ofText file)) members = .ok tree.path := by
  unfold readTree at loaded
  simp only at loaded
  split at loaded
  next => cases loaded
  next => cases loaded
  next => cases loaded
  next members document =>
    refine ⟨members, document, Tree.ofDocument_path ?_⟩
    revert loaded
    cases Tree.ofDocument (treePath source members (.ofText file)) (.object members) with
    | error error => exact nofun
    | ok read => exact fun loaded => congrArg Except.ok (Except.ok.inj loaded)
  next => cases loaded

theorem treePath_isText_iff {members : Members} {path : PathName} :
    (treePath source members path).isFalsy = true ∨ (treePath source members path).IsText ↔
      ¬ ((source = none ∨ source = some "") ∧
        ∃ value, members.get? "path" = some value ∧ value.isFalsy = false ∧ ¬ value.IsText) := by
  have own : (Value.orElse (members.get? "path") (.text path.text)).isFalsy = true ∨
        (Value.orElse (members.get? "path") (.text path.text)).IsText ↔
      ¬ ∃ value, members.get? "path" = some value ∧ value.isFalsy = false ∧ ¬ value.IsText := by
    have fallback : (Value.text path.text).IsText := ⟨_, rfl⟩
    cases members.get? "path" with
    | none => simp [Value.orElse, fallback]
    | some value =>
        cases falsy : value.isFalsy <;> simp [Value.orElse, falsy, fallback]
  unfold treePath
  cases source with
  | none => simpa [Value.orElse] using own
  | some text =>
      have given : (Value.text text).IsText := ⟨_, rfl⟩
      by_cases empty : text = ""
      · simpa [Value.orElse, Value.isFalsy, empty] using own
      · simp [Value.orElse, Value.isFalsy, empty, given]

theorem path_isText_iff (loaded : readTree files file source = .ok tree) :
    tree.path.IsText ↔ ¬ Misnamed files file source := by
  obtain ⟨members, document, chosen⟩ := readTree_eq_ok loaded
  rw [Tree.choosePath_isText_iff chosen, treePath_isText_iff, Misnamed, document]
  simp

/-! ## The end of the program -/

/-- How the program ends, provided that what it saves can be saved. -/
def Course.ending : Course → Ending
  | .ended result => result.ending
  | .saving _ _ result => (result (.ok ())).ending

theorem deliver_ending (options : Options) (report : Report) (stderr : String) :
    (deliver options report stderr).ending = .exit report.exitCode := by
  unfold deliver
  dsimp only
  split <;> rfl

theorem setUp_eq_ok_iff {options : Options} {engine : Engine} :
    (setUp options files).1 = .ok engine ↔
      ∃ policy workers, choosePolicy files options.configs = .ok policy ∧
        options.workers = some workers ∧
        (Engine.create .standard policy workers).1 = .ok engine := by
  unfold setUp
  cases choosePolicy files options.configs with
  | error ending => simp
  | ok policy =>
      cases options.workers with
      | none => simp
      | some workers =>
          cases created : (Engine.create .standard policy workers).1 <;>
            simp [created, Except.mapError]

theorem analyse_ending {options : Options} {engine : Engine}
    (loaded : readTree files file options.sourcePath = .ok tree)
    (ready : (setUp options files).1 = .ok engine) (journal : Journal) :
    (analyse options files file journal).ending =
      match ((Run.start engine tree).execute .never).result with
      | .ok report => .exit report.exitCode
      | .error error => .crash (.run error) := by
  rw [analyse, loaded]
  cases prepared : setUp options files with
  | mk result notes =>
      rw [prepared] at ready
      cases ready
      dsimp only
      cases ((Run.start engine tree).execute .never).result with
      | error error => rfl
      | ok report => exact deliver_ending options report _

/-- The command line asks for the analysis of the tree of a file. -/
structure Requests (arguments : List String) (options : Options) (file : String) : Prop where
  parsed : Options.parse arguments = .ok options
  noHelp : options.help = false
  noListing : options.listRules = false
  named : options.tree.filter (!·.isEmpty) = some file

theorem Requests.run_eq {arguments : List String} {options : Options}
    (requests : Requests arguments options file) :
    run arguments files =
      analyse options files file (Catalogue.standardRules.map Catalogue.registrationNote) := by
  rw [run, requests.parsed]
  simp [requests.noHelp, requests.noListing, requests.named]

/-- A run with the standard rules over a tree that was read from a file ends with a report, and the
program with its status, except over a misnamed tree when an exclusion comes to look at the path. -/
theorem readTree_execute (loaded : readTree files file source = .ok tree) {policy : Policy}
    {workers : Int} {engine : Engine}
    (created : (Engine.create .standard policy workers).1 = .ok engine) :
    (∀ signal, ¬ (Misnamed files file source ∧ engine.ConsultsPath tree signal) →
      ∃ report, ((Run.start engine tree).execute signal).result = .ok report) ∧
    (∀ signal, Misnamed files file source ∧ engine.ConsultsPath tree signal →
      ((Run.start engine tree).execute signal).result = .error (.path ⟨tree.path.typeName⟩)) ∧
    ∀ arguments options, Requests arguments options file → options.sourcePath = source →
      (setUp options files).1 = .ok engine →
      (run arguments files).ending =
        match ((Run.start engine tree).execute .never).result with
        | .ok report => .exit report.exitCode
        | .error error => .crash (.run error) := by
  have named := path_isText_iff loaded
  have whole := Engine.not_breaks_of_standard (Engine.create_fields created).1 tree
  refine ⟨fun signal free => ?_, fun signal stuck => ?_,
    fun arguments options requests given ready => ?_⟩
  · refine Run.execute_eq_ok (whole signal) ?_
    rw [named]
    tauto
  · exact Run.execute_eq_error (whole signal) (named.not.mpr (not_not_intro stuck.1)) stuck.2
  · subst given
    rw [requests.run_eq, analyse_ending loaded ready]

/-- The files of a directory with one tree, whose path is a number, and with a policy that excludes
all files of a kind. The tree is a literal that is an error text with a full stop. -/
def numbered : Files :=
  .ofEntries load [(.ofText "tree.json", .ok (.file tree.toUTF8.toList)),
    (.ofText customaryPolicy, .ok (.file policy.toUTF8.toList))]
where
  tree : String :=
    "\x7b\"path\":5,\"kind\":\"Literal\",\"span\":\x7b\"start\":[1,0,0],\"end\":[1,9,9]\x7d," ++
      "\"attributes\":\x7b\"errorString\":true,\"value\":\"no.\"\x7d\x7d"
  policy : String := "\x7b\"excluded_paths\":[\"*.md\"]\x7d"
  position (offset : Int) : Value :=
    .list [.integer 1, .integer offset, .integer offset]
  load (text : String) : Except LoadError Value :=
    if text = tree then
      .ok (.object [("path", .integer 5), ("kind", .text "Literal"),
        ("span", .object [("start", position 0), ("end", position 9)]),
        ("attributes", .object [("errorString", .bool true), ("value", .text "no.")])])
    else if text = policy then .ok (.object [("excluded_paths", .list [.text "*.md"])])
    else .error .malformed

/-- An engine with the policy of that directory. -/
def watchful : Engine :=
  ⟨.standard, ⟨["*.md"], [], [], []⟩, 1⟩

private theorem eq_ok_of_toOption {ε α : Type} {result : Except ε α} {value : α}
    (found : result.toOption = some value) : result = .ok value := by
  cases result with
  | error => cases found
  | ok own => exact congrArg Except.ok (Option.some.inj found)

theorem readTree_numbered :
    ∃ tree, readTree numbered "tree.json" none = .ok tree ∧ tree.path.typeName = "int" ∧
      tree.root.kind = .literal ∧ tree.root.children = [] ∧
      (watchful.bring tree tree.cursor ErrorText.rule).findings ≠ [] := by
  -- The tree is evaluated as far as its walk is not needed.
  have evaluated : (readTree numbered "tree.json" none).toOption.any (fun tree =>
      tree.path.typeName == "int" && tree.root.kind == .literal && tree.root.children.isEmpty &&
        !(watchful.bring tree tree.cursor ErrorText.rule).findings.isEmpty) = true := by
    decide +kernel
  generalize readTree numbered "tree.json" none = result at evaluated ⊢
  cases result with
  | error ending => cases evaluated
  | ok tree =>
      refine ⟨tree, rfl, ?_⟩
      simpa [Except.toOption, and_assoc] using evaluated

theorem consultsPath_watchful {tree : Tree} (kind : tree.root.kind = .literal)
    (leaf : tree.root.children = [])
    (found : (watchful.bring tree tree.cursor ErrorText.rule).findings ≠ []) :
    watchful.ConsultsPath tree .never := by
  have walk : tree.walk = [tree.cursor] := by
    simp [Tree.walk, Tree.walkFrom, Cursor.children, Tree.cursor, leaf]
  have upTo : tree.upTo .never = [tree.cursor] := by
    simp [Tree.upTo, walk, Run.admitted, Signal.never]
  have noComment : (watchful.sheet tree).inline = [] := by
    simp [Engine.sheet, WaiverSheet.ofTree, WaiverSheet.inlineWaivers, Tree.nodesOfKind, walk,
      Tree.cursor, kind, WaiverSheet.collect]
  have excluded : (⟨"*.md", none⟩ : Exclusion) ∈ (watchful.sheet tree).exclusions := by
    simp [Engine.sheet, WaiverSheet.ofTree, watchful, Policy.allExclusions, sorted]
  have asked : ErrorText.rule ∈ watchful.rulesAt tree.cursor := by
    rw [Engine.rulesAt, Tree.cursor, kind]
    exact List.mem_cons_self
  obtain ⟨finding, member⟩ := List.exists_mem_of_ne_nil _ found
  have visited : tree.cursor ∈ tree.upTo .never := by simp [upTo]
  refine ⟨tree.cursor, visited, _, Engine.dispatch_of_not_breaks
    (Engine.not_breaks_of_standard rfl tree .never) visited, finding, ?_, by simp [noComment], _,
    excluded, .inl rfl⟩
  rw [Engine.brought, Outcome.findings_concat]
  exact List.mem_flatMap.mpr ⟨_, List.mem_map_of_mem asked, member⟩

theorem readTree_execute_numbered :
    ∃ tree, readTree numbered "tree.json" none = .ok tree ∧ Misnamed numbered "tree.json" none ∧
      (Engine.create .standard .neutral 1).1 = .ok ⟨.standard, .neutral, 1⟩ ∧
      ∃ report, ((Run.start ⟨.standard, .neutral, 1⟩ tree).execute .never).result = .ok report ∧
        (run ["--tree", "tree.json", "--config", "none.yaml"] numbered).ending =
          .exit report.exitCode := by
  obtain ⟨tree, loaded, path, _⟩ := readTree_numbered
  have misnamed : Misnamed numbered "tree.json" none :=
    not_not.mp ((path_isText_iff loaded).not.mp (Value.not_isText_of_typeName path (by decide)))
  have requests : Requests ["--tree", "tree.json", "--config", "none.yaml"]
      { Options.initial with tree := some "tree.json", configs := [some "none.yaml"] }
      "tree.json" := ⟨eq_ok_of_toOption (by decide +kernel), rfl, rfl, rfl⟩
  obtain ⟨reports, _, ends⟩ := readTree_execute loaded Engine.create_standard
  have unconsulted : ¬ Engine.ConsultsPath ⟨.standard, .neutral, 1⟩ tree .never := by
    rintro ⟨_, _, _, _, _, _, _, _, listed, _⟩
    simp [Engine.sheet, WaiverSheet.ofTree, Policy.allExclusions, Policy.neutral, sorted] at listed
  obtain ⟨report, reported⟩ := reports .never fun stuck => unconsulted stuck.2
  have ending := ends _ _ requests rfl (setUp_eq_ok_iff.mpr
    ⟨.neutral, 1, rfl, rfl, Engine.create_standard⟩)
  rw [reported] at ending
  exact ⟨tree, loaded, misnamed, Engine.create_standard, report, reported, ending⟩

/-- Under a policy that excludes any files at all, the same tree makes the run and the program
fail. -/
theorem numbered_crashes :
    ∃ tree engine, readTree numbered "tree.json" none = .ok tree ∧
      (Engine.create .standard ⟨["*.md"], [], [], []⟩ 1).1 = .ok engine ∧
      ((Run.start engine tree).execute .never).result = .error (.path ⟨"int"⟩) ∧
      (run ["--tree", "tree.json"] numbered).ending = .crash (.run (.path ⟨"int"⟩)) := by
  obtain ⟨tree, loaded, path, kind, leaf, found⟩ := readTree_numbered
  have notText := Value.not_isText_of_typeName path (by decide)
  have failed := Run.execute_eq_error (Engine.not_breaks_of_standard rfl tree .never) notText
    (consultsPath_watchful kind leaf found)
  rw [path] at failed
  have created : (Engine.create .standard watchful.policy 1).1 = .ok watchful :=
    Engine.create_eq_ok_iff.mpr
      ⟨by decide, by decide +kernel, ⟨GetterName.rule, List.mem_cons_self, rfl⟩, rfl⟩
  have chosen : choosePolicy numbered [] = .ok watchful.policy :=
    eq_ok_of_toOption (by decide +kernel)
  have requests : Requests ["--tree", "tree.json"]
      { Options.initial with tree := some "tree.json" } "tree.json" :=
    ⟨eq_ok_of_toOption (by decide +kernel), rfl, rfl, rfl⟩
  have ready : (setUp { Options.initial with tree := some "tree.json" } numbered).1 =
      .ok watchful := setUp_eq_ok_iff.mpr ⟨watchful.policy, 1, chosen, rfl, created⟩
  refine ⟨tree, watchful, loaded, created, failed, ?_⟩
  rw [requests.run_eq, analyse_ending loaded ready, failed]

end Program

end TreeLint
