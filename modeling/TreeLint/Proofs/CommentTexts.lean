import Mathlib.Data.List.Forall2
import TreeLint.Proofs.MoreExclusions
import TreeLint.Proofs.StandardRules

/-!
# What the texts of comments change

No standard rule reads the text of a comment; only directives are taken from it. Trees that differ
in such texts give rise to the same findings and faults, and what differs is which of the findings
are waived by directives.
-/

set_option autoImplicit false

namespace TreeLint

/-! ## Trees that differ in the texts of comments -/

/-- The nodes are the same from here down, but for the attribute `text` of comments. -/
inductive Node.SameButTexts : Node → Node → Prop where
  | intro {node other : Node} :
      node.kind = other.kind → node.span = other.span →
      (∀ name, ¬ (node.kind = .comment ∧ name = "text") →
        node.attribute? name = other.attribute? name) →
      List.Forall₂ SameButTexts node.children other.children → SameButTexts node other

namespace Node.SameButTexts

variable {node other : Node}

theorem kind (same : node.SameButTexts other) : node.kind = other.kind := by
  cases same
  assumption

theorem span (same : node.SameButTexts other) : node.span = other.span := by
  cases same
  assumption

theorem attribute? (same : node.SameButTexts other) (code : node.kind ≠ .comment) :
    node.attribute? = other.attribute? := by
  cases same with
  | intro _ _ attributes _ =>
      funext name
      exact attributes name fun comment => code comment.1

theorem children (same : node.SameButTexts other) :
    List.Forall₂ SameButTexts node.children other.children := by
  cases same
  assumption

theorem name (same : node.SameButTexts other) (code : node.kind ≠ .comment) :
    node.name = other.name := by
  rw [Node.name, Node.name, same.attribute? code]

theorem finding (same : node.SameButTexts other) (info : RuleInfo) :
    info.finding node = info.finding other := by
  funext message
  rw [RuleInfo.finding, RuleInfo.finding, same.span]

end Node.SameButTexts

/-- The nodes stand at the same place and are the same but for the texts of comments. -/
structure Cursor.SameButTexts (cursor other : Cursor) : Prop where
  address : cursor.address = other.address
  node : cursor.node.SameButTexts other.node

structure Tree.SameButTexts (tree other : Tree) : Prop where
  path : tree.path = other.path
  root : tree.root.SameButTexts other.root

theorem Cursor.SameButTexts.children {cursor other : Cursor} (same : cursor.SameButTexts other) :
    List.Forall₂ SameButTexts cursor.children other.children := by
  obtain ⟨sameLength, sameNodes⟩ := List.forall₂_iff_get.mp same.node.children
  refine List.forall₂_iff_get.mpr ⟨by simpa [Cursor.children] using sameLength, ?_⟩
  intro index bound otherBound
  simp only [Cursor.children, List.get_eq_getElem, List.getElem_mapIdx]
  exact ⟨congrArg (index :: ·) same.address, sameNodes index _ _⟩

theorem Tree.walkFrom_sameButTexts {stack others : List Cursor}
    (same : List.Forall₂ Cursor.SameButTexts stack others) :
    List.Forall₂ Cursor.SameButTexts (walkFrom stack) (walkFrom others) := by
  induction stack using walkFrom.induct generalizing others with
  | case1 =>
      cases same
      rw [walkFrom]
      exact .nil
  | case2 cursor stack ih =>
      cases same with
      | cons top rest =>
          rw [walkFrom, walkFrom]
          exact .cons top (ih (List.rel_append top.children rest))

namespace Tree.SameButTexts

variable {tree other : Tree}

theorem walk (same : tree.SameButTexts other) :
    List.Forall₂ Cursor.SameButTexts tree.walk other.walk :=
  walkFrom_sameButTexts (.cons ⟨rfl, same.root⟩ .nil)

theorem size (same : tree.SameButTexts other) : tree.size = other.size :=
  same.walk.length_eq

theorem nodesOfKind (same : tree.SameButTexts other) (kind : Kind) :
    List.Forall₂ Cursor.SameButTexts (tree.nodesOfKind kind) (other.nodesOfKind kind) := by
  refine List.rel_filter (fun cursor otherCursor sameCursor => ?_) same.walk
  dsimp only
  rw [sameCursor.node.kind]

end Tree.SameButTexts

/-! ## Rules that do not read the texts of comments -/

/-- Wherever the rule is asked, it says the same of trees that differ in the texts of comments. -/
def Rule.IgnoresTexts (rule : Rule) : Prop :=
  ∀ {tree other : Tree} {cursor otherCursor : Cursor},
    tree.SameButTexts other → cursor.SameButTexts otherCursor →
    (rule.scope = .node → rule.isFor cursor.node.kind = true) →
    rule.applies cursor = rule.applies otherCursor ∧
      rule.evaluate cursor tree = rule.evaluate otherCursor other

/-- A rule that is not asked about comments may read all attributes of its node, its name and its
span. -/
theorem Rule.ignoresTexts_of_not_isFor {rule : Rule} (ofNodes : rule.scope = .node)
    (ofCode : rule.isFor .comment = false)
    (reads : ∀ {tree other : Tree} {cursor otherCursor : Cursor},
      cursor.node.attribute? = otherCursor.node.attribute? →
      cursor.node.name = otherCursor.node.name →
      (∀ info : RuleInfo, info.finding cursor.node = info.finding otherCursor.node) →
      rule.applies cursor = rule.applies otherCursor ∧
        rule.evaluate cursor tree = rule.evaluate otherCursor other) : rule.IgnoresTexts := by
  intro tree other cursor otherCursor _ same asked
  have code : cursor.node.kind ≠ .comment := by
    intro comment
    have concerned := asked ofNodes
    rw [comment, ofCode] at concerned
    cases concerned
  exact reads (same.node.attribute? code) (same.node.name code) same.node.finding

theorem GetterName.ignoresTexts : rule.IgnoresTexts := by
  apply Rule.ignoresTexts_of_not_isFor rfl rfl
  intro tree other cursor otherCursor attributes name finding
  have function : isFunction cursor.node = isFunction otherCursor.node := by
    rw [isFunction, isFunction, attributes]
  have exported : isExported cursor.node = isExported otherCursor.node := by
    rw [isExported, isExported, attributes]
  have parameters : hasParameters cursor.node = hasParameters otherCursor.node := by
    rw [hasParameters, hasParameters, attributes]
  simp only [rule, function, exported, parameters, name, finding, and_self]

theorem Initialism.ignoresTexts : rule.IgnoresTexts := by
  apply Rule.ignoresTexts_of_not_isFor rfl rfl
  intro tree other cursor otherCursor attributes name finding
  simp only [rule, name, finding, and_self]

theorem ReceiverName.ignoresTexts : rule.IgnoresTexts := by
  apply Rule.ignoresTexts_of_not_isFor rfl rfl
  intro tree other cursor otherCursor attributes name finding
  simp only [rule, isMethod, attributes, finding, and_self]

theorem ErrorText.ignoresTexts : rule.IgnoresTexts := by
  apply Rule.ignoresTexts_of_not_isFor rfl rfl
  intro tree other cursor otherCursor attributes name finding
  simp only [rule, isErrorText, findings, attributes, finding, and_self]

/-- Of imports only the path and the span are read. -/
theorem RepeatedImport.map_repeats_congr {cursors others : List Cursor}
    (same : List.Forall₂ Cursor.SameButTexts cursors others)
    (imports : ∀ cursor ∈ cursors, cursor.node.kind = .importing) (seen : List String) :
    (repeats seen cursors).map (fun (cursor, path) => info.finding cursor.node (message path)) =
      (repeats seen others).map fun (cursor, path) => info.finding cursor.node (message path) := by
  induction same generalizing seen with
  | nil => rfl
  | @cons cursor other cursors others sameCursor _ ih =>
      have code : cursor.node.kind ≠ .comment := by
        rw [imports cursor List.mem_cons_self]
        decide
      have later := ih fun later member => imports later (List.mem_cons_of_mem cursor member)
      have importPath : importPath? cursor.node = importPath? other.node := by
        rw [importPath?, importPath?, sameCursor.node.attribute? code]
      rw [repeats, repeats, importPath]
      cases importPath? other.node with
      | none => exact later seen
      | some path =>
          dsimp only
          by_cases repeated : seen.contains path = true
          · rw [if_pos repeated, if_pos repeated, List.map_cons, List.map_cons, later seen,
              sameCursor.node.finding info]
          · rw [if_neg repeated, if_neg repeated]
            exact later (path :: seen)

theorem RepeatedImport.ignoresTexts : rule.IgnoresTexts := by
  intro tree other cursor otherCursor sameTree _ _
  have imports : ∀ cursor ∈ tree.nodesOfKind .importing, cursor.node.kind = .importing := by
    intro cursor member
    simpa using (List.mem_filter.mp member).2
  exact ⟨rfl, congrArg Except.ok (map_repeats_congr (sameTree.nodesOfKind .importing) imports [])⟩

theorem Catalogue.ignoresTexts_standardRules : ∀ rule ∈ standardRules, rule.IgnoresTexts := by
  intro rule member
  rcases mem_standardRules_iff.mp member with rfl | rfl | rfl | rfl | rfl
  · exact GetterName.ignoresTexts
  · exact Initialism.ignoresTexts
  · exact ReceiverName.ignoresTexts
  · exact ErrorText.ignoresTexts
  · exact RepeatedImport.ignoresTexts

/-! ## What the rules find -/

namespace Engine

variable {engine : Engine} {tree other : Tree}

theorem invoke_sameButTexts (sameTree : tree.SameButTexts other) {cursor otherCursor : Cursor}
    (same : cursor.SameButTexts otherCursor) {rule : Rule} (ignores : rule.IgnoresTexts)
    (asked : rule.scope = .node → rule.isFor cursor.node.kind = true) :
    engine.invoke tree cursor rule = engine.invoke other otherCursor rule := by
  obtain ⟨applies, evaluate⟩ := ignores sameTree same asked
  have fault : Outcome.fault rule cursor.node = Outcome.fault rule otherCursor.node := by
    funext errorType detail
    rw [Outcome.fault, Outcome.fault, same.node.kind, same.node.span]
  have judge : engine.judge tree rule cursor.node = engine.judge other rule otherCursor.node := by
    funext candidate
    have within : tree.span = other.span := sameTree.root.span
    rw [Engine.judge, Engine.judge, within, fault]
  have found : candidates tree rule cursor = candidates other rule otherCursor := by
    rw [candidates, candidates, applies, evaluate]
  rw [invoke, invoke, found, fault, judge]

theorem brought_sameButTexts (sound : engine.catalogue.Sound)
    (ignores : ∀ rule ∈ engine.catalogue.rules, rule.IgnoresTexts)
    (sameTree : tree.SameButTexts other) {cursor otherCursor : Cursor}
    (same : cursor.SameButTexts otherCursor) :
    engine.brought tree cursor = engine.brought other otherCursor := by
  have rulesAt : engine.rulesAt cursor = engine.rulesAt otherCursor := by
    have isRoot : cursor.isRoot = otherCursor.isRoot := by
      rw [Cursor.isRoot, Cursor.isRoot, same.address]
    rw [Engine.rulesAt, Engine.rulesAt, same.node.kind, isRoot]
  rw [brought, brought, ← rulesAt]
  refine congrArg Outcome.concat (List.map_congr_left fun rule member => ?_)
  obtain ⟨registered, asked⟩ := (mem_rulesAt sound).mp member
  have concerned : rule.scope = .node → rule.isFor cursor.node.kind = true := by
    intro ofNodes
    rcases asked with ofNode | ⟨_, ofTree⟩
    · simp only [asksOfNode, Bool.and_eq_true] at ofNode
      exact ofNode.2
    · simp [asksOfTree, ofNodes] at ofTree
  rw [bring, bring, invoke_sameButTexts sameTree same (ignores rule registered) concerned]

theorem outcome_sameButTexts (sound : engine.catalogue.Sound)
    (ignores : ∀ rule ∈ engine.catalogue.rules, rule.IgnoresTexts)
    (sameTree : tree.SameButTexts other) {cursors others : List Cursor}
    (same : List.Forall₂ Cursor.SameButTexts cursors others) :
    engine.outcome tree cursors = engine.outcome other others := by
  induction same with
  | nil => rw [outcome_nil, outcome_nil]
  | cons sameCursor _ ih =>
      rw [outcome_cons, outcome_cons, ih, brought_sameButTexts sound ignores sameTree sameCursor]

end Engine

/-! ## One outcome under the waivers of two trees -/

namespace WaiverSheet

variable {sheet other : WaiverSheet} {path : String} {outcome : Outcome}

theorem mem_map_key_reportOn (named : sheet.path = .text path)
    (fresh : ∀ finding ∈ outcome.findings, finding.suppressed = false) (complete : Bool)
    {finding : Finding} (found : finding ∈ outcome.findings) :
    finding.key ∈ (sheet.reportOn outcome complete).findings.map Finding.key ↔
      sheet.silences finding = false := by
  rw [sheet.reportOn_findings fresh, ((List.mergeSort_perm _ _).map Finding.key).mem_iff,
    Finding.mem_map_key_firsts]
  constructor
  · intro member
    obtain ⟨reported, kept, sameKey⟩ := List.mem_map.mp member
    rw [← silences_eq_of_key named sameKey]
    simpa using (List.mem_filter.mp kept).2
  · intro unsilenced
    exact List.mem_map_of_mem (List.mem_filter.mpr ⟨found, by rw [unsilenced]; rfl⟩)

theorem mem_outcome_of_mem_reportOn
    (fresh : ∀ finding ∈ outcome.findings, finding.suppressed = false) {complete : Bool}
    {finding : Finding} (member : finding ∈ (sheet.reportOn outcome complete).findings) :
    finding ∈ outcome.findings := by
  rw [sheet.reportOn_findings fresh, List.mem_mergeSort] at member
  exact List.mem_of_mem_filter (Finding.mem_of_mem_firsts member)

/-- The findings that are also in a report under other waivers are those that neither silence. -/
theorem filter_reportOn (otherNamed : other.path = .text path)
    (fresh : ∀ finding ∈ outcome.findings, finding.suppressed = false) (complete : Bool) :
    ((sheet.reportOn outcome complete).findings.filter fun finding =>
        finding.key ∈ (other.reportOn outcome complete).findings.map Finding.key) =
      (Finding.firsts (outcome.findings.filter fun finding =>
        !sheet.silences finding && !other.silences finding)).mergeSort Finding.inOrder := by
  have shared : ((sheet.reportOn outcome complete).findings.filter fun finding =>
        finding.key ∈ (other.reportOn outcome complete).findings.map Finding.key) =
      (sheet.reportOn outcome complete).findings.filter fun finding => !other.silences finding := by
    refine List.filter_congr fun finding member => ?_
    rw [Bool.eq_iff_iff, decide_eq_true_iff,
      mem_map_key_reportOn otherNamed fresh _ (mem_outcome_of_mem_reportOn fresh member),
      Bool.not_eq_true']
  have sorted := @StableSort.filter_mergeSort _ Finding.order _
    (fun finding => !other.silences finding)
    (Finding.firsts (outcome.findings.filter fun finding => !sheet.silences finding))
  rw [shared, sheet.reportOn_findings fresh]
  refine sorted.trans ?_
  rw [Finding.filter_firsts (not_silences_eq_of_key otherNamed), List.filter_filter]
  simp only [Bool.and_comm]
  rfl

theorem filter_reportOn_comm (named : sheet.path = .text path)
    (otherNamed : other.path = .text path)
    (fresh : ∀ finding ∈ outcome.findings, finding.suppressed = false) (complete : Bool) :
    ((sheet.reportOn outcome complete).findings.filter fun finding =>
        finding.key ∈ (other.reportOn outcome complete).findings.map Finding.key) =
      (other.reportOn outcome complete).findings.filter fun finding =>
        finding.key ∈ (sheet.reportOn outcome complete).findings.map Finding.key := by
  rw [filter_reportOn otherNamed fresh, filter_reportOn named fresh]
  simp only [Bool.and_comm]

end WaiverSheet

/-- A directive in a comment of the tree is for the rule of a finding, or for all rules, and the
finding lies in its scope. -/
def Finding.WaivedInline (finding : Finding) (tree : Tree) : Prop :=
  ∃ waiver ∈ (WaiverSheet.inlineWaivers tree).1, waiver.scope.encloses finding.span = true ∧
    (waiver.isWildcard = true ∨ finding.ruleId ∈ waiver.ruleIds)

/-- Exclusions do not tell trees of one path apart, so a finding that is silenced in only one of
them is silenced by a directive. -/
theorem Engine.waivedInline_of_silences {engine : Engine} {tree other : Tree} {path : String}
    (named : tree.path = .text path) (otherNamed : other.path = .text path) {finding : Finding}
    (reported : (engine.sheet tree).silences finding = false)
    (silenced : (engine.sheet other).silences finding = true) : finding.WaivedInline other := by
  obtain ⟨waiver, listed, covers⟩ :=
    (WaiverSheet.silences_text ((engine.sheet_path other).trans otherNamed) finding).mp silenced
  rcases mem_waivers_sheet.mp listed with ⟨inline, written, rfl⟩ | ⟨exclusion, excluded, rfl⟩
  · obtain ⟨inside, meant⟩ := covers
    exact ⟨inline, written, Span.encloses_iff.mpr inside,
      meant.imp_left fun wildcard => List.isEmpty_iff.mpr wildcard⟩
  · have alike : (engine.sheet tree).silences finding = true :=
      (WaiverSheet.silences_text ((engine.sheet_path tree).trans named) finding).mpr
        ⟨_, mem_waivers_sheet.mpr (.inr ⟨exclusion, excluded, rfl⟩), covers⟩
    rw [reported] at alike
    cases alike

theorem Engine.waivedInline_of_missing {engine : Engine} {tree other : Tree} {path : String}
    (named : tree.path = .text path) (otherNamed : other.path = .text path) {outcome : Outcome}
    (fresh : ∀ finding ∈ outcome.findings, finding.suppressed = false) {complete : Bool}
    {finding : Finding}
    (reported : finding ∈ ((engine.sheet tree).reportOn outcome complete).findings)
    (missing : finding ∉ ((engine.sheet other).reportOn outcome complete).findings) :
    finding.WaivedInline other := by
  have sheetNamed := (engine.sheet_path tree).trans named
  have otherSheetNamed := (engine.sheet_path other).trans otherNamed
  cases silenced : (engine.sheet other).silences finding with
  | true =>
      exact waivedInline_of_silences named otherNamed
        (WaiverSheet.silences_eq_false_of_mem fresh reported) silenced
  | false =>
      -- The other report has a finding of this key, and that can only be this one.
      have found := WaiverSheet.mem_outcome_of_mem_reportOn fresh reported
      have known :=
        (WaiverSheet.mem_map_key_reportOn otherSheetNamed fresh complete found).mpr silenced
      have shared : finding ∈ ((engine.sheet tree).reportOn outcome complete).findings.filter
          fun finding => finding.key ∈
            ((engine.sheet other).reportOn outcome complete).findings.map Finding.key :=
        List.mem_filter.mpr ⟨reported, decide_eq_true known⟩
      rw [WaiverSheet.filter_reportOn_comm sheetNamed otherSheetNamed fresh] at shared
      exact absurd (List.mem_of_mem_filter shared) missing

/-- Trees that differ in the texts of comments have the same faults and as many findings, reported
and suppressed taken together. What both report is the same and stands in the same order, and what
only one reports is waived by a directive in a comment of the other. -/
theorem Run.execute_sameButTexts {policy : Policy} {workers : Int} {engine : Engine}
    (created : (Engine.create .standard policy workers).1 = .ok engine) {tree other : Tree}
    (same : tree.SameButTexts other) {path : String} (named : tree.path = .text path)
    {signal : Signal} (uncancelled : ∀ poll < tree.size, signal poll = false) :
    ∃ report otherReport, ((start engine tree).execute signal).result = .ok report ∧
      ((start engine other).execute signal).result = .ok otherReport ∧
      report.faults = otherReport.faults ∧
      report.findings.length + report.suppressedCount =
        otherReport.findings.length + otherReport.suppressedCount ∧
      (report.findings.filter fun finding =>
          finding.key ∈ otherReport.findings.map Finding.key) =
        (otherReport.findings.filter fun finding =>
          finding.key ∈ report.findings.map Finding.key) ∧
      (∀ finding ∈ report.findings, finding ∉ otherReport.findings →
        finding.WaivedInline other) ∧
      ∀ finding ∈ otherReport.findings, finding ∉ report.findings →
        finding.WaivedInline tree := by
  obtain ⟨catalogue_eq, rfl⟩ := Engine.create_fields created
  have otherNamed : other.path = .text path := same.path.symm.trans named
  have sheetNamed := (engine.sheet_path tree).trans named
  have otherSheetNamed := (engine.sheet_path other).trans otherNamed
  have sound : engine.catalogue.Sound := by
    rw [catalogue_eq]
    exact Catalogue.reachable_standard.sound.sealed
  have ignores : ∀ rule ∈ engine.catalogue.rules, rule.IgnoresTexts := by
    rw [catalogue_eq, Catalogue.sealed_rules]
    exact Catalogue.ignoresTexts_standardRules
  have fresh := engine.outcome_fresh other other.walk
  have whole : tree.upTo signal = tree.walk :=
    admitted_eq_self fun poll bound => by simpa using uncancelled poll bound
  have otherWhole : other.upTo signal = other.walk :=
    admitted_eq_self fun poll bound => by
      have within : poll < tree.size := same.size ▸ bound
      simpa using uncancelled poll within
  have unbroken (tree : Tree) := Engine.not_breaks_of_standard catalogue_eq tree signal
  refine ⟨_, _, execute_unbroken_text named (unbroken tree),
    execute_unbroken_text otherNamed (unbroken other), ?_⟩
  rw [whole, otherWhole, Engine.outcome_sameButTexts sound ignores same same.walk,
    beq_self_eq_true, beq_self_eq_true]
  refine ⟨?_, ?_, WaiverSheet.filter_reportOn_comm sheetNamed otherSheetNamed fresh true, ?_, ?_⟩
  · rw [WaiverSheet.reportOn_faults, WaiverSheet.reportOn_faults]
  · rw [WaiverSheet.reportOn_length_add_suppressedCount sheetNamed fresh,
      WaiverSheet.reportOn_length_add_suppressedCount otherSheetNamed fresh]
  · intro finding reported missing
    exact Engine.waivedInline_of_missing named otherNamed fresh reported missing
  · intro finding reported missing
    exact Engine.waivedInline_of_missing otherNamed named fresh reported missing

/-- A file in which a comment with a text precedes a getter. -/
def Tree.commented (text : String) : Tree :=
  ⟨⟨.file, ⟨⟨1, 0, 0⟩, ⟨2, 30, 60⟩, by decide⟩, [],
    [⟨.comment, ⟨⟨1, 0, 0⟩, ⟨1, 20, 20⟩, by decide⟩, [("text", .text text)], []⟩,
      ⟨.declaration, ⟨⟨2, 0, 21⟩, ⟨2, 30, 51⟩, by decide⟩,
        [("name", .text "GetOwner"), ("exported", .bool true)], []⟩]⟩, .text "a.go"⟩

theorem Tree.commented_sameButTexts (text other : String) :
    (commented text).SameButTexts (commented other) := by
  have comment : Node.SameButTexts
      ⟨.comment, ⟨⟨1, 0, 0⟩, ⟨1, 20, 20⟩, by decide⟩, [("text", .text text)], []⟩
      ⟨.comment, ⟨⟨1, 0, 0⟩, ⟨1, 20, 20⟩, by decide⟩, [("text", .text other)], []⟩ := by
    refine .intro rfl rfl (fun name unread => ?_) .nil
    have differs : (name == "text") = false := by simpa using fun equal => unread ⟨rfl, equal⟩
    simp [Node.attribute?, Members.get?, List.lookup_cons, differs]
  refine ⟨rfl, .intro rfl rfl (fun _ _ => rfl) (.cons comment (.cons ?_ .nil))⟩
  exact .intro rfl rfl (fun _ _ => rfl) .nil

theorem Run.execute_sameButTexts_commented :
    (Engine.create .standard .neutral 1).1 = .ok ⟨.standard, .neutral, 1⟩ ∧
      (Tree.commented "// convcheck:ignore").SameButTexts (.commented "// owner") ∧
      ∃ report otherReport,
        ((start ⟨.standard, .neutral, 1⟩ (.commented "// convcheck:ignore")).execute
          .never).result = .ok report ∧
        ((start ⟨.standard, .neutral, 1⟩ (.commented "// owner")).execute .never).result =
          .ok otherReport ∧
        report.faults = otherReport.faults ∧
        report.findings.length + report.suppressedCount =
          otherReport.findings.length + otherReport.suppressedCount ∧
        (report.findings.filter fun finding =>
            finding.key ∈ otherReport.findings.map Finding.key) =
          (otherReport.findings.filter fun finding =>
            finding.key ∈ report.findings.map Finding.key) ∧
        (∀ finding ∈ report.findings, finding ∉ otherReport.findings →
          finding.WaivedInline (.commented "// owner")) ∧
        ∀ finding ∈ otherReport.findings, finding ∉ report.findings →
          finding.WaivedInline (.commented "// convcheck:ignore") :=
  ⟨Engine.create_standard, Tree.commented_sameButTexts _ _,
    execute_sameButTexts Engine.create_standard (Tree.commented_sameButTexts _ _) rfl
      fun _ _ => rfl⟩

end TreeLint
