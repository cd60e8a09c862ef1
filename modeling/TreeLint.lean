import TreeLint.Command.Console
import TreeLint.Command.Directory
import TreeLint.Command.Files
import TreeLint.Command.Options
import TreeLint.Command.Program
import TreeLint.Command.Utf8
import TreeLint.Finding.Basic
import TreeLint.Finding.Severity
import TreeLint.Glob.Basic
import TreeLint.Glob.Bracket
import TreeLint.Glob.Path
import TreeLint.Inspection.Dispatch
import TreeLint.Inspection.Engine
import TreeLint.Inspection.Run
import TreeLint.Inspection.Screening
import TreeLint.Number.Binary64
import TreeLint.Number.IntegerText
import TreeLint.Number.Shortest
import TreeLint.Policy.Basic
import TreeLint.Policy.Problem
import TreeLint.Policy.Reader
import TreeLint.Proofs.ApplicableRules
import TreeLint.Proofs.AssemblyProperties
import TreeLint.Proofs.BracketGrammar
import TreeLint.Proofs.Cancellation
import TreeLint.Proofs.CatalogueHistory
import TreeLint.Proofs.CatalogueProperties
import TreeLint.Proofs.CommentTexts
import TreeLint.Proofs.DirectiveAnchors
import TreeLint.Proofs.DirectiveGrammar
import TreeLint.Proofs.DisabledRules
import TreeLint.Proofs.DispatchProperties
import TreeLint.Proofs.DocumentErrors
import TreeLint.Proofs.DocumentTrees
import TreeLint.Proofs.EngineSetup
import TreeLint.Proofs.EntryOrder
import TreeLint.Proofs.FailedConstruction
import TreeLint.Proofs.FitCandidates
import TreeLint.Proofs.InitialismAdvice
import TreeLint.Proofs.LedgerProperties
import TreeLint.Proofs.ListsAndResults
import TreeLint.Proofs.LiteralPaths
import TreeLint.Proofs.LoadedTrees
import TreeLint.Proofs.MoreExclusions
import TreeLint.Proofs.NodeLinks
import TreeLint.Proofs.PathMatching
import TreeLint.Proofs.PathsBelow
import TreeLint.Proofs.PolicyMerging
import TreeLint.Proofs.PolicySections
import TreeLint.Proofs.ReferenceReport
import TreeLint.Proofs.RegistrationOrder
import TreeLint.Proofs.RepeatedImports
import TreeLint.Proofs.RuleFailures
import TreeLint.Proofs.RuleIsolation
import TreeLint.Proofs.RunPhases
import TreeLint.Proofs.RunProperties
import TreeLint.Proofs.SeverityOverrides
import TreeLint.Proofs.StableSort
import TreeLint.Proofs.StandardRules
import TreeLint.Proofs.TraversalProperties
import TreeLint.Proofs.Verdicts
import TreeLint.Proofs.WaiverProperties
import TreeLint.Proofs.WalkOrder
import TreeLint.Proofs.WordPartition
import TreeLint.Report.Basic
import TreeLint.Report.Ledger
import TreeLint.Report.Table
import TreeLint.Rule.Basic
import TreeLint.Rule.Catalogue
import TreeLint.Rule.ErrorText
import TreeLint.Rule.GetterName
import TreeLint.Rule.Initialism
import TreeLint.Rule.Reading
import TreeLint.Rule.ReceiverName
import TreeLint.Rule.RepeatedImport
import TreeLint.Rule.Words
import TreeLint.Source.Extent
import TreeLint.Source.Position
import TreeLint.Source.Span
import TreeLint.Text.Basic
import TreeLint.Text.LetterCase
import TreeLint.Text.Printable
import TreeLint.Text.Quoted
import TreeLint.Text.WordCharacter
import TreeLint.Tree.Assembly
import TreeLint.Tree.Cursor
import TreeLint.Tree.Kind
import TreeLint.Tree.Node
import TreeLint.Tree.Reader
import TreeLint.Value.Basic
import TreeLint.Value.Display
import TreeLint.Value.JsonText
import TreeLint.Value.Numeral
import TreeLint.Waiver.Basic
import TreeLint.Waiver.Directive
import TreeLint.Waiver.Sheet
