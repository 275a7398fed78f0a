import ApiRelease.Change.Basic
import ApiRelease.Change.Descriptor
import ApiRelease.Change.Vocabulary
import ApiRelease.Command.Request
import ApiRelease.Command.Run
import ApiRelease.Command.Usage
import ApiRelease.Command.Words
import ApiRelease.Console.Markup
import ApiRelease.Console.Table
import ApiRelease.Console.Wrap
import ApiRelease.Decimal.Binary
import ApiRelease.Decimal.Fixed
import ApiRelease.Decimal.Nearest
import ApiRelease.Decimal.Shortest
import ApiRelease.Declaration.Basic
import ApiRelease.Declaration.Decode
import ApiRelease.Declaration.Encode
import ApiRelease.Declaration.Kind
import ApiRelease.Declaration.Load
import ApiRelease.Declaration.Module
import ApiRelease.Diff.Classification
import ApiRelease.Diff.Forest
import ApiRelease.Diff.Match
import ApiRelease.Diff.Options
import ApiRelease.Diff.Reorder
import ApiRelease.Diff.Signature
import ApiRelease.Diff.TypeParameters
import ApiRelease.Document.Json.Plain
import ApiRelease.Document.Json.Printer
import ApiRelease.Document.Json.Reader
import ApiRelease.Document.Moment
import ApiRelease.Document.Numeral
import ApiRelease.Document.Read
import ApiRelease.Document.Scalar
import ApiRelease.Document.Show
import ApiRelease.Document.Toml.Moment
import ApiRelease.Document.Toml.Read
import ApiRelease.Document.Toml.Scalar
import ApiRelease.Document.Value
import ApiRelease.Document.Yaml.Block
import ApiRelease.Document.Yaml.Cursor
import ApiRelease.Document.Yaml.Node
import ApiRelease.Document.Yaml.Plain
import ApiRelease.Document.Yaml.Quoted
import ApiRelease.Document.Yaml.Read
import ApiRelease.Document.Yaml.Scalar
import ApiRelease.Document.Yaml.Stamp
import ApiRelease.Document.Yaml.Tag
import ApiRelease.Document.Yaml.Token
import ApiRelease.Fault
import ApiRelease.File
import ApiRelease.Likeness
import ApiRelease.Main
import ApiRelease.Notice
import ApiRelease.Policy.Analysis
import ApiRelease.Policy.Basic
import ApiRelease.Policy.Builtin
import ApiRelease.Policy.Conditions
import ApiRelease.Policy.Config
import ApiRelease.Policy.Draft
import ApiRelease.Proofs.Additions
import ApiRelease.Proofs.Builtin
import ApiRelease.Proofs.Conservation
import ApiRelease.Proofs.Depth
import ApiRelease.Proofs.Exports
import ApiRelease.Proofs.Filling
import ApiRelease.Proofs.IntentLanguage
import ApiRelease.Proofs.IntentMeaning
import ApiRelease.Proofs.Itself
import ApiRelease.Proofs.Keys
import ApiRelease.Proofs.KindChange
import ApiRelease.Proofs.Level
import ApiRelease.Proofs.Listing
import ApiRelease.Proofs.Lowering
import ApiRelease.Proofs.Pairing
import ApiRelease.Proofs.ParameterCount
import ApiRelease.Proofs.Phrases
import ApiRelease.Proofs.Problems
import ApiRelease.Proofs.Raising
import ApiRelease.Proofs.Readings
import ApiRelease.Proofs.Reformatting
import ApiRelease.Proofs.Release
import ApiRelease.Proofs.Removal
import ApiRelease.Proofs.Restrictions
import ApiRelease.Proofs.Rewording
import ApiRelease.Proofs.RoundTrip
import ApiRelease.Proofs.Shape
import ApiRelease.Proofs.Siblings
import ApiRelease.Proofs.Silence
import ApiRelease.Proofs.Spacing
import ApiRelease.Proofs.Totality
import ApiRelease.Proofs.Unchanged
import ApiRelease.Proofs.Verdicts
import ApiRelease.Proofs.Wording
import ApiRelease.Report.Changes
import ApiRelease.Report.Outcome
import ApiRelease.Report.Policies
import ApiRelease.Report.Rules
import ApiRelease.Rule.Basic
import ApiRelease.Rule.Catalogue
import ApiRelease.Rule.Decode
import ApiRelease.Rule.Fidelity
import ApiRelease.Rule.Intent
import ApiRelease.Rule.Level
import ApiRelease.Rule.Pattern
import ApiRelease.Rule.Phrasing
import ApiRelease.Text.Base64
import ApiRelease.Text.Blank
import ApiRelease.Text.Case
import ApiRelease.Text.CaseTable
import ApiRelease.Text.Digit
import ApiRelease.Text.Distance
import ApiRelease.Text.Matching
import ApiRelease.Text.Quoted
import ApiRelease.Text.Search
import ApiRelease.Text.Unprintable
import ApiRelease.Trace
import ApiRelease.TypeText.Oracle
import ApiRelease.TypeText.Union
import ApiRelease.Vocabulary
import ApiRelease.Proofs.DeclarationDocuments
import ApiRelease.Proofs.ShownTexts
import ApiRelease.Proofs.ChangeDocuments
import ApiRelease.Proofs.RuleDocuments
import ApiRelease.Proofs.MalformedEntries
import ApiRelease.Proofs.GreedyPairing
import ApiRelease.Proofs.FirstMatch
import ApiRelease.Proofs.RuleTables
import ApiRelease.Proofs.PolicyDocuments
import ApiRelease.Proofs.PairingRuns
import ApiRelease.Proofs.UnionMembers
import ApiRelease.Proofs.TypeGrammar
import ApiRelease.Proofs.Reordering
import ApiRelease.Proofs.ReorderedTargets
import ApiRelease.Proofs.TypeParameterOrder
import ApiRelease.Proofs.TypeComparison
import ApiRelease.Proofs.Ranking
import ApiRelease.Proofs.ArgumentCounts
import ApiRelease.Proofs.Visibility
import ApiRelease.Proofs.Decompiling
import ApiRelease.Proofs.MemberEntries
import ApiRelease.Proofs.ExportEntries
import ApiRelease.Proofs.LoadedPolicies
import ApiRelease.Proofs.Suggestions
import ApiRelease.Proofs.Doubles
import ApiRelease.Proofs.EditDistance
import ApiRelease.Proofs.NameChanges
import ApiRelease.Proofs.PrimarySignature
import ApiRelease.Proofs.LeastEdits
import ApiRelease.Proofs.Scores
import ApiRelease.Proofs.Abbreviations
import ApiRelease.Proofs.Words
import ApiRelease.Proofs.Moves
