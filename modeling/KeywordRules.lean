import KeywordRules.Main
import KeywordRules.Proofs.Query.Lexing
import KeywordRules.Proofs.Query.Nesting
import KeywordRules.Proofs.Query.Strays
import KeywordRules.Proofs.Query.WellFormed
import KeywordRules.RuleSet.Journal
import KeywordRules.Proofs.Query.Composition
import KeywordRules.Proofs.Text.Normal
import KeywordRules.Proofs.Query.Diagnosis
import KeywordRules.Proofs.Query.Leaves
import KeywordRules.Proofs.Query.MarkedWords
import KeywordRules.Proofs.Query.Alternation
import KeywordRules.Proofs.Query.WellWritten
import KeywordRules.Proofs.Query.Conjunction
import KeywordRules.Proofs.Query.PlainText
import KeywordRules.Proofs.Query.Canonical
import KeywordRules.Proofs.Document
import KeywordRules.Proofs.Text.Markup
import KeywordRules.Proofs.Query.SingleLeaf
import KeywordRules.Proofs.RuleSet.Classification
import KeywordRules.Proofs.Command.Documents
import KeywordRules.Proofs.Query.Positive
import KeywordRules.Proofs.Query.Dangling
import KeywordRules.Proofs.Query.Brackets
import KeywordRules.Proofs.Text.NormalForm
import KeywordRules.Proofs.Query.Segmentation
import KeywordRules.Proofs.Query.QuotedSpans
import KeywordRules.Proofs.Query.NormalTokens
import KeywordRules.Proofs.Query.Spelling
import KeywordRules.Proofs.RuleSet.Listing
import KeywordRules.Proofs.Command.Lines
import KeywordRules.Proofs.RuleSet.Layouts
import KeywordRules.Proofs.Query.Readability
import KeywordRules.Proofs.Query.Height
import KeywordRules.Proofs.Command.Strictness
import KeywordRules.Proofs.Command.Settings
import KeywordRules.Proofs.Query.Completion
import KeywordRules.Proofs.Query.Discipline
