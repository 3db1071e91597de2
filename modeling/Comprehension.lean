import Comprehension.Calendar.Date
import Comprehension.Calendar.DateTime
import Comprehension.Calendar.Scan
import Comprehension.Command.Basic
import Comprehension.Command.Dialect
import Comprehension.Command.Render
import Comprehension.CommandLine.Arguments
import Comprehension.CommandLine.Run
import Comprehension.Compile
import Comprehension.Decimal.Double
import Comprehension.Decimal.Notation
import Comprehension.Decimal.Shortest
import Comprehension.Document.Basic
import Comprehension.Document.Json
import Comprehension.Document.Reading
import Comprehension.Document.Toml
import Comprehension.Error
import Comprehension.Exchange.Command
import Comprehension.Exchange.Query
import Comprehension.Exchange.Schema
import Comprehension.Exchange.SqlReader
import Comprehension.Exchange.SqlWriter
import Comprehension.Exchange.Value
import Comprehension.Fresh
import Comprehension.Main
import Comprehension.Method.Conversion
import Comprehension.Method.Dates
import Comprehension.Method.Defaults
import Comprehension.Method.Equality
import Comprehension.Method.FullText
import Comprehension.Method.Pattern
import Comprehension.Method.Registry
import Comprehension.Method.Rules
import Comprehension.Method.Signature
import Comprehension.Method.SignatureReader
import Comprehension.Method.Strings
import Comprehension.Prepared.Drafts
import Comprehension.Prepared.Operators
import Comprehension.Prepared.Query
import Comprehension.Proofs.Acceptance
import Comprehension.Proofs.Adaptation
import Comprehension.Proofs.Arrangement
import Comprehension.Proofs.ColumnNames
import Comprehension.Proofs.Compilation
import Comprehension.Proofs.ConditionReading
import Comprehension.Proofs.Construction
import Comprehension.Proofs.DateOffsets
import Comprehension.Proofs.DeclaredTypes
import Comprehension.Proofs.Drafts
import Comprehension.Proofs.Emission
import Comprehension.Proofs.Evaluation
import Comprehension.Proofs.Folding
import Comprehension.Proofs.Freshness
import Comprehension.Proofs.GroupingKeys
import Comprehension.Proofs.Idempotence
import Comprehension.Proofs.Inlining.Prepare
import Comprehension.Proofs.Inlining.Query
import Comprehension.Proofs.Inside
import Comprehension.Proofs.JoinListing
import Comprehension.Proofs.JoinPaths
import Comprehension.Proofs.JoinTree
import Comprehension.Proofs.LexicalClosure
import Comprehension.Proofs.Lexing
import Comprehension.Proofs.LiteralSearch
import Comprehension.Proofs.MappedReferences
import Comprehension.Proofs.Mapping
import Comprehension.Proofs.Masking.Command
import Comprehension.Proofs.Masking.Methods
import Comprehension.Proofs.Masking.Prepare
import Comprehension.Proofs.Masking.Query
import Comprehension.Proofs.Masking.Resolve
import Comprehension.Proofs.Masking.Sql
import Comprehension.Proofs.Methods
import Comprehension.Proofs.NavigatedPaths
import Comprehension.Proofs.Negation
import Comprehension.Proofs.NormalForm
import Comprehension.Proofs.NullComparison
import Comprehension.Proofs.Numbering
import Comprehension.Proofs.Offers
import Comprehension.Proofs.OperatorSteps
import Comprehension.Proofs.OrderKeeping
import Comprehension.Proofs.Outcome
import Comprehension.Proofs.Paging
import Comprehension.Proofs.Passes
import Comprehension.Proofs.Phrase
import Comprehension.Proofs.Pipelines
import Comprehension.Proofs.Preparation
import Comprehension.Proofs.PreparationSteps
import Comprehension.Proofs.PreparedReferences
import Comprehension.Proofs.PreparedShapes
import Comprehension.Proofs.Renaming.Methods
import Comprehension.Proofs.Renaming.Prepare
import Comprehension.Proofs.Renaming.Query
import Comprehension.Proofs.Resolution
import Comprehension.Proofs.ResolvedReferences
import Comprehension.Proofs.Resorting
import Comprehension.Proofs.ResultShapes
import Comprehension.Proofs.Revisits
import Comprehension.Proofs.RunTimeSearch
import Comprehension.Proofs.Scoping
import Comprehension.Proofs.SecondPasses
import Comprehension.Proofs.SelectList
import Comprehension.Proofs.Separation
import Comprehension.Proofs.Settled
import Comprehension.Proofs.SignatureGrammar
import Comprehension.Proofs.SignatureRoundTrip
import Comprehension.Proofs.SingleValues
import Comprehension.Proofs.StringMethods
import Comprehension.Proofs.TableReferences
import Comprehension.Proofs.Tree
import Comprehension.Proofs.Vocabulary
import Comprehension.Proofs.Wording
import Comprehension.Query.Basic
import Comprehension.Query.Printer
import Comprehension.Query.Typing
import Comprehension.Resolved.Exposure
import Comprehension.Resolved.Navigation
import Comprehension.Resolved.Position
import Comprehension.Resolved.Statement
import Comprehension.Schema.Basic
import Comprehension.Schema.Mapping
import Comprehension.Sql.Basic
import Comprehension.Sql.Draft
import Comprehension.Sql.JoinTree
import Comprehension.Sql.Kind
import Comprehension.Sql.Typing
import Comprehension.Text.Alphanumeric
import Comprehension.Text.Blank
import Comprehension.Text.Hidden
import Comprehension.Text.Parser
import Comprehension.Text.Quoted
import Comprehension.Text.Ranges
import Comprehension.Text.Split
import Comprehension.Value.Basic
import Comprehension.Value.Type
