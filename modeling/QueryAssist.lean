import QueryAssist.Catalog.Basic
import QueryAssist.Catalog.Description
import QueryAssist.Catalog.Entries
import QueryAssist.Command.Arguments
import QueryAssist.Command.Disk
import QueryAssist.Command.FileTree
import QueryAssist.Command.Glob
import QueryAssist.Command.Report
import QueryAssist.Command.Run
import QueryAssist.Command.Settings
import QueryAssist.Completion.Basic
import QueryAssist.Completion.Candidate
import QueryAssist.Completion.Context
import QueryAssist.Data.Basic
import QueryAssist.Data.Json.Printer
import QueryAssist.Data.Json.Reader
import QueryAssist.Data.Number
import QueryAssist.Data.Reader
import QueryAssist.Data.Sorted
import QueryAssist.Data.Toml.Reader
import QueryAssist.Data.Toml.Scalar
import QueryAssist.Data.Toml.Table
import QueryAssist.Ddl.DataType
import QueryAssist.Ddl.Effect
import QueryAssist.Ddl.Grammar
import QueryAssist.Ddl.Lexeme
import QueryAssist.Ddl.Load
import QueryAssist.Ddl.Query
import QueryAssist.Ddl.Script
import QueryAssist.Ddl.Statement
import QueryAssist.Dialect.Basic
import QueryAssist.Dialect.Vocabulary
import QueryAssist.Finding.Analysis
import QueryAssist.Finding.Basic
import QueryAssist.Finding.Reference
import QueryAssist.Finding.Structure
import QueryAssist.Finding.Suggestion
import QueryAssist.Hover
import QueryAssist.Main
import QueryAssist.Proofs.Catalog.Filing
import QueryAssist.Proofs.Catalog.LastWrite
import QueryAssist.Proofs.Catalog.Offered
import QueryAssist.Proofs.Catalog.Slot
import QueryAssist.Proofs.Completion.Agreement
import QueryAssist.Proofs.Completion.BeforeCursor
import QueryAssist.Proofs.Completion.Ranking
import QueryAssist.Proofs.Ddl.Loading
import QueryAssist.Proofs.Ddl.PrimaryKey
import QueryAssist.Proofs.Ddl.Splitting
import QueryAssist.Proofs.Ddl.ViewColumns
import QueryAssist.Proofs.Finding.BarePair
import QueryAssist.Proofs.Finding.BindingsCache
import QueryAssist.Proofs.Finding.ColumnLookup
import QueryAssist.Proofs.Finding.Contents
import QueryAssist.Proofs.Finding.EditDistance
import QueryAssist.Proofs.Finding.FullerCatalog
import QueryAssist.Proofs.Finding.Isolation
import QueryAssist.Proofs.Finding.LetterCase
import QueryAssist.Proofs.Finding.Missed
import QueryAssist.Proofs.Finding.Parens
import QueryAssist.Proofs.Finding.Placement
import QueryAssist.Proofs.Finding.Qualifier
import QueryAssist.Proofs.Finding.Repetition
import QueryAssist.Proofs.Finding.Respelling
import QueryAssist.Proofs.Finding.UnclosedString
import QueryAssist.Proofs.Query.Closing
import QueryAssist.Proofs.Query.Division
import QueryAssist.Proofs.Query.Layout
import QueryAssist.Proofs.Query.LetterCase
import QueryAssist.Proofs.Query.Recasting
import QueryAssist.Proofs.Query.RoundTrip
import QueryAssist.Proofs.Query.SelectItem
import QueryAssist.Proofs.Query.TableHeads
import QueryAssist.Proofs.Query.TableParts
import QueryAssist.Proofs.Query.TableReading
import QueryAssist.Proofs.Query.Written
import QueryAssist.Proofs.Query.WrittenSelect
import QueryAssist.Proofs.Scope.AliasBinding
import QueryAssist.Proofs.Scope.BodyTokens
import QueryAssist.Proofs.Scope.ColumnSpelling
import QueryAssist.Proofs.Scope.Disjoint
import QueryAssist.Proofs.Scope.Expansion
import QueryAssist.Proofs.Scope.Respelling
import QueryAssist.Proofs.Scope.Span
import QueryAssist.Proofs.Scope.Trace
import QueryAssist.Proofs.Scope.Verdict
import QueryAssist.Proofs.Scope.Visibility
import QueryAssist.Proofs.Scope.Wording
import QueryAssist.Proofs.Text.CommentCursor
import QueryAssist.Proofs.Text.Contents
import QueryAssist.Proofs.Text.LetterCase
import QueryAssist.Proofs.Text.Lines
import QueryAssist.Proofs.Text.Masking
import QueryAssist.Proofs.Text.ParenScan
import QueryAssist.Proofs.Text.Range
import QueryAssist.Proofs.Text.Remasking
import QueryAssist.Proofs.Text.UpperCase
import QueryAssist.Proofs.Token.Division
import QueryAssist.Proofs.Token.LetterCase
import QueryAssist.Proofs.Token.Lexing
import QueryAssist.Proofs.Token.Lossless
import QueryAssist.Proofs.Token.Spelling
import QueryAssist.Proofs.Token.StatementEnds
import QueryAssist.Proofs.Token.Tiling
import QueryAssist.Proofs.Token.Truncation
import QueryAssist.Query.Document
import QueryAssist.Query.Projection
import QueryAssist.Query.Subquery
import QueryAssist.Query.TableRef
import QueryAssist.Report.Encoding
import QueryAssist.Scope.Basic
import QueryAssist.Scope.Lookup
import QueryAssist.Text.Alphabetic
import QueryAssist.Text.Blank
import QueryAssist.Text.CaseMap
import QueryAssist.Text.Cased
import QueryAssist.Text.Casing
import QueryAssist.Text.CodeRange
import QueryAssist.Text.Comment
import QueryAssist.Text.Mask
import QueryAssist.Text.Numeric
import QueryAssist.Text.Offset
import QueryAssist.Text.Parens
import QueryAssist.Text.Path
import QueryAssist.Text.Position
import QueryAssist.Text.Statement
import QueryAssist.Text.Word
import QueryAssist.Token.Basic
import QueryAssist.Token.Keyword
import QueryAssist.Token.Lexer
