import FluentTables.Text.Blank
import FluentTables.Text.Case
import FluentTables.Text.Lines
import FluentTables.Text.Quoted
import FluentTables.Pattern.Search
import FluentTables.Decimal.Layout
import FluentTables.Decimal.Numeral
import FluentTables.OrderedMap
import FluentTables.Json.Basic
import FluentTables.Json.Decode
import FluentTables.Json.Number
import FluentTables.Value.Json
import FluentTables.Condition
import FluentTables.Dataset
import FluentTables.Relation.Join
import FluentTables.Query.Interpret
import FluentTables.Migration.Basic
import FluentTables.Session.Script
import FluentTables.Settings
import FluentTables.Files
import FluentTables.Api.Service
import FluentTables.CommandLine.Report
import FluentTables.Main
import FluentTables.Proofs.Autofill.Filling
import FluentTables.Proofs.Autofill.FilledCells
import FluentTables.Proofs.Autofill.Reports
import FluentTables.Proofs.Autofill.Constraints
import FluentTables.Proofs.Autofill.LaterRows
import FluentTables.Proofs.Autofill.SavedAgain
import FluentTables.Proofs.Session.Effects
import FluentTables.Proofs.Session.Store
import FluentTables.Proofs.Session.Scripts
import FluentTables.Proofs.Session.Assembly
import FluentTables.Proofs.Session.Dialogues
import FluentTables.Proofs.Session.Routing
import FluentTables.Proofs.Decimal.Integers
import FluentTables.Proofs.Query.Creations
import FluentTables.Proofs.FreshIds
import FluentTables.Proofs.Relation.InverseJoins
import FluentTables.Proofs.Session.Creates
import FluentTables.Proofs.Pattern.Matching
import FluentTables.Proofs.Pattern.Occurrences
import FluentTables.Proofs.Relation.Existence
import FluentTables.Proofs.Query.Statements
import FluentTables.Proofs.Query.Preparation
import FluentTables.Proofs.Query.Provenance
import FluentTables.Proofs.Text.Arguments
import FluentTables.Proofs.Query.WrittenCreations
import FluentTables.Proofs.Query.Calls
import FluentTables.Proofs.Query.Selections
import FluentTables.Proofs.Query.Closures
import FluentTables.Proofs.Query.EagerLoading
import FluentTables.Proofs.Query.NameLists
import FluentTables.Proofs.Migration.Declarations
import FluentTables.Proofs.Migration.MethodCalls
import FluentTables.Proofs.Migration.Blocks
import FluentTables.Proofs.Pattern.Admission
import FluentTables.Proofs.Pattern.Locations
import FluentTables.Proofs.Migration.ColumnPieces
import FluentTables.Proofs.Migration.ColumnLists
import FluentTables.Proofs.Decimal.StoredNumbers
import FluentTables.Proofs.Json.Reading
import FluentTables.Proofs.Json.Decoding
import FluentTables.Proofs.Migration.ParsedTables
import FluentTables.Proofs.Api.Saving
import FluentTables.Proofs.Relation.ForeignKeys
import FluentTables.Proofs.Pattern.LongerTexts
import FluentTables.Proofs.Query.TrailingText
import FluentTables.Proofs.Query.Lookups
import FluentTables.Proofs.Session.ReadBack
import FluentTables.Proofs.Migration.ColumnNames
import FluentTables.Proofs.Migration.ColumnAttributes
import FluentTables.Proofs.Decimal.Rounding
import FluentTables.Proofs.Query.Comparisons
import FluentTables.Proofs.Like.Gaps
import FluentTables.Pattern.Expression
import FluentTables.Proofs.Like.Expressions
import FluentTables.Proofs.Relation.MergedPaths
import FluentTables.Proofs.Relation.Overlays
import FluentTables.Proofs.Relation.Independence
import FluentTables.Proofs.Relation.PlacedRecords
import FluentTables.Proofs.Query.QuotedValues
import FluentTables.Proofs.Decimal.Grammar
import FluentTables.Proofs.Text.Splitting
import FluentTables.Proofs.Pattern.Separators
import FluentTables.Proofs.Query.QuotedLiterals
import FluentTables.Proofs.Migration.Fragments
import FluentTables.Proofs.Literals
