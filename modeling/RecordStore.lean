import RecordStore.Binary64.Basic
import RecordStore.Binary64.Scaled
import RecordStore.Binary64.Shortest
import RecordStore.Config.Basic
import RecordStore.Config.Environment
import RecordStore.Context.Basic
import RecordStore.Error.Outcome
import RecordStore.Error.Refusal
import RecordStore.Error.Repository
import RecordStore.Error.Store
import RecordStore.Integer.Range
import RecordStore.Integer.Text
import RecordStore.Json.Basic
import RecordStore.Json.Fields
import RecordStore.Json.Number
import RecordStore.Json.Parser
import RecordStore.Json.Printer
import RecordStore.Json.Record
import RecordStore.Model.Basic
import RecordStore.Model.Schema
import RecordStore.Page.Options
import RecordStore.Page.OrderBy
import RecordStore.Page.Response
import RecordStore.Page.Wire
import RecordStore.Proofs.Config.ComposedUrl
import RecordStore.Proofs.Config.Variables
import RecordStore.Proofs.Filter.Comparison
import RecordStore.Proofs.Filter.Emptiness
import RecordStore.Proofs.Filter.Keyword
import RecordStore.Proofs.Filter.Operand
import RecordStore.Proofs.Filter.Pruned
import RecordStore.Proofs.Filter.Shape
import RecordStore.Proofs.Filter.Siblings
import RecordStore.Proofs.Filter.Tree
import RecordStore.Proofs.Model.ChangedFields
import RecordStore.Proofs.Model.EachField
import RecordStore.Proofs.Model.Entry
import RecordStore.Proofs.Page.Normalized
import RecordStore.Proofs.Page.Parameters
import RecordStore.Proofs.Page.RequestedOrder
import RecordStore.Proofs.Page.Served
import RecordStore.Proofs.Page.SortDirective
import RecordStore.Proofs.Page.SortParameter
import RecordStore.Proofs.Page.Tiling
import RecordStore.Proofs.Page.Window
import RecordStore.Proofs.Placeholder.Aligned
import RecordStore.Proofs.Placeholder.CutText
import RecordStore.Proofs.Placeholder.Direct
import RecordStore.Proofs.Placeholder.OpenQuote
import RecordStore.Proofs.Placeholder.Pieces
import RecordStore.Proofs.Placeholder.Placed
import RecordStore.Proofs.Placeholder.QuotedName
import RecordStore.Proofs.Placeholder.Quotes
import RecordStore.Proofs.Placeholder.Segments
import RecordStore.Proofs.Query.Alignment
import RecordStore.Proofs.Query.Casts
import RecordStore.Proofs.Query.Chain
import RecordStore.Proofs.Query.Count
import RecordStore.Proofs.Query.Fragments
import RecordStore.Proofs.Query.InsertedColumns
import RecordStore.Proofs.Query.InsertedRows
import RecordStore.Proofs.Query.Interleaving
import RecordStore.Proofs.Query.Plain
import RecordStore.Proofs.Query.Pruned
import RecordStore.Proofs.Query.ReadColumns
import RecordStore.Proofs.Query.Scope
import RecordStore.Proofs.Query.ScopedBody
import RecordStore.Proofs.Query.Search
import RecordStore.Proofs.Query.Shape
import RecordStore.Proofs.Query.Substring
import RecordStore.Proofs.Query.Text
import RecordStore.Proofs.Query.Unfiltered
import RecordStore.Proofs.Query.Upsert
import RecordStore.Proofs.Query.Where
import RecordStore.Proofs.Query.WritableColumns
import RecordStore.Proofs.Query.WrittenText
import RecordStore.Proofs.Reading.Condition
import RecordStore.Proofs.Reading.Formula
import RecordStore.Proofs.Reading.Lexeme
import RecordStore.Proofs.Reading.Like
import RecordStore.Proofs.Reading.Name
import RecordStore.Proofs.Reading.Operands
import RecordStore.Proofs.Reading.Reference
import RecordStore.Proofs.Reading.Term
import RecordStore.Proofs.Reading.WellFormed
import RecordStore.Proofs.Repository.AssignedRow
import RecordStore.Proofs.Repository.BatchWalk
import RecordStore.Proofs.Repository.BuiltRow
import RecordStore.Proofs.Repository.Discipline
import RecordStore.Proofs.Repository.Failures
import RecordStore.Proofs.Repository.FilteredWrites
import RecordStore.Proofs.Repository.FindOr
import RecordStore.Proofs.Repository.InsertGroups
import RecordStore.Proofs.Repository.InsertRefusal
import RecordStore.Proofs.Repository.KeyedRows
import RecordStore.Proofs.Repository.Operations
import RecordStore.Proofs.Repository.SearchedColumn
import RecordStore.Proofs.Repository.StoredRows
import RecordStore.Proofs.Repository.UpdateRefusal
import RecordStore.Proofs.Repository.UpdateRun
import RecordStore.Proofs.Repository.Upserts
import RecordStore.Proofs.Repository.WalkTrace
import RecordStore.Proofs.Session.Answers
import RecordStore.Proofs.Session.Discipline
import RecordStore.Proofs.Session.Obstacles
import RecordStore.Proofs.Wire.Formats
import RecordStore.Proofs.Wire.Record
import RecordStore.Query.Basic
import RecordStore.Query.Condition
import RecordStore.Query.Select
import RecordStore.Query.Where
import RecordStore.Query.Write
import RecordStore.Repository.Basic
import RecordStore.Repository.Batches
import RecordStore.Repository.FindOr
import RecordStore.Repository.Insert
import RecordStore.Repository.Read
import RecordStore.Repository.Update
import RecordStore.Search.Keyword
import RecordStore.Search.Wire
import RecordStore.Sql.Conditions
import RecordStore.Sql.Expr
import RecordStore.Sql.Identifier
import RecordStore.Sql.Placeholder
import RecordStore.Sql.SortDirective
import RecordStore.Sql.Statement
import RecordStore.Store.Argument
import RecordStore.Store.Paginate
import RecordStore.Store.Session
import RecordStore.Text.Blank
import RecordStore.Text.Split
