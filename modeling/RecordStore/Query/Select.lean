import RecordStore.Integer.Text
import RecordStore.Query.Where

/-!
# Reading and counting

A read lists columns, joins, filters and groups, and then orders, cuts a window and locks. A count
takes the same rows without order, window and locks; with grouping or distinct rows it counts the
rows of that read.
-/

namespace RecordStore

namespace Query

/-- The columns of a read: the selected ones, or the table's own without the omitted ones, or all
of the table when none is left. -/
def selectList (q : Query) : String :=
  if q.selected.isEmpty then
    let columns := q.identity.columns.filter fun column ↦ !q.omitted.contains column
    if columns.isEmpty then Identifier.quote q.table ++ ".*"
    else String.intercalate ", " (columns.map (Identifier.qualified q.table))
  else String.intercalate ", " (q.selected.map Identifier.quoteExpression)

/-- Joins, each with a blank before it. -/
def joinClause : List Statement → Statement
  | [] => ∅
  | join :: rest => " " ++ (join ++ joinClause rest)

/-- The grouping of a read, with a blank before it. -/
def groupClause (q : Query) : String :=
  if q.grouping.isEmpty then "" else " GROUP BY " ++ String.intercalate ", " q.grouping

/-- The part of a read from the table's name to the grouping. -/
def fromClause (q : Query) (conds : List Condition) : Statement :=
  (" FROM " ++ Identifier.quote q.table) ++
    (joinClause q.joins ++
      (whereClause (q.callerFilters conds ++ q.scope) ++ q.groupClause))

/-- A read without order, window and locks. -/
def unordered (q : Query) (columns : String) (conds : List Condition) : Statement :=
  ("SELECT " ++ (if q.isDistinct then "DISTINCT " else "") ++ columns) ++ q.fromClause conds

/-- The lock that a modifier asks for. -/
def lockText : Clause → String
  | .forUpdate => " FOR UPDATE"
  | .forShare => " FOR SHARE"
  | _ => ""

/-- The order of a read, with a blank before it. -/
def orderClause (q : Query) : String :=
  if q.ordering.isEmpty then "" else " ORDER BY " ++ String.intercalate ", " q.ordering

/-- A keyword and the bound of a window, with a blank before them; nothing without a bound. -/
def boundClause (keyword : String) : Option Int64 → String
  | some n => " " ++ keyword ++ " " ++ integerText n.toInt
  | none => ""

/-- The order, the window and the locks of a read. -/
def windowClause (q : Query) : String :=
  q.orderClause ++ boundClause "LIMIT" q.limit ++ boundClause "OFFSET" q.offset ++
    String.join (q.clauses.map lockText)

/-- The read of the given columns. -/
def selectColumns (q : Query) (columns : String) (conds : List Condition) : Statement :=
  q.unordered columns conds ++ q.windowClause

/-- The read of the query's own columns. -/
def selectStatement (q : Query) (conds : List Condition) : Statement :=
  q.selectColumns q.selectList conds

/-- The number of rows that the query matches. -/
def countStatement (q : Query) (conds : List Condition) : Statement :=
  if q.grouping.isEmpty && !q.isDistinct then q.unordered "COUNT(*)" conds
  else "SELECT COUNT(*) FROM (" ++ q.unordered q.selectList conds ++ ") AS \"counted\""

end Query

end RecordStore
