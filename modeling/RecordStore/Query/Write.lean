import RecordStore.Error.Refusal
import RecordStore.Query.Where

/-!
# Writing

Rows are written as one JSON argument that the database takes apart by column, so the text of a
statement holds names alone. A column is written when it is selected, not omitted and one of the
table's own. A write without a caller's filter is refused, whatever the scope.
-/

namespace RecordStore

namespace Query

/-- Whether a column may be written. -/
def isWritable (q : Query) (column : String) : Bool :=
  (q.selected.isEmpty || q.selected.contains column) && !q.omitted.contains column &&
    (q.identity.columns.isEmpty || q.identity.columns.contains column)

/-- Names as quoted identifiers with commas between them. -/
def quotedList (columns : List String) : String :=
  String.intercalate ", " (columns.map Identifier.quote)

/-- The fields of a row that an insertion writes: the writable ones, and the primary key only when
it has been assigned. -/
def insertedFields (q : Query) (row : Fields) : Fields :=
  row.filter fun column value ↦
    !(column = q.primaryKey && value.isUnassigned) && q.isWritable column

/-- The names of several rows, each once, in the order in which they first appear. -/
def columnUnion (rows : List Fields) : List String :=
  rows.foldl
    (fun columns row ↦
      columns ++ row.names.filter fun column ↦ !columns.contains column)
    []

/-- The columns that a clause updates when an inserted row is there already; the empty list stands
for skipping the row. -/
def conflictColumns? (primaryKey : String) (written : List String) : Clause → Option (List String)
  | .onConflictDoNothing => some []
  | .onConflictUpdateAll => some (written.filter (· ≠ primaryKey))
  | .onConflictUpdate columns => some columns
  | .forUpdate => none
  | .forShare => none

/-- A column that takes the value it would have been inserted with. -/
def excludedAssignment (column : String) : String :=
  Identifier.quote column ++ " = EXCLUDED." ++ Identifier.quote column

/-- What happens to an inserted row that is there already, by the first clause that says so. -/
def conflictClause (q : Query) (written : List String) : String :=
  match q.clauses.findSome? (conflictColumns? q.primaryKey written) with
  | none => ""
  | some [] => " ON CONFLICT DO NOTHING"
  | some columns =>
    " ON CONFLICT (" ++ Identifier.quote q.primaryKey ++ ") DO UPDATE SET " ++
      String.intercalate ", " (columns.map excludedAssignment)

/-- The insertion of rows, which gives back the rows as stored. -/
def insertStatement (q : Query) (rows : List Fields) : Except Refusal Statement :=
  let payload := rows.map q.insertedFields
  let columns := columnUnion payload
  if columns.isEmpty then .error .noColumns
  else
    let table := Identifier.quote q.table
    let list := quotedList columns
    .ok
      (.withArgs
        ("INSERT INTO " ++ table ++ " (" ++ list ++ ") SELECT " ++ list ++
          " FROM jsonb_populate_recordset(NULL::" ++ table ++ ", ?::jsonb)" ++
          q.conflictClause columns ++ " RETURNING *")
        [.array (payload.map Fields.toJson)])

/-- The fields that an update writes: the writable ones without the primary key. -/
def updatedFields (q : Query) (values : Fields) : Fields :=
  values.filter fun column _ ↦ column ≠ q.primaryKey && q.isWritable column

/-- The left side of an assignment: one column, or several in parentheses. -/
def updateTarget (columns : List String) : String :=
  if columns.length = 1 then quotedList columns else "(" ++ quotedList columns ++ ")"

/-- The update of the rows that the query and the conditions match. -/
def updateStatement (q : Query) (values : Fields) (conds : List Condition) :
    Except Refusal Statement :=
  let filters := q.callerFilters conds
  let written := q.updatedFields values
  if filters.isEmpty then .error (.unfiltered .update)
  else if written.isEmpty then .error .noColumns
  else
    let table := Identifier.quote q.table
    .ok
      (.withArgs
          ("UPDATE " ++ table ++ " SET " ++ updateTarget written.names ++ " = (SELECT " ++
            quotedList written.names ++ " FROM jsonb_populate_record(NULL::" ++ table ++
            ", ?::jsonb))")
          [written.toJson] ++
        whereClause (filters ++ q.scope))

/-- How rows are deleted. -/
inductive Deletion where
  /-- Marked as deleted, in a table that keeps deleted rows. -/
  | soft
  /-- Removed for good, those marked as deleted too. -/
  | hard
deriving DecidableEq

/-- The deletion of the rows that the query and the conditions match. A soft one in a table without
a mark of deletion removes the rows. -/
def deleteStatement (q : Query) (conds : List Condition) (deletion : Deletion) :
    Except Refusal Statement :=
  let filters := q.callerFilters conds
  let table := Identifier.quote q.table
  if filters.isEmpty then .error (.unfiltered .delete)
  else
    match q.identity.softDelete, deletion with
    | some column, .soft =>
      .ok (("UPDATE " ++ table ++ " SET " ++ Identifier.quote column ++ " = NOW()") ++
        whereClause (filters ++ q.scope))
    | _, _ => .ok (("DELETE FROM " ++ table) ++ whereClause filters)

end Query

end RecordStore
