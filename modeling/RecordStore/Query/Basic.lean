import RecordStore.Json.Fields
import RecordStore.Query.Condition
import RecordStore.Search.Keyword
import RecordStore.Sql.Statement

/-!
# Queries

A query names a table and accumulates filters, joins, order, a window and write options for it.
The table's identity, which is its name, primary key, columns and the column that marks a row as
deleted, stays when everything accumulated is dropped.
-/

namespace RecordStore

/-- A modifier of a statement. -/
inductive Clause where
  /-- An inserted row that is there already is skipped. -/
  | onConflictDoNothing
  /-- An inserted row that is there already takes every written column. -/
  | onConflictUpdateAll
  /-- An inserted row that is there already takes the listed columns. -/
  | onConflictUpdate (columns : List String)
  /-- Rows are locked for an update. -/
  | forUpdate
  /-- Rows are locked against updates. -/
  | forShare
deriving DecidableEq

/-- A relation to load into fetched rows. -/
structure Preload where
  relation : String
  args : List Json
deriving DecidableEq

/-- What a query says about its table. -/
structure TableIdentity where
  table : String
  primaryKey : String
  /-- The columns that are read and written; none stands for all of them. -/
  columns : List String
  /-- The column that marks a row as deleted, in a table that keeps deleted rows. -/
  softDelete : Option String
deriving DecidableEq

/-- A table with primary key `id`, all columns and no mark of deletion. -/
def TableIdentity.named (table : String) : TableIdentity := ⟨table, "id", [], none⟩

/-- A query under construction. -/
structure Query where
  identity : TableIdentity
  filters : List Expr := []
  joins : List Statement := []
  ordering : List String := []
  grouping : List String := []
  limit : Option Int64 := none
  offset : Option Int64 := none
  isDistinct : Bool := false
  selected : List String := []
  omitted : List String := []
  preloads : List Preload := []
  /-- Whether rows marked as deleted take part. -/
  includesDeleted : Bool := false
  clauses : List Clause := []
  /-- Values of a row that is built because none was found. -/
  attrs : Fields := ∅
  /-- Values of a row whether it is found or built. -/
  assigned : Fields := ∅

namespace Query

/-- A query of a table with nothing accumulated. -/
def ofIdentity (identity : TableIdentity) : Query := { identity }

/-- A query of a table with primary key `id`, reading all columns. -/
def ofTable (table : String) : Query := ofIdentity (.named table)

/-- The name of the table. -/
def table (q : Query) : String := q.identity.table

/-- The name of the primary key. -/
def primaryKey (q : Query) : String := q.identity.primaryKey

/-- The quoted primary key with its table. -/
def keyColumn (q : Query) : String := Identifier.qualified q.table q.primaryKey

/-- The same table with nothing accumulated. -/
def reset (q : Query) : Query := ofIdentity q.identity

/-- The query on another table of the same shape. -/
def withTable (q : Query) (table : String) : Query :=
  { q with identity := { q.identity with table } }

/-- The query with a column that marks rows as deleted. -/
def withSoftDelete (q : Query) (column : String) : Query :=
  { q with identity := { q.identity with softDelete := some column } }

/-- The query with another primary key. -/
def withPrimaryKey (q : Query) (primaryKey : String) : Query :=
  { q with identity := { q.identity with primaryKey } }

/-- Adds a filter, unless it writes nothing. -/
def filter (q : Query) (e : Expr) : Query :=
  if e.isEmpty then q else { q with filters := q.filters ++ [e] }

/-- Adds hand-written SQL as a filter. -/
def filterRaw (q : Query) (sql : String) (args : List Json) : Query := q.filter (.raw sql args)

/-- Adds the equality of a column and a value. -/
def filterEqual (q : Query) (column : String) (value : Json) : Query :=
  q.filter (Condition.equality (Identifier.quoteReference column) value)

/-- Adds the filter of a keyword group, if there is a group and it has one. -/
def search (q : Query) (group : Option KeywordGroup) : Query :=
  match group.bind KeywordGroup.compile with
  | some e => q.filter e
  | none => q

/-- Adds that a text occurs in one of several columns. -/
def searchText (q : Query) (text : String) (columns : List String) : Query :=
  q.search (some (.anywhere text columns))

/-- Adds hand-written SQL after the table's name. -/
def join (q : Query) (sql : String) (args : List Json) : Query :=
  { q with joins := q.joins ++ [.withArgs sql args] }

/-- Adds a term to the order, unless it is blank. -/
def orderBy (q : Query) (term : String) : Query :=
  if isBlankText term then q else { q with ordering := q.ordering ++ [term] }

/-- Adds a term to the grouping. -/
def groupBy (q : Query) (term : String) : Query :=
  { q with grouping := q.grouping ++ [term] }

/-- The bound of a window; a negative one is none. -/
def bound? (n : Int64) : Option Int64 := if 0 ≤ n then some n else none

/-- Sets how many rows are read at most; a negative number lifts the limit. -/
def withLimit (q : Query) (n : Int64) : Query := { q with limit := bound? n }

/-- Sets how many rows are skipped; a negative number skips none. -/
def withOffset (q : Query) (n : Int64) : Query := { q with offset := bound? n }

/-- Reads equal rows once. -/
def distinct (q : Query) : Query := { q with isDistinct := true }

/-- Sets the columns that are read and written, in place of those set before. -/
def select (q : Query) (columns : List String) : Query := { q with selected := columns }

/-- Adds columns that are neither read by default nor written. -/
def omitting (q : Query) (columns : List String) : Query :=
  { q with omitted := q.omitted ++ columns }

/-- Adds a relation to load. -/
def preload (q : Query) (p : Preload) : Query := { q with preloads := q.preloads ++ [p] }

/-- Lets rows marked as deleted take part. -/
def unscoped (q : Query) : Query := { q with includesDeleted := true }

/-- Adds a modifier. -/
def clause (q : Query) (c : Clause) : Query := { q with clauses := q.clauses ++ [c] }

/-- Adds values for a row that is built. -/
def withAttrs (q : Query) (values : Fields) : Query :=
  { q with attrs := q.attrs.overlay values }

/-- Adds values for a row whether it is found or built. -/
def assign (q : Query) (values : Fields) : Query :=
  { q with assigned := q.assigned.overlay values }

/-- The query of the first row, by the primary key after the order there is. -/
def first (q : Query) : Query :=
  { q with ordering := q.ordering ++ [q.keyColumn], limit := some 1 }

/-- The query of the next rows by the primary key alone, after the row with a given key. -/
def batch (q : Query) (size : Int64) (after : Option Json) : Query :=
  let ordered := { q with ordering := [q.keyColumn], limit := some size, offset := none }
  match after with
  | some key => ordered.filterRaw (q.keyColumn ++ " > ?") [key]
  | none => ordered

end Query

end RecordStore
