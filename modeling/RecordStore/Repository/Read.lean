import RecordStore.Repository.Basic
import RecordStore.Store.Paginate

/-!
# Reading through a repository

Only the look-up of one row reports a missing record; every other failure is one of the database.
-/

namespace RecordStore

namespace Repository

variable {α β : Type}

/-- All rows that match; none is no failure. -/
def findAll (r : Repository α) (conds : List Condition) : Action RepositoryError (List α) := do
  let rows ← r.context.database
    (Store.fetchAll r.model.ofRow (r.query.selectStatement conds))
  r.loadPreloads rows

/-- The first row that matches, by the primary key after the order there is. -/
def findOne (r : Repository α) (conds : List Condition) : Action RepositoryError α := do
  let row ← r.context.lookup
    (Store.fetchOne r.model.ofRow (r.query.first.selectStatement conds))
  let loaded ← r.loadPreloads [row]
  return loaded.headD row

/-- The first row that matches, if there is one. -/
def findOptional (r : Repository α) (conds : List Condition) :
    Action RepositoryError (Option α) :=
  r.context.database (Store.fetchOptional r.model.ofRow (r.query.first.selectStatement conds))

/-- The number of rows that match. -/
def count (r : Repository α) : Action RepositoryError Int64 :=
  r.context.database (Store.count (r.query.countStatement []))

/-- One page of rows, for a request held to the configuration. -/
def pagination (r : Repository α) (o : PageOptions) :
    Action RepositoryError (Pagination α) := do
  let (items, response) ← r.context.database
    (r.query.paginate r.model.ofRow (o.normalized r.context.config))
  return response.withItems (← r.loadPreloads items)

/-- The one row of a caller's statement. -/
def raw (r : Repository α) (read : RowReader β) (sql : String) (args : List Json) :
    Action RepositoryError β :=
  r.context.lookup (Store.fetchOne read (.withArgs sql args))

/-- All rows of a caller's statement. -/
def rawAll (r : Repository α) (read : RowReader β) (sql : String) (args : List Json) :
    Action RepositoryError (List β) :=
  r.context.database (Store.fetchAll read (.withArgs sql args))

/-- One column of every row that matches. -/
def pluck (r : Repository α) (read : RowReader β) (column : String) :
    Action RepositoryError (List β) :=
  r.context.database
    (Store.fetchAll read (r.query.selectColumns (Identifier.quoteExpression column) []))

/-- Every row that matches, read in a given way. -/
def scan (r : Repository α) (read : RowReader β) : Action RepositoryError (List β) :=
  r.context.database (Store.fetchAll read (r.query.selectStatement []))

end Repository

end RecordStore
