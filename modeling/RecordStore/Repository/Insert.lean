import RecordStore.Query.Write
import RecordStore.Repository.Basic

/-!
# Inserting through a repository

Rows with an assigned primary key and rows that leave it to the store cannot share a list of
columns, so they are inserted by two statements, the keyed rows first. When each statement gave
back as many rows as it was given, the rows come back in the order of the input.
-/

namespace RecordStore

namespace Repository

variable {α : Type}

/-- Whether a row has an assigned primary key. -/
def isKeyed (primaryKey : String) (row : Fields) : Bool :=
  (row.get? primaryKey).any fun value ↦ !value.isUnassigned

/-- Rows with their positions in the input, those with an assigned primary key first. -/
def partitionByKey (primaryKey : String) (rows : List Fields) :
    List (Fields × Nat) × List (Fields × Nat) :=
  rows.zipIdx.partition fun row ↦ isKeyed primaryKey row.1

/-- Stored rows with the positions of their inputs, and whether there is one for each input. -/
structure Stored (α : Type) where
  rows : List (Nat × α)
  complete : Bool

/-- No rows, with nothing missing. -/
def Stored.none : Stored α := ⟨[], true⟩

/-- The rows of two statements. -/
def Stored.append (first second : Stored α) : Stored α :=
  ⟨first.rows ++ second.rows, first.complete && second.complete⟩

/-- The rows in the order of the input when each input has one, and else as they came. -/
def Stored.inOrder (s : Stored α) : List α :=
  (if s.complete then s.rows.mergeSort fun a b ↦ a.1 ≤ b.1 else s.rows).map (·.2)

/-- Inserts one group of rows by one statement; without rows nothing is executed. -/
def insertGroup (r : Repository α) (q : Query) (rows : List (Fields × Nat)) :
    Action RepositoryError (Stored α) := do
  if rows.isEmpty then return .none
  let statement ← r.context.require (q.insertStatement (rows.map (·.1)))
  let stored ← r.context.database (Store.fetchAll r.model.ofRow statement)
  return ⟨(rows.map (·.2)).zip stored, stored.length = rows.length⟩

/-- Inserts values by a query and gives them back as stored. -/
def insert (r : Repository α) (q : Query) (values : List α) :
    Action RepositoryError (List α) := do
  if values.isEmpty then return []
  let rows ← r.context.require (values.mapM r.model.fields)
  let (keyed, fresh) := partitionByKey q.primaryKey rows
  let first ← r.insertGroup q keyed
  let second ← r.insertGroup q fresh
  return (first.append second).inOrder

/-- Inserts values and gives them back as stored. -/
def create (r : Repository α) (values : List α) : Action RepositoryError (List α) :=
  r.insert r.query values

/-- Inserts values, updating every written column of a row that is there already. -/
def save (r : Repository α) (values : List α) : Action RepositoryError (List α) :=
  r.insert (r.query.clause .onConflictUpdateAll) values

end Repository

end RecordStore
