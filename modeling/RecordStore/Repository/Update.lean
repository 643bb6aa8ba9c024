import RecordStore.Query.Write
import RecordStore.Repository.Basic

/-!
# Updating and deleting through a repository

Values to update are handled one after the other: each is checked, narrowed by its own primary key,
reduced to the fields that change and executed before the next one is looked at.
-/

namespace RecordStore

namespace Repository

variable {α : Type}

/-- Executes the statement of a write, if it is not refused. -/
def write (r : Repository α) (statement : Except Refusal Statement) :
    Action RepositoryError Nat := do
  r.context.database (Store.execute (← r.context.require statement))

/-- The condition that narrows an update to the row that its fields name. -/
def keyConditions (primaryKey : String) (f : Fields) : List Condition :=
  match f.get? primaryKey with
  | some key => if key.isUnassigned then [] else [.primaryKey key]
  | none => []

/-- Updates one row, or every row that the query matches, by the changed fields of an object. An
object with nothing to write affects no row. -/
def updateOne (r : Repository α) (value : Json) : Action RepositoryError Nat := do
  match value.fields? with
  | none => r.context.fail ⟨.database, .refusal (.notAnObject value)⟩
  | some f =>
    let changed ← r.context.require (r.model.changedFields f)
    match r.query.updateStatement changed (keyConditions r.query.primaryKey f) with
    | .error .noColumns => return 0
    | statement => r.write statement

/-- Updates by each value of a list in turn and counts the rows affected. -/
def updateEach (r : Repository α) : List Json → Action RepositoryError Nat
  | [] => return 0
  | value :: rest => do
    let affected ← r.updateOne value
    return affected + (← r.updateEach rest)

/-- Updates by a value, or by each item of an array, and counts the rows affected. -/
def update (r : Repository α) (values : Json) : Action RepositoryError Nat :=
  match values with
  | .array items => r.updateEach items
  | value => r.updateEach [value]

/-- Sets one column in every row that the query matches. -/
def updateColumn (r : Repository α) (column : String) (value : Json) :
    Action RepositoryError Nat :=
  r.write (r.query.updateStatement (.singleton column value) [])

/-- Deletes rows, softly in a table that keeps deleted rows. -/
def delete (r : Repository α) (conds : List Condition) : Action RepositoryError Nat :=
  r.write (r.query.deleteStatement conds .soft)

/-- Deletes rows for good, those marked as deleted too. -/
def hardDelete (r : Repository α) (conds : List Condition) : Action RepositoryError Nat :=
  r.write (r.query.deleteStatement conds .hard)

/-- Executes a caller's statement and counts the rows affected. -/
def exec (r : Repository α) (sql : String) (args : List Json) : Action RepositoryError Nat :=
  r.context.database (Store.execute (.withArgs sql args))

end Repository

end RecordStore
