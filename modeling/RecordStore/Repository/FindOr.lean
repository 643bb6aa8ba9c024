import RecordStore.Repository.Insert
import RecordStore.Repository.Read
import RecordStore.Repository.Update

/-!
# Finding a row or making one

Here a missing row is no failure: one is built from the model's default, the equalities of the
conditions, the query's attributes and its assigned values, the later laid over the earlier.
-/

namespace RecordStore

namespace Repository

variable {α : Type}

/-- The fields that a new row gets besides the defaults. -/
def seededFields (r : Repository α) (conds : List Condition) : Fields :=
  ((Fields.ofList (conds.filterMap (Condition.pinned? r.query.primaryKey))).overlay
    r.query.attrs).overlay r.query.assigned

/-- The row that is built when none matches. -/
def initial (r : Repository α) (conds : List Condition) : Except Refusal α :=
  r.model.merge r.model.default (r.seededFields conds)

/-- The first row that matches with the assigned values laid over it, or a new one. Nothing is
written. -/
def findOrInit (r : Repository α) (conds : List Condition) : Action RepositoryError α := do
  match ← r.findOptional conds with
  | some found => r.context.require (r.model.merge found r.query.assigned)
  | none => r.context.require (r.initial conds)

/-- The query that writes to the row with a key and to no other, whatever has been accumulated. -/
def rowScope (r : Repository α) : Query := r.query.reset.unscoped

/-- The primary key of a value; null when it has none. -/
def keyOf (r : Repository α) (x : α) : Json :=
  ((r.model.toJson x).fieldsOrEmpty.get? r.query.primaryKey).getD .null

/-- Writes the assigned values to a row that was found. -/
def assignTo (r : Repository α) (found : α) : Action RepositoryError α := do
  let updated ← r.context.require (r.model.merge found r.query.assigned)
  let _ ← r.write
    (r.rowScope.updateStatement r.query.assigned [.primaryKey (r.keyOf found)])
  return updated

/-- The first row that matches, with the assigned values written to it, or a new row that has been
inserted. -/
def findOrCreate (r : Repository α) (conds : List Condition) : Action RepositoryError α := do
  match ← r.findOptional conds with
  | some found => if r.query.assigned.isEmpty then return found else r.assignTo found
  | none =>
    let row ← r.context.require (r.initial conds)
    let stored ← r.insert r.query [row]
    return stored.getLastD row

end Repository

end RecordStore
