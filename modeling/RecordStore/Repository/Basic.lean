import RecordStore.Model.Basic

/-!
# Repositories

A repository binds a model to a unit of work and to the query that has been accumulated for it.
-/

namespace RecordStore

/-- A model, the unit of work it is used in and the query accumulated so far. -/
structure Repository (α : Type) where
  model : Model α
  context : Context
  query : Query

namespace Repository

variable {α : Type}

/-- The repository of a model with nothing accumulated. -/
def ofModel (model : Model α) (context : Context) : Repository α :=
  ⟨model, context, model.query⟩

/-- The repository with its query changed. -/
def refine (r : Repository α) (change : Query → Query) : Repository α :=
  { r with query := change r.query }

/-- The repository with nothing accumulated. -/
def newSession (r : Repository α) : Repository α := r.refine Query.reset

/-- Loads relations into rows one after the other. -/
def loadEach (r : Repository α) : List Preload → List α → Action RepositoryError (List α)
  | [], rows => return rows
  | p :: rest, rows => do
    let loaded ← r.context.database (.ofExcept (r.model.load p rows))
    r.loadEach rest loaded

/-- Loads the relations of the query into rows; without rows nothing is loaded. -/
def loadPreloads (r : Repository α) (rows : List α) : Action RepositoryError (List α) :=
  if rows.isEmpty then return rows else r.loadEach r.query.preloads rows

end Repository

end RecordStore
