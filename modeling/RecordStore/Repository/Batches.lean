import RecordStore.Query.Select
import RecordStore.Repository.Basic

/-!
# Walking rows in batches

Rows are visited in the order of the primary key, a bounded number at a time, each batch starting
after the last key of the one before. Every round takes one reply of the store, and a store without
replies ends the walk with an error, so the replies bound the rounds.
-/

namespace RecordStore

/-- The rows of one batch and its number, counted from 1. -/
structure Batch (α : Type) where
  number : Nat
  rows : List α
deriving DecidableEq

/-- What a visitor decides after a batch, given the batches before it. -/
abbrev BatchVisitor (α : Type) : Type :=
  List (Batch α) → Batch α → Except RepositoryError Unit

/-- The batches handed to the visitor and how the walk ended: with the number of rows visited or
with an error. -/
structure BatchWalk (α : Type) where
  batches : List (Batch α)
  outcome : Except RepositoryError Nat

namespace Repository

variable {α : Type}

/-- The number of rows of a batch: the number asked for, at least 1. -/
def batchSize (size : Int64) : Int64 := max size 1

/-- The primary key of the last row of a batch, if it has one. -/
def lastKey? (r : Repository α) (rows : List α) : Option Json :=
  rows.getLast?.bind fun last ↦
    (r.model.toJson last).fieldsOrEmpty.get? r.query.primaryKey

/-- The rows of the batch after a key, with their relations loaded. -/
def fetchBatch (r : Repository α) (size : Int64) (after : Option Json) :
    Action RepositoryError (List α) := do
  let rows ← r.context.database
    (Store.fetchAll r.model.ofRow ((r.query.batch size after).selectStatement []))
  r.loadPreloads rows

/-- The number of rows of several batches. -/
def rowCount (batches : List (Batch α)) : Nat := (batches.flatMap (·.rows)).length

/-- Walks on after the batches visited so far, for at most the given number of rounds. -/
def walkFrom (r : Repository α) (size : Int64) (visit : BatchVisitor α) :
    Nat → Option Json → List (Batch α) → StateM Session (BatchWalk α)
  | 0, _, visited => return ⟨visited, .ok (rowCount visited)⟩
  | rounds + 1, after, visited => do
    match ← (r.fetchBatch size after).run with
    | .error e => return ⟨visited, .error e⟩
    | .ok [] => return ⟨visited, .ok (rowCount visited)⟩
    | .ok rows =>
      let batch : Batch α := ⟨visited.length + 1, rows⟩
      let visitedNow := visited ++ [batch]
      match visit visited batch with
      | .error e => return ⟨visitedNow, .error e⟩
      | .ok () =>
        match r.lastKey? rows with
        | some key =>
          if (rows.length : Int) < size.toInt then
            return ⟨visitedNow, .ok (rowCount visitedNow)⟩
          else r.walkFrom size visit rounds (some key) visitedNow
        | none => return ⟨visitedNow, .ok (rowCount visitedNow)⟩

/-- Walks the rows that match, so many at a time, until they end or the visitor fails. -/
def findInBatches (r : Repository α) (size : Int64) (visit : BatchVisitor α) :
    StateM Session (BatchWalk α) := do
  let session ← get
  r.walkFrom (batchSize size) visit (session.replies.length + 1) none []

end Repository

end RecordStore
