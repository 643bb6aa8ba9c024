import RecordStore.Error.Refusal
import RecordStore.Error.Store

/-!
# Errors of a repository

A repository fails in two kinds, a missing record and everything else, each with a stable code, a
status for an outer layer and the cause that it wraps.
-/

namespace RecordStore

/-- The kinds of failure of a repository. -/
inductive ErrorKind where
  /-- A look-up of one row found none. -/
  | notFound
  /-- Any other failure. -/
  | database
deriving DecidableEq

namespace ErrorKind

/-- The stable code of a kind. -/
def code : ErrorKind → String
  | .notFound => "NOT_FOUND"
  | .database => "DATABASE_ERROR"

/-- The status that an outer layer usually answers with. -/
def status : ErrorKind → Nat
  | .notFound => 404
  | .database => 500

end ErrorKind

/-- What an error wraps. -/
inductive Cause where
  /-- A failure that the store reported. -/
  | store (e : StoreError)
  /-- A statement that was not built. -/
  | refusal (r : Refusal)
  /-- A message of the caller. -/
  | note (message : String)
deriving DecidableEq

/-- The text of a cause. -/
def Cause.message : Cause → String
  | .store e => e.message
  | .refusal r => r.message
  | .note message => message

/-- An error of a repository. -/
structure RepositoryError where
  kind : ErrorKind
  cause : Cause
deriving DecidableEq

namespace RepositoryError

/-- Whether an error says that a record is missing. -/
def isNotFound (e : RepositoryError) : Bool := e.kind = .notFound

/-- The text of an error: its kind and its cause. -/
def message (e : RepositoryError) : String :=
  match e.kind with
  | .notFound => "Not found: " ++ e.cause.message
  | .database => "Database error: " ++ e.cause.message

end RepositoryError

/-- The kind of a failure of a statement that looks up one row: a missing row is a missing record,
and everything else is a failure of the database. -/
def StoreError.lookupKind : StoreError → ErrorKind
  | .rowNotFound => .notFound
  | _ => .database

/-- The error of a statement that looks up one row. -/
def RepositoryError.ofLookup (e : StoreError) : RepositoryError := ⟨e.lookupKind, .store e⟩

/-- The error of a statement of another kind, which never says that a record is missing. -/
def RepositoryError.ofStore (e : StoreError) : RepositoryError := ⟨.database, .store e⟩

/-- A look-up reports a missing record exactly when the store gave no row. -/
theorem isNotFound_ofLookup_iff (e : StoreError) :
    (RepositoryError.ofLookup e).isNotFound = true ↔ e = .rowNotFound := by
  cases e <;> simp [RepositoryError.ofLookup, RepositoryError.isNotFound, StoreError.lookupKind]

end RecordStore
