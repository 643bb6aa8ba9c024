import RecordStore.Query.Basic
import RecordStore.Store.Session

/-!
# Models

A model says how the rows of one table are read, written, defaulted and completed by relations.
-/

namespace RecordStore

/-- How values of a type are stored in one table. -/
structure Model (α : Type) where
  identity : TableIdentity
  /-- The value that a new row starts from. -/
  default : α
  /-- A value as JSON; an object unless the values are not rows. Every value can be written: a type
  with values that have no JSON, such as a map with keys that are no texts, has no model here. -/
  toJson : α → Json
  /-- The value that fields make up, if they do. Why they do not is not told. -/
  ofFields? : Fields → Option α
  /-- The value of a row of the store. -/
  ofRow : RowReader α
  /-- Loads a relation into rows that have been fetched. -/
  load : Preload → List α → Except StoreError (List α)

namespace Model

/-- The loading of a model that knows no relation. -/
def unknownRelation {α : Type} (table : String) (p : Preload) (_ : List α) :
    Except StoreError (List α) :=
  .error
    (.configuration ("unknown relation `" ++ p.relation ++ "` for table `" ++ table ++ "`"))

/-- A query of the model's table. -/
def query {α : Type} (m : Model α) : Query := .ofIdentity m.identity

/-- The fields that a value is written as. -/
def fields {α : Type} (m : Model α) (x : α) : Except Refusal Fields :=
  match (m.toJson x).fields? with
  | some f => .ok f
  | none => .error (.notAnObject (m.toJson x))

/-- A value with given fields laid over its own. -/
def merge {α : Type} (m : Model α) (base : α) (patch : Fields) : Except Refusal α := do
  let own ← m.fields base
  match m.ofFields? (own.overlay patch) with
  | some x => return x
  | none => throw .unreadable

/-- Whether fields are a whole value: they make up one that is written as the same fields again. -/
def isWhole {α : Type} (m : Model α) (f : Fields) : Bool :=
  match m.ofFields? f with
  | some x => (m.toJson x).sameValue f.toJson
  | none => false

/-- The fields of an object that an update writes. Null is never written; a whole value leaves out
what equals the default as well. -/
def changedFields {α : Type} (m : Model α) (f : Fields) : Except Refusal Fields := do
  let defaults ← m.fields m.default
  let whole := m.isWhole f
  return f.filter fun name value ↦
    !value.isNull && !(whole && (defaults.get? name).any (·.sameValue value))

end Model

end RecordStore
