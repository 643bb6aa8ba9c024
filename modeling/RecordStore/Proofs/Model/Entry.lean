import RecordStore.Repository.Batches
import RecordStore.Repository.FindOr

/-!
# Entries of written rows

The key that a row is updated by, and the key that a batch starts after, are entries of the JSON
that the row is written as: the value of the member that is named like the primary key.
-/

namespace RecordStore

/-- The value that the JSON of a value has under a name; none when it is no object with that
name. -/
def Model.entry? {α : Type} (m : Model α) (x : α) (name : String) : Option Json :=
  (m.toJson x).fields?.bind (·.get? name)

private theorem Json.get?_fieldsOrEmpty (v : Json) (name : String) :
    v.fieldsOrEmpty.get? name = v.fields?.bind (·.get? name) := by
  rw [fieldsOrEmpty]
  cases v.fields? with
  | none => exact Fields.get?_empty name
  | some f => rfl

namespace Repository

variable {α : Type} (r : Repository α)

/-- The key of a row is the entry of its JSON, and null when it has none. -/
theorem keyOf_eq (x : α) : r.keyOf x = (r.model.entry? x r.query.primaryKey).getD .null := by
  rw [keyOf, Json.get?_fieldsOrEmpty, Model.entry?]

private theorem lastKey?_eq (rows : List α) :
    r.lastKey? rows =
      rows.getLast?.bind fun last ↦ r.model.entry? last r.query.primaryKey := by
  rw [lastKey?]
  simp only [Json.get?_fieldsOrEmpty, Model.entry?]

variable {r}

/-- The key behind a batch is the entry of the JSON of its last row. -/
theorem lastKey?_eq_some_iff {rows : List α} {key : Json} :
    r.lastKey? rows = some key ↔ ∃ last, rows.getLast? = some last ∧
      r.model.entry? last r.query.primaryKey = some key := by
  rw [lastKey?_eq, Option.bind_eq_some_iff]

/-- There is no key behind a batch exactly when the JSON of its last row has none. -/
theorem lastKey?_eq_none_iff {rows : List α} :
    r.lastKey? rows = none ↔ ∀ last, rows.getLast? = some last →
      r.model.entry? last r.query.primaryKey = none := by
  rw [lastKey?_eq, Option.bind_eq_none_iff]

end Repository

end RecordStore
