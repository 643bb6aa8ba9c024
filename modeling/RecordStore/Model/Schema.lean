import RecordStore.Model.Basic

/-!
# Models from a list of fields

A schema lists the fields of a row with their types and defaults. The values of its model are the
rows themselves: every field of the schema, each with a value of its type. When a row is read from
JSON, a field has to be there unless it is optional, and other names are ignored. A row of the store
has to have the column of each field, optional or not, unless the schema says that it may lack it.
-/

namespace RecordStore

/-- The type of a field. -/
inductive FieldType where
  /-- A signed 64-bit integer. -/
  | integer
  /-- A number of either kind, held as a real. -/
  | real
  | text
  | flag
  /-- Any JSON value. -/
  | any
  /-- Null or a value of another type. -/
  | optional (type : FieldType)
deriving DecidableEq

namespace FieldType

/-- The value as a value of the type. -/
def read : FieldType → Json → Option Json
  | .integer, v => v.int64?.map fun n ↦ .int n.toInt
  | .real, .number n => some (.number (.real n.toReal))
  | .real, _ => none
  | .text, v => v.string?.map .string
  | .flag, .bool b => some (.bool b)
  | .flag, _ => none
  | .any, v => some v
  | .optional type, v => if v.isNull then some .null else type.read v

/-- What an absent field is read as. -/
def whenAbsent : FieldType → Option Json
  | .optional _ => some .null
  | _ => none

/-- The value of the type that stands for nothing. -/
def zero : FieldType → Json
  | .integer => .int 0
  | .real => .number (.real (.zero false))
  | .text => .string ""
  | .flag => .bool false
  | .any => .null
  | .optional _ => .null

end FieldType

/-- A field of a row. -/
structure SchemaField where
  name : String
  type : FieldType
  default : Json
  /-- Whether a row of the store may lack the column, so that nothing is read for it. -/
  mayLack : Bool
deriving DecidableEq

namespace SchemaField

/-- A field whose column every row of the store has. -/
def column (name : String) (type : FieldType) (default : Json) : SchemaField :=
  ⟨name, type, default, false⟩

/-- A field whose column a row of the store may lack; it is then the zero of its type. -/
def columnOrZero (name : String) (type : FieldType) (default : Json) : SchemaField :=
  ⟨name, type, default, true⟩

/-- The value of a field in a row of the store. -/
def readColumn (field : SchemaField) (row : Row) : Except StoreError Json :=
  match row.get? field.name with
  | some v =>
    match field.type.read v with
    | some value => .ok value
    | none => .error (.columnNotFound field.name)
  | none => if field.mayLack then .ok field.type.zero else .error (.columnNotFound field.name)

/-- A field fails by the name of its column: the row lacks a column that it has to have, or holds
no value of the type in it. -/
theorem readColumn_eq_error_iff (field : SchemaField) (row : Row) (e : StoreError) :
    field.readColumn row = .error e ↔ e = .columnNotFound field.name ∧
      (row.get? field.name).elim (field.mayLack = false) fun v ↦ field.type.read v = none := by
  rw [readColumn]
  cases row.get? field.name with
  | none => cases field.mayLack <;> simp [@eq_comm _ e]
  | some v => cases h : field.type.read v <;> simp [@eq_comm _ e, h]

end SchemaField

/-- The fields of a row. -/
abbrev Schema := List SchemaField

namespace Schema

/-- The row of default values. -/
def defaultRow (schema : Schema) : Fields :=
  .ofList (schema.map fun field ↦ (field.name, field.default))

/-- The row that fields make up. -/
def ofFields? (schema : Schema) (f : Fields) : Option Fields := do
  let entries ← schema.mapM fun field ↦ do
    let value ←
      match f.get? field.name with
      | some v => field.type.read v
      | none => field.type.whenAbsent
    return (field.name, value)
  return .ofList entries

/-- The row that the columns of a row of the store make up. -/
def ofRow (schema : Schema) : RowReader Fields := fun row ↦ do
  let entries ← schema.mapM fun field ↦ do
    let value ← field.readColumn row
    return (field.name, value)
  return .ofList entries

/-- The model of a schema in a table. It knows no relation. -/
def model (schema : Schema) (identity : TableIdentity) : Model Fields :=
  { identity
    default := schema.defaultRow
    toJson := Fields.toJson
    ofFields? := schema.ofFields?
    ofRow := schema.ofRow
    load := Model.unknownRelation identity.table }

end Schema

end RecordStore
