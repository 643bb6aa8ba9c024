import RecordStore.Model.Schema
import RecordStore.Proofs.Reading.Operands
import RecordStore.Proofs.Session.Answers

/-!
# Models that read each field by itself

A model reads each field by itself when the value under a name, or its absence, decides alone what
the field is written as once the fields have been read. A value that has been read is read as
itself, so the fields of a row of the store are written as they are. Schemas make up such models.
-/

namespace RecordStore

/-- A model that reads each field by itself: `read` tells what a field is written as when it was
there with a value or absent. Rows of the store are written as they read. -/
structure Model.ReadsEach {α : Type} (m : Model α) (read : String → Option Json → Option Json) :
    Prop where
  ofFields : ∀ f x, m.ofFields? f = some x →
    ∃ own, m.fields x = .ok own ∧ ∀ name, own.get? name = read name (f.get? name)
  ofRow : ∀ row x, m.ofRow row = .ok x →
    ∃ own, m.fields x = .ok own ∧ ∀ name, read name (own.get? name) = own.get? name

/-- A value that has been read as one of a type is read as itself. -/
theorem FieldType.read_of_read {type : FieldType} {v w : Json} (h : type.read v = some w) :
    type.read w = some w := by
  induction type generalizing v with
  | integer =>
    obtain ⟨n, -, rfl⟩ := Option.map_eq_some_iff.1 h
    have hn : toInt64? n.toInt = some n := toInt64?_eq_some_iff.2 rfl
    change (toInt64? n.toInt).map _ = _
    rw [hn]
    rfl
  | real =>
    cases v with
    | number n =>
      cases h
      rfl
    | _ => cases h
  | text =>
    obtain ⟨s, -, rfl⟩ := Option.map_eq_some_iff.1 h
    rfl
  | flag =>
    cases v with
    | bool b =>
      cases h
      rfl
    | _ => cases h
  | any => rfl
  | optional type ih =>
    rw [read] at h ⊢
    split
    · next hnull =>
      cases w <;> first | rfl | cases hnull
    · next hvalue =>
      split at h
      · cases h
        exact absurd rfl hvalue
      · exact ih h

/-- Nothing is read as a value of the type. -/
theorem FieldType.read_zero (type : FieldType) : type.read type.zero = some type.zero := by
  cases type <;> rfl

/-- What is read from a row of the store is read as itself. -/
theorem SchemaField.read_of_readColumn (field : SchemaField) {row : Row} {value : Json}
    (h : field.readColumn row = .ok value) : field.type.read value = some value := by
  rw [readColumn] at h
  cases hcolumn : row.get? field.name with
  | none =>
    rw [hcolumn] at h
    dsimp only at h
    split at h
    · cases h
      exact field.type.read_zero
    · cases h
  | some v =>
    rw [hcolumn] at h
    dsimp only at h
    split at h
    · next read hread =>
      cases h
      exact FieldType.read_of_read hread
    · cases h

namespace Schema

/-- The value of the last field with a name, read as one of its type. -/
def readField (schema : Schema) (name : String) (value : Option Json) : Option Json :=
  (schema.reverse.find? (·.name = name)).bind fun field ↦
    value.elim field.type.whenAbsent field.type.read

variable {schema : Schema} {entries : List (String × Json)}

private theorem lookup_of_forall₂ {value : SchemaField → Option Json}
    (h : List.Forall₂ (fun field entry ↦ entry.1 = field.name ∧ value field = some entry.2)
      schema entries) (name : String) :
    Fields.lookup name entries = (schema.find? (·.name = name)).bind value := by
  induction h with
  | nil => rfl
  | @cons field entry fields rest hfield _ ih =>
    obtain ⟨hname, hvalue⟩ := hfield
    rw [Fields.lookup, List.find?_cons, hname]
    by_cases heq : field.name = name
    · simp [heq, hvalue]
    · simp [heq, ih]

-- Of several entries with a name, and of several fields, the last one counts.
private theorem get?_ofList_of_forall₂ {value : SchemaField → Option Json}
    (h : List.Forall₂ (fun field entry ↦ entry.1 = field.name ∧ value field = some entry.2)
      schema entries) (name : String) :
    (Fields.ofList entries).get? name =
      (schema.reverse.find? (·.name = name)).bind value := by
  rw [Fields.get?_ofList]
  exact lookup_of_forall₂ (List.forall₂_reverse_iff.2 h) name

/-- The rows of a schema are written as they are. -/
theorem fields_model (identity : TableIdentity) (f : Fields) :
    (schema.model identity).fields f = .ok f := by
  rw [Model.fields, show (schema.model identity).toJson f = f.toJson from rfl,
    Json.fields?_toJson]

-- The last field with a name has that name.
private theorem bind_find?_congr {value : SchemaField → Option Json} {name : String}
    {read : SchemaField → Option Json} (h : ∀ field, field.name = name → value field = read field) :
    (schema.reverse.find? (·.name = name)).bind value =
      (schema.reverse.find? (·.name = name)).bind read := by
  cases hfind : schema.reverse.find? (·.name = name) with
  | none => rfl
  | some field =>
    have hname : field.name = name := by simpa using List.find?_some hfind
    exact h field hname

private theorem readsEach_ofFields {f x : Fields} (h : schema.ofFields? f = some x)
    (name : String) : x.get? name = schema.readField name (f.get? name) := by
  obtain ⟨entries, hentries, hx⟩ := Option.bind_eq_some_iff.1 h
  cases hx
  have hread : List.Forall₂ (fun field entry ↦ entry.1 = field.name ∧
      (f.get? field.name).elim field.type.whenAbsent field.type.read = some entry.2)
      schema entries := by
    refine (Reading.mapM_eq_some_iff.1 hentries).imp ?_
    intro field entry hentry
    -- What is read differs in the two cases, what is made of it does not.
    cases hvalue : f.get? field.name
    all_goals
      simp only [hvalue] at hentry
      obtain ⟨value, hread, heq⟩ := Option.bind_eq_some_iff.1 hentry
      cases heq
      exact ⟨rfl, hread⟩
  rw [get?_ofList_of_forall₂ hread, readField]
  apply bind_find?_congr
  rintro field rfl
  rfl

private theorem readsEach_ofRow {row x : Fields} (h : schema.ofRow row = .ok x) (name : String) :
    schema.readField name (x.get? name) = x.get? name := by
  obtain ⟨entries, hentries, hx⟩ := exists_of_bind_eq_ok h
  cases hx
  have hread : List.Forall₂ (fun field entry ↦ entry.1 = field.name ∧
      (field.readColumn row).toOption = some entry.2) schema entries := by
    refine (forall₂_of_mapM_eq_ok hentries).imp ?_
    intro field entry hentry
    obtain ⟨value, hvalue, heq⟩ := exists_of_bind_eq_ok hentry
    cases heq
    rw [hvalue]
    exact ⟨rfl, rfl⟩
  rw [get?_ofList_of_forall₂ hread, readField]
  cases hfind : schema.reverse.find? (·.name = name) with
  | none => rfl
  | some field =>
    have hmem : field ∈ schema := List.mem_reverse.1 (List.mem_of_find?_eq_some hfind)
    obtain ⟨entry, -, -, hvalue⟩ := Reading.exists_mem_of_forall₂ hread.flip hmem
    rw [Option.bind_some, Option.bind_some, hvalue]
    cases hcolumn : field.readColumn row with
    | error e =>
      rw [hcolumn] at hvalue
      cases hvalue
    | ok value =>
      rw [hcolumn] at hvalue
      cases hvalue
      exact field.read_of_readColumn hcolumn

/-- The model of a schema reads each field by itself, as one of its type. -/
theorem readsEach_model (schema : Schema) (identity : TableIdentity) :
    (schema.model identity).ReadsEach schema.readField where
  ofFields := fun _ x h ↦ ⟨x, fields_model identity x, readsEach_ofFields h⟩
  ofRow := fun _ x h ↦ ⟨x, fields_model identity x, readsEach_ofRow h⟩

end Schema

end RecordStore
