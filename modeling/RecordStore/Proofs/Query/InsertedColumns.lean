import RecordStore.Proofs.Query.Fragments

/-!
# What an insertion writes

The rows of an insertion share one list of columns, which are the names of all the fields that are
written. So a column that one row leaves out is null in it, and the primary key must not be such a
column: rows that all have an assigned key carry it together, and rows without one leave it out
together.
-/

namespace RecordStore

/-- A value counts as no key exactly when it is null, the empty text or a zero of either kind. -/
theorem Json.isUnassigned_iff (v : Json) :
    v.isUnassigned = true ↔ v = .null ∨ v = .string "" ∨ ∃ n, v = .number n ∧ n.isZero = true := by
  cases v <;> simp [isUnassigned]

namespace Query

variable {q : Query} {rows : List Fields}

private theorem mem_foldl_union (rows : List Fields) (columns : List String) (column : String) :
    column ∈ rows.foldl
        (fun columns row ↦ columns ++ row.names.filter fun column ↦ !columns.contains column)
        columns ↔
      column ∈ columns ∨ ∃ row ∈ rows, column ∈ row.names := by
  induction rows generalizing columns with
  | nil => simp
  | cons row rest ih =>
    rw [List.foldl_cons, ih, List.mem_append, List.mem_filter, Bool.not_eq_true',
      List.contains_eq_mem, decide_eq_false_iff_not, List.exists_mem_cons_iff]
    by_cases hcolumn : column ∈ columns
    · simp [hcolumn]
    · simp [hcolumn]

/-- Several rows have the names of each of them. -/
theorem mem_columnUnion (rows : List Fields) (column : String) :
    column ∈ columnUnion rows ↔ ∃ row ∈ rows, column ∈ row.names := by
  unfold columnUnion
  rw [mem_foldl_union]
  simp

/-- The columns of an insertion are the names of the fields that are written of some row. -/
theorem mem_insertedColumns (column : String) :
    column ∈ q.insertedColumns rows ↔ ∃ row ∈ rows, column ∈ (q.insertedFields row).names := by
  unfold insertedColumns
  rw [mem_columnUnion]
  simp only [List.mem_map, exists_exists_and_eq_and]

/-- An insertion has no column exactly when no field of its rows is written. -/
theorem insertedColumns_eq_nil_iff :
    q.insertedColumns rows = [] ↔ ∀ row ∈ rows, (q.insertedFields row).names = [] := by
  simp only [List.eq_nil_iff_forall_not_mem, mem_insertedColumns]
  constructor
  · intro h row hrow column hcolumn
    exact h column ⟨row, hrow, hcolumn⟩
  · rintro h column ⟨row, hrow, hcolumn⟩
    exact h row hrow column hcolumn

/-- The insertion of objects into columns. -/
def insertionInto (q : Query) (columns : List String) (objects : List Fields) : Statement :=
  .withArgs
    ("INSERT INTO " ++ Identifier.quote q.table ++ " (" ++ quotedList columns ++ ") SELECT " ++
      quotedList columns ++ " FROM jsonb_populate_recordset(NULL::" ++ Identifier.quote q.table ++
      ", ?::jsonb)" ++ q.conflictClause columns ++ " RETURNING *")
    [.array (objects.map Fields.toJson)]

/-- An insertion is made when some field is written. It has one object for each row, in order. -/
theorem insertStatement_eq_ok_iff (s : Statement) :
    q.insertStatement rows = .ok s ↔ q.insertedColumns rows ≠ [] ∧
      s = q.insertionInto (q.insertedColumns rows) (rows.map q.insertedFields) := by
  rw [insertStatement, ← insertedColumns]
  by_cases hcolumns : q.insertedColumns rows = []
  · simp [hcolumns]
  · simp only [List.isEmpty_iff, hcolumns, ↓reduceIte, Except.ok.injEq, ne_eq, not_false_eq_true,
      true_and]
    exact eq_comm

/-- An insertion is refused when no field is written, and for no other reason. -/
theorem insertStatement_eq_error_iff (refusal : Refusal) :
    q.insertStatement rows = .error refusal ↔
      refusal = .noColumns ∧ ∀ row ∈ rows, (q.insertedFields row).names = [] := by
  rw [insertStatement, ← insertedColumns, ← insertedColumns_eq_nil_iff]
  by_cases hcolumns : q.insertedColumns rows = []
  · simp [hcolumns, eq_comm]
  · simp [hcolumns]

/-! ### The primary key -/

/-- The primary key is written with its value where that is assigned and the column may be
written. -/
theorem get?_insertedFields_primaryKey (row : Fields) :
    (q.insertedFields row).get? q.primaryKey =
      if q.isWritable q.primaryKey then (row.get? q.primaryKey).filter (!·.isUnassigned)
      else none := by
  rw [insertedFields, Fields.get?_filter]
  cases hwritable : q.isWritable q.primaryKey <;> simp

/-- An insertion of a group of rows by one statement, which treats the primary key in one way. -/
structure InsertsGroup (q : Query) (group : List Fields) (s : Statement) : Prop where
  /-- There is one object for each row, in the order of the rows. -/
  objects : s = q.insertionInto (q.insertedColumns group) (group.map q.insertedFields)
  columns : ∀ column, column ∈ q.insertedColumns group ↔
    ∃ row ∈ group, column ∈ (q.insertedFields row).names
  /-- Every object carries an assigned key and the columns hold it, or neither does. -/
  key : (q.primaryKey ∈ q.insertedColumns group ∧ ∀ row ∈ group, ∃ key,
        (q.insertedFields row).get? q.primaryKey = some key ∧ key.isUnassigned = false) ∨
      (q.primaryKey ∉ q.insertedColumns group ∧
        ∀ row ∈ group, (q.insertedFields row).get? q.primaryKey = none)

private theorem primaryKey_mem_insertedColumns_iff :
    q.primaryKey ∈ q.insertedColumns rows ↔
      ∃ row ∈ rows, ∃ key, (q.insertedFields row).get? q.primaryKey = some key := by
  simp only [mem_insertedColumns, Fields.mem_names_iff]

/-- Rows that all have an assigned key, or of which none has one, are inserted as a group. -/
theorem insertsGroup {group : List Fields} {s : Statement} (hs : q.insertStatement group = .ok s)
    (huniform : (∀ row ∈ group, ∃ key, row.get? q.primaryKey = some key ∧
        key.isUnassigned = false) ∨
      ∀ row ∈ group, ∀ key, row.get? q.primaryKey = some key → key.isUnassigned = true) :
    q.InsertsGroup group s := by
  obtain ⟨hcolumns, hobjects⟩ := (insertStatement_eq_ok_iff s).1 hs
  refine ⟨hobjects, mem_insertedColumns, ?_⟩
  by_cases hcarried : ∀ row ∈ group, (q.insertedFields row).get? q.primaryKey = none
  · refine .inr ⟨?_, hcarried⟩
    rw [primaryKey_mem_insertedColumns_iff]
    rintro ⟨row, hrow, key, hkey⟩
    rw [hcarried row hrow] at hkey
    cases hkey
  · -- One row carries the key, so the column may be written and the keys are not unassigned.
    push Not at hcarried
    obtain ⟨row, hrow, hcarries⟩ := hcarried
    rw [get?_insertedFields_primaryKey] at hcarries
    split at hcarries
    · next hwritable =>
      rcases huniform with hassigned | hunassigned
      · have hall : ∀ row ∈ group, ∃ key,
            (q.insertedFields row).get? q.primaryKey = some key ∧ key.isUnassigned = false := by
          intro row hrow
          obtain ⟨key, hkey, hblank⟩ := hassigned row hrow
          refine ⟨key, ?_, hblank⟩
          rw [get?_insertedFields_primaryKey, if_pos hwritable, hkey, Option.filter_some, hblank]
          rfl
        obtain ⟨key, hkey, -⟩ := hall row hrow
        exact .inl ⟨primaryKey_mem_insertedColumns_iff.2 ⟨row, hrow, key, hkey⟩, hall⟩
      · cases hkey : row.get? q.primaryKey with
        | none =>
          rw [hkey] at hcarries
          exact absurd rfl hcarries
        | some key =>
          rw [hkey, Option.filter_some, hunassigned row hrow key hkey] at hcarries
          exact absurd rfl hcarries
    · exact absurd rfl hcarries

end Query

end RecordStore
