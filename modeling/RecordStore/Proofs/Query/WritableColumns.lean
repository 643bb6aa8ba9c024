import RecordStore.Proofs.Query.WrittenText

/-!
# Which columns a write assigns

Select, omit and the table's own columns say together which columns may be written. The columns of
an insertion and of an update are always such columns, and so are those that an inserted row which
is there already takes all at once. Only an explicit list of columns for such rows is taken as it
stands.
-/

namespace RecordStore

open Reading

/-- Whether a clause says what happens to an inserted row that is there already. -/
def Clause.isOnConflict : Clause → Bool
  | .onConflictDoNothing => true
  | .onConflictUpdateAll => true
  | .onConflictUpdate _ => true
  | .forUpdate => false
  | .forShare => false

namespace Query

variable {q : Query} {rows : List Fields}

/-- A column that may be written. -/
structure Writable (q : Query) (column : String) : Prop where
  selected : q.selected ≠ [] → column ∈ q.selected
  kept : column ∉ q.omitted
  declared : q.identity.columns ≠ [] → column ∈ q.identity.columns

/-- The test for columns that may be written finds these. -/
theorem isWritable_iff (column : String) : q.isWritable column = true ↔ q.Writable column := by
  have hlimits (columns : List String) :
      (columns.isEmpty || columns.contains column) = true ↔ (columns ≠ [] → column ∈ columns) := by
    cases columns <;> simp
  rw [isWritable, Bool.and_eq_true, Bool.and_eq_true, hlimits, hlimits]
  constructor
  · rintro ⟨⟨hselected, hkept⟩, hdeclared⟩
    exact ⟨hselected, by simpa using hkept, hdeclared⟩
  · rintro ⟨hselected, hkept, hdeclared⟩
    exact ⟨⟨hselected, by simpa using hkept⟩, hdeclared⟩

/-- An insertion writes the fields of a row that may be written, and an unassigned primary key is no
such field. -/
theorem get?_insertedFields_eq_some_iff (row : Fields) (column : String) (value : Json) :
    (q.insertedFields row).get? column = some value ↔
      row.get? column = some value ∧ q.Writable column ∧
        ¬(column = q.primaryKey ∧ value.isUnassigned = true) := by
  rw [insertedFields, Fields.get?_filter, Option.filter_eq_some_iff, ← isWritable_iff]
  simp only [Bool.and_eq_true, Bool.not_eq_true', Bool.and_eq_false_iff, decide_eq_false_iff_not,
    not_and_or, Bool.not_eq_true]
  tauto

/-- An update writes the fields that may be written, without the primary key. -/
theorem get?_updatedFields_eq_some_iff (values : Fields) (column : String) (value : Json) :
    (q.updatedFields values).get? column = some value ↔
      values.get? column = some value ∧ q.Writable column ∧ column ≠ q.primaryKey := by
  rw [updatedFields, Fields.get?_filter, Option.filter_eq_some_iff, ← isWritable_iff]
  simp only [Bool.and_eq_true, decide_eq_true_eq]
  tauto

/-- The columns of an insertion may be written, and some row has each of them. -/
theorem writable_of_mem_insertedColumns {column : String} (h : column ∈ q.insertedColumns rows) :
    q.Writable column ∧ ∃ row ∈ rows, column ∈ row.names := by
  obtain ⟨row, hrow, hcolumn⟩ := (mem_insertedColumns column).1 h
  obtain ⟨value, hvalue⟩ := (Fields.mem_names_iff _ column).1 hcolumn
  obtain ⟨hheld, hwritable, -⟩ := (get?_insertedFields_eq_some_iff row column value).1 hvalue
  exact ⟨hwritable, row, hrow, (Fields.mem_names_iff row column).2 ⟨value, hheld⟩⟩

/-- A column other than the primary key is one of an insertion when it may be written and some row
has it. -/
theorem mem_insertedColumns_of_writable {column : String} (hwritable : q.Writable column)
    (hkey : column ≠ q.primaryKey) (h : ∃ row ∈ rows, column ∈ row.names) :
    column ∈ q.insertedColumns rows := by
  obtain ⟨row, hrow, hcolumn⟩ := h
  obtain ⟨value, hvalue⟩ := (Fields.mem_names_iff row column).1 hcolumn
  refine (mem_insertedColumns column).2 ⟨row, hrow, (Fields.mem_names_iff _ column).2 ⟨value, ?_⟩⟩
  exact (get?_insertedFields_eq_some_iff row column value).2
    ⟨hvalue, hwritable, fun h ↦ hkey h.1⟩

/-! ### Rows that are there already -/

/-- The first clause that says what happens to an inserted row that is there already. -/
def conflictRule? (q : Query) : Option Clause := q.clauses.find? Clause.isOnConflict

/-- The columns that an inserted row takes are told by the first clause that says what happens to
it. -/
theorem findSome?_conflictColumns? (primaryKey : String) (written : List String)
    (clauses : List Clause) :
    clauses.findSome? (conflictColumns? primaryKey written) =
      (clauses.find? Clause.isOnConflict).bind (conflictColumns? primaryKey written) := by
  induction clauses with
  | nil => rfl
  | cons clause rest ih =>
    cases clause <;>
    · rw [List.findSome?_cons, List.find?_cons]
      simp only [conflictColumns?, Clause.isOnConflict, Option.bind_some, ih]

/-- The columns that an inserted row takes which is there already are those of the deciding
clause. -/
theorem assigned_onConflict (written : List String) :
    (q.onConflict written).assigned =
      (q.conflictRule?.bind (conflictColumns? q.primaryKey written)).getD [] := by
  rw [onConflict, findSome?_conflictColumns?, ← conflictRule?]
  cases q.conflictRule?.bind (conflictColumns? q.primaryKey written) with
  | none => rfl
  | some columns =>
    cases columns with
    | nil => rfl
    | cons column rest => simp [OnConflict.assigned, Function.comp_def]

-- By cases on the deciding clause: only an explicit list does not come from the columns.
private theorem assigned_iff_listed (rows : List Fields) :
    (∀ column ∈ (q.onConflict (q.insertedColumns rows)).assigned,
        q.Writable column ∧ column ≠ q.primaryKey ∧ column ∈ q.insertedColumns rows) ↔
      ∀ listed, q.conflictRule? = some (.onConflictUpdate listed) → ∀ column ∈ listed,
        q.Writable column ∧ column ≠ q.primaryKey ∧ ∃ row ∈ rows, column ∈ row.names := by
  rw [assigned_onConflict]
  cases hrule : q.conflictRule? with
  | none => simp
  | some rule =>
    cases rule with
    | onConflictDoNothing => simp [conflictColumns?]
    | onConflictUpdateAll =>
      refine iff_of_true ?_ nofun
      intro column hcolumn
      obtain ⟨hmem, hkey⟩ : column ∈ q.insertedColumns rows ∧ column ≠ q.primaryKey := by
        simpa [conflictColumns?] using hcolumn
      exact ⟨(writable_of_mem_insertedColumns hmem).1, hkey, hmem⟩
    | onConflictUpdate columns =>
      simp only [Option.bind_some, conflictColumns?, Option.getD_some, Option.some.injEq,
        Clause.onConflictUpdate.injEq, forall_eq']
      refine forall₂_congr fun column _ ↦ ?_
      constructor
      · rintro ⟨hwritable, hkey, hmem⟩
        exact ⟨hwritable, hkey, (writable_of_mem_insertedColumns hmem).2⟩
      · rintro ⟨hwritable, hkey, hrow⟩
        exact ⟨hwritable, hkey, mem_insertedColumns_of_writable hwritable hkey hrow⟩
    | forUpdate => simp [conflictColumns?]
    | forShare => simp [conflictColumns?]

/-- Everything that a write assigns may be written, apart from the columns that an explicit list
names for rows which are there already. Those are assigned as they are listed: a clause that lists
a column which may not be written, the primary key or a column that no row has makes the insertion
assign it, and no other clause does. -/
theorem assigned_writable_iff (q : Query) :
    (∀ rows s, q.insertStatement rows = .ok s → ∃ text, insertText? s.sql = some text ∧
      text.selected = text.columns ∧ (∀ column ∈ text.columns, q.Writable column) ∧
      ((∀ column ∈ text.onConflict.assigned,
          q.Writable column ∧ column ≠ q.primaryKey ∧ column ∈ text.columns) ↔
        ∀ listed, q.conflictRule? = some (.onConflictUpdate listed) → ∀ column ∈ listed,
          q.Writable column ∧ column ≠ q.primaryKey ∧ ∃ row ∈ rows, column ∈ row.names)) ∧
    ∀ values conds s, q.updateStatement values conds = .ok s → ∃ text,
      updateText? s.sql = some text ∧ text.selected = text.target.columns ∧
      ∀ column ∈ text.target.columns, q.Writable column ∧ column ≠ q.primaryKey := by
  constructor
  · intro rows s hs
    obtain ⟨hcolumns, rfl⟩ := (insertStatement_eq_ok_iff s).1 hs
    refine ⟨_, insertText?_insertionInto hcolumns _, rfl, ?_, assigned_iff_listed rows⟩
    intro column hcolumn
    exact (writable_of_mem_insertedColumns hcolumn).1
  · intro values conds s hs
    obtain ⟨-, hnames, rfl⟩ := (updateStatement_eq_ok_iff s).1 hs
    refine ⟨_, updateText?_withWhere hnames _, rfl, ?_⟩
    intro column hcolumn
    obtain ⟨value, hvalue⟩ := (Fields.mem_names_iff _ column).1 hcolumn
    exact ((get?_updatedFields_eq_some_iff values column value).1 hvalue).2

/-- A product that is there already takes the price that is listed for it, though prices are
omitted. -/
theorem assigned_writable_iff_price :
    let q := ((ofTable "products").omitting ["price"]).clause
      (.onConflictUpdate ["title", "price"])
    let row := (Fields.singleton "title" (.string "a")).insert "price" (.int 5)
    ¬q.Writable "price" ∧ ∃ s text, q.insertStatement [row] = .ok s ∧
      insertText? s.sql = some text ∧
      ¬∀ column ∈ text.onConflict.assigned,
        q.Writable column ∧ column ≠ q.primaryKey ∧ column ∈ text.columns := by
  intro q row
  have hprice : ¬q.Writable "price" := fun h ↦ h.kept (by decide)
  obtain ⟨s, hs⟩ : ∃ s, q.insertStatement [row] = .ok s := ⟨_, rfl⟩
  obtain ⟨text, htext, -, -, hassigned⟩ := (assigned_writable_iff q).1 [row] s hs
  refine ⟨hprice, s, text, hs, htext, ?_⟩
  rw [hassigned]
  intro h
  exact hprice (h ["title", "price"] rfl "price" (by decide)).1

end Query

end RecordStore
