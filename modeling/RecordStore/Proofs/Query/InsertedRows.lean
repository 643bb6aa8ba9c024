import RecordStore.Proofs.Query.Alignment
import RecordStore.Proofs.Query.Text
import RecordStore.Proofs.Query.WritableColumns

/-!
# Rows, columns and text of an insertion

An insertion has one object for each row, which holds what may be written of the row. Its columns
are the names of all objects, each once, where it first appears, and its text lists them twice: as
the columns that are written and as those that are selected from the argument. So no value of a
row is lost, and a column that is listed has a value in some row.
-/

namespace RecordStore

open Reading

/-- The names of fields are distinct. -/
theorem Fields.nodup_names (f : Fields) : f.names.Nodup := by
  rw [names, List.Nodup, List.pairwise_map]
  refine f.sorted.imp fun hlt heq ↦ ?_
  rw [heq] at hlt
  exact String.lt_irrefl _ hlt

namespace Query

variable {q : Query} {rows : List Fields}

/-! ### Names in the order of their first appearance -/

private theorem eraseDups_of_nodup {names : List String} (h : names.Nodup) :
    names.eraseDups = names := by
  induction names with
  | nil => rfl
  | cons name rest ih =>
    obtain ⟨hname, hrest⟩ := List.nodup_cons.1 h
    have hothers : rest.filter (fun other ↦ !other == name) = rest := by
      rw [List.filter_eq_self]
      intro other hother
      simpa using ne_of_mem_of_not_mem hother hname
    rw [List.eraseDups_cons, hothers, ih hrest]

-- Names that are there already may be left out where others are appended.
private theorem eraseDups_append_filter (columns names rest : List String) :
    ((columns ++ names.filter fun name ↦ !columns.contains name) ++ rest).eraseDups =
      (columns ++ (names ++ rest)).eraseDups := by
  have hfirst : (columns ++ names.filter fun name ↦ !columns.contains name).eraseDups =
      (columns ++ names).eraseDups := by
    rw [List.eraseDups_append, List.eraseDups_append, List.removeAll, List.removeAll,
      List.filter_filter]
    simp only [List.elem_eq_contains, Bool.and_self]
  have hrest : rest.removeAll (columns ++ names.filter fun name ↦ !columns.contains name) =
      rest.removeAll (columns ++ names) := by
    rw [List.removeAll, List.removeAll]
    apply List.filter_congr
    intro name _
    by_cases hname : name ∈ columns <;> simp [hname]
  rw [List.eraseDups_append, hfirst, hrest, ← List.eraseDups_append, List.append_assoc]

private theorem nodup_append_filter {columns names : List String} (hcolumns : columns.Nodup)
    (hnames : names.Nodup) :
    (columns ++ names.filter fun name ↦ !columns.contains name).Nodup := by
  refine List.nodup_append.2 ⟨hcolumns, hnames.filter _, ?_⟩
  rintro column hcolumn name hname rfl
  simp [hcolumn] at hname

-- By induction on the rows: the names of those before a row are kept, and they are distinct.
private theorem foldl_union (rows : List Fields) {columns : List String} (h : columns.Nodup) :
    let union := rows.foldl
      (fun columns row ↦ columns ++ row.names.filter fun column ↦ !columns.contains column) columns
    union.Nodup ∧ union = (columns ++ rows.flatMap Fields.names).eraseDups := by
  induction rows generalizing columns with
  | nil => exact ⟨h, by rw [List.flatMap_nil, List.append_nil, eraseDups_of_nodup h]; rfl⟩
  | cons row rest ih =>
    obtain ⟨hnodup, hunion⟩ := ih (nodup_append_filter h row.nodup_names)
    refine ⟨hnodup, ?_⟩
    rw [eraseDups_append_filter] at hunion
    rw [List.flatMap_cons]
    exact hunion

/-- The names of several rows are distinct. -/
theorem nodup_columnUnion (rows : List Fields) : (columnUnion rows).Nodup :=
  (foldl_union rows .nil).1

/-- Several rows have the names of each of them, in the order of their first appearance. -/
theorem columnUnion_eq (rows : List Fields) :
    columnUnion rows = (rows.flatMap Fields.names).eraseDups :=
  (foldl_union rows .nil).2

/-- Rows that have the same names have these names together. -/
theorem columnUnion_of_forall {rows : List Fields} {names : List String} (hne : rows ≠ [])
    (h : ∀ row ∈ rows, row.names = names) : columnUnion rows = names := by
  cases rows with
  | nil => exact absurd rfl hne
  | cons row rest =>
    rw [List.forall_mem_cons] at h
    obtain ⟨rfl, hrest⟩ := h
    have hnothing : (rest.flatMap Fields.names).removeAll row.names = [] := by
      rw [List.removeAll, List.filter_eq_nil_iff]
      intro name hname
      obtain ⟨other, hother, hname⟩ := List.mem_flatMap.1 hname
      rw [hrest other hother] at hname
      simpa using hname
    rw [columnUnion_eq, List.flatMap_cons, List.eraseDups_append, hnothing, List.eraseDups_nil,
      List.append_nil, eraseDups_of_nodup row.nodup_names]

/-! ### Insertions -/

/-- Whether an object is what an insertion writes of a row: the fields that may be written, apart
from a primary key that is not assigned. -/
def InsertsAs (q : Query) (row object : Fields) : Prop :=
  ∀ column value, object.get? column = some value ↔
    row.get? column = some value ∧ q.Writable column ∧
      ¬(column = q.primaryKey ∧ value.isUnassigned = true)

/-- Rows of which an insertion writes nothing: a field that may be written is a primary key that is
not assigned. -/
def NothingToInsert (q : Query) (rows : List Fields) : Prop :=
  ∀ row ∈ rows, ∀ column value, row.get? column = some value → q.Writable column →
    column = q.primaryKey ∧ value.isUnassigned = true

/-- A statement that inserts an object for each row into columns. -/
structure InsertsRows (q : Query) (rows objects : List Fields) (columns : List String)
    (s : Statement) : Prop where
  /-- There is one object for each row, in the order of the rows. -/
  eachRow : List.Forall₂ q.InsertsAs rows objects
  args : s.args = [.array (objects.map Fields.toJson)]
  /-- The columns are the names of the objects, in the order of their first appearance. -/
  union : columns = (objects.flatMap Fields.names).eraseDups
  distinct : columns.Nodup
  /-- The table and the columns are what the text says, and the columns twice. -/
  text : insertText? s.sql = some
    { table := q.table, columns, selected := columns, source := q.table
      onConflict := q.onConflict columns }
  marks : s.marks = 1
  /-- Rows of one shape leave no column of an object out. -/
  full : (∀ row ∈ rows, ∀ other ∈ rows, row.SameShape q.primaryKey other) →
    ∀ object ∈ objects, object.names = columns

/-- An insertion of rows of which something is written. -/
theorem insertsRows {s : Statement} (hs : q.insertStatement rows = .ok s) :
    q.InsertsRows rows (rows.map q.insertedFields) (q.insertedColumns rows) s := by
  have hinto := (insertStatement_eq_ok_iff s).1 hs
  refine ⟨?_, ?_, columnUnion_eq _, nodup_columnUnion _, ?_, ?_, ?_⟩
  · rw [List.forall₂_map_right_iff, List.forall₂_same]
    exact fun row _ ↦ get?_insertedFields_eq_some_iff row
  · rw [hinto.2]
    rfl
  · rw [hinto.2]
    exact insertText?_insertionInto hinto.1 _
  · rw [(inStep_insertStatement hs).count_eq, hinto.2]
    rfl
  · -- All objects have the names of one of them, so these are the columns.
    intro hshape object hobject
    obtain ⟨row, hrow, rfl⟩ := List.mem_map.1 hobject
    refine (columnUnion_of_forall (List.ne_nil_of_mem hobject) ?_).symm
    intro other hother
    obtain ⟨source, hsource, rfl⟩ := List.mem_map.1 hother
    exact SameShape.names_insertedFields q (hshape source hsource row hrow)

private theorem nothingToInsert_iff :
    q.NothingToInsert rows ↔ ∀ row ∈ rows, (q.insertedFields row).names = [] := by
  refine forall₂_congr fun row _ ↦ ?_
  simp only [List.eq_nil_iff_forall_not_mem, Fields.mem_names_iff, not_exists,
    get?_insertedFields_eq_some_iff]
  refine forall₂_congr fun column value ↦ ?_
  tauto

/-- An insertion is refused exactly when there is nothing to write of its rows. Otherwise it writes
what there is of each row, into columns that its text lists. -/
theorem insertStatement_refused_or_inserts (q : Query) (rows : List Fields) :
    (q.insertStatement rows = .error .noColumns ↔ q.NothingToInsert rows) ∧
      (¬q.NothingToInsert rows → ∃ objects columns s, q.insertStatement rows = .ok s ∧
        q.InsertsRows rows objects columns s) := by
  rw [insertStatement_eq_error_iff, nothingToInsert_iff]
  refine ⟨and_iff_right rfl, fun hsome ↦ ?_⟩
  rw [← insertedColumns_eq_nil_iff] at hsome
  have hs := (insertStatement_eq_ok_iff _).2 ⟨hsome, rfl⟩
  exact ⟨_, _, _, hs, insertsRows hs⟩

/-- Names that look like a placeholder and like two columns are one column each. -/
theorem insertStatement_refused_or_inserts_names :
    let q := ofTable "products"
    let rows := [(Fields.singleton "a?" (.int 1)).insert "id" (.int 0),
      Fields.singleton "b\", \"c" (.int 2)]
    ¬q.NothingToInsert rows ∧ ∃ objects columns s, q.insertStatement rows = .ok s ∧
      q.InsertsRows rows objects columns s := by
  intro q rows
  have hsome : ¬q.NothingToInsert rows := by
    intro h
    have hkey := h _ List.mem_cons_self "a?" (.int 1) rfl ((isWritable_iff _).1 rfl)
    exact absurd hkey.1 (by decide)
  exact ⟨hsome, (insertStatement_refused_or_inserts q rows).2 hsome⟩

end Query

end RecordStore
