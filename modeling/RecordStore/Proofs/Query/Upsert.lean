import RecordStore.Proofs.Placeholder.Direct
import RecordStore.Proofs.Query.InsertedRows
import RecordStore.Query.Select

/-!
# Insertions and rows that are there already

What an insertion does with rows that are there already is one piece of its text, right before the
rows are returned, and the first clause that says something about them decides what it is. Every
other part of an insertion is the same under all clauses, locks do not change it, and only locks
change a read.
-/

namespace RecordStore

open Placeholder Reading

/-- The text by which rows that are there already take values for columns. -/
def updatingText (primaryKey : String) (columns : List String) : String :=
  " ON CONFLICT (" ++ Identifier.quote primaryKey ++ ") DO UPDATE SET " ++
    String.intercalate ", " (columns.map Query.excludedAssignment)

/-- The text that a clause stands for in an insertion of the written columns. -/
def Clause.conflictText (primaryKey : String) (written : List String) : Clause → String
  | .onConflictDoNothing => " ON CONFLICT DO NOTHING"
  | .onConflictUpdateAll =>
    if written = [primaryKey] then " ON CONFLICT DO NOTHING"
    else updatingText primaryKey (written.filter (· ≠ primaryKey))
  | .onConflictUpdate columns =>
    if columns = [] then " ON CONFLICT DO NOTHING" else updatingText primaryKey columns
  | .forUpdate => ""
  | .forShare => ""

namespace Query

/-- The query with other modifiers in place of its own. -/
def withClauses (q : Query) (clauses : List Clause) : Query := { q with clauses }

/-- Two insertions that differ in what a clause stands for: it is missing in the plain one, which
fails on rows that are there already, and stands in the other one right before the rows are
returned. -/
structure ResolvedBy (q : Query) (rule : Clause) (plain resolved : Statement) : Prop where
  args : resolved.args = plain.args
  text : ∃ front written,
    insertText? plain.sql = some
      { table := q.table, columns := written, selected := written, source := q.table
        onConflict := .fails } ∧
    plain.toPostgres = front ++ " RETURNING *" ∧
    resolved.toPostgres = front ++ rule.conflictText q.primaryKey written ++ " RETURNING *"

variable {q : Query} {clauses others : List Clause} {written : List String} {rule : Clause}

/-! ### The text that decides -/

-- Distinct columns of which none is left beside the primary key are that key alone.
private theorem filter_ne_eq_nil_iff (hne : written ≠ []) (hdistinct : written.Nodup)
    (primaryKey : String) :
    written.filter (· ≠ primaryKey) = [] ↔ written = [primaryKey] := by
  rw [List.filter_eq_nil_iff]
  simp only [ne_eq, decide_not, Bool.not_eq_true', decide_eq_false_iff_not, not_not]
  cases written with
  | nil => exact absurd rfl hne
  | cons first rest =>
    rw [List.nodup_cons] at hdistinct
    rw [List.forall_mem_cons, List.cons.injEq, List.eq_nil_iff_forall_not_mem]
    refine and_congr_right fun hfirst ↦ ⟨?_, fun hrest column hcolumn ↦ ?_⟩
    · intro hkeys column hcolumn
      rw [hkeys column hcolumn, ← hfirst] at hcolumn
      exact hdistinct.1 hcolumn
    · exact absurd hcolumn (hrest column)

/-- The clause that decides stands for what the insertion says about rows that are there already,
and without one the insertion says nothing about them. -/
theorem conflictClause_eq (hne : written ≠ []) (hdistinct : written.Nodup) :
    q.conflictClause written =
      (q.conflictRule?.map (Clause.conflictText q.primaryKey written)).getD "" := by
  rw [conflictClause, findSome?_conflictColumns?, ← conflictRule?]
  cases q.conflictRule? with
  | none => rfl
  | some rule =>
    cases rule with
    | onConflictDoNothing => rfl
    | onConflictUpdateAll =>
      have hkey := filter_ne_eq_nil_iff hne hdistinct q.primaryKey
      simp only [Option.bind_some, conflictColumns?, Option.map_some, Option.getD_some,
        Clause.conflictText, ← hkey]
      cases written.filter (· ≠ q.primaryKey) <;> rfl
    | onConflictUpdate columns => cases columns <;> rfl
    | forUpdate => rfl
    | forShare => rfl

example : Clause.onConflictUpdateAll.conflictText "id" ["title", "id", "price"] =
    " ON CONFLICT (\"id\") DO UPDATE SET " ++
      "\"title\" = EXCLUDED.\"title\", \"price\" = EXCLUDED.\"price\"" := by
  decide

/-- The first clause that says something about rows that are there already decides how rows are
inserted, and no other clause does. -/
theorem insertStatement_withClauses
    (h : clauses.find? Clause.isOnConflict = others.find? Clause.isOnConflict)
    (rows : List Fields) :
    (q.withClauses clauses).insertStatement rows = (q.withClauses others).insertStatement rows := by
  have hrule : (q.withClauses clauses).conflictRule? = (q.withClauses others).conflictRule? := h
  have hconflict (written : List String) :
      (q.withClauses clauses).conflictClause written =
        (q.withClauses others).conflictClause written := by
    rw [conflictClause, conflictClause, findSome?_conflictColumns?, findSome?_conflictColumns?,
      ← conflictRule?, ← conflictRule?, hrule]
    rfl
  simp only [insertStatement, hconflict]
  rfl

/-- Locks do not change how rows are inserted. -/
theorem insertStatement_unlocked (q : Query) (rows : List Fields) :
    (q.withClauses (q.clauses.filter Clause.isOnConflict)).insertStatement rows =
      q.insertStatement rows := by
  apply insertStatement_withClauses
  rw [List.find?_filter]
  simp

private theorem lockText_of_isOnConflict {clause : Clause} (h : clause.isOnConflict = true) :
    lockText clause = "" := by
  cases clause <;> first | rfl | cases h

private theorem join_lockText_filter (clauses : List Clause) :
    String.join ((clauses.filter (!·.isOnConflict)).map lockText) =
      String.join (clauses.map lockText) := by
  induction clauses with
  | nil => rfl
  | cons clause rest ih =>
    cases hclause : clause.isOnConflict with
    | true =>
      rw [List.filter_cons_of_neg (by simp [hclause]), ih, List.map_cons, String.join_cons,
        lockText_of_isOnConflict hclause, String.empty_append]
    | false =>
      rw [List.filter_cons_of_pos (by simp [hclause]), List.map_cons, List.map_cons,
        String.join_cons, String.join_cons, ih]

/-- What happens to inserted rows does not change how rows are read and counted. -/
theorem selectColumns_reading (q : Query) (columns : String) (conds : List Condition) :
    (q.withClauses (q.clauses.filter (!·.isOnConflict))).selectColumns columns conds =
      q.selectColumns columns conds := by
  have hwindow : (q.withClauses (q.clauses.filter (!·.isOnConflict))).windowClause =
      q.windowClause := by
    rw [windowClause, withClauses, join_lockText_filter]
    rfl
  rw [selectColumns, hwindow]
  rfl

/-! ### The rest of an insertion -/

/-- The text of an insertion up to what it says about rows that are there already. -/
def insertFront (q : Query) (columns : List String) : String :=
  "INSERT INTO " ++ Identifier.quote q.table ++ " (" ++ quotedList columns ++ ") SELECT " ++
    quotedList columns ++ " FROM jsonb_populate_recordset(NULL::" ++ Identifier.quote q.table ++
    ", ?::jsonb)"

@[simp] theorem insertFront_withClauses (q : Query) (clauses : List Clause) :
    (q.withClauses clauses).insertFront = q.insertFront := rfl

theorem args_insertionInto (q : Query) (columns : List String) (objects : List Fields) :
    (q.insertionInto columns objects).args = [.array (objects.map Fields.toJson)] := rfl

private theorem isClosed_insertFront (q : Query) (columns : List String) :
    IsClosed (q.insertFront columns).toList := by
  have hinto : IsPlain "INSERT INTO ".toList := by decide
  have hopen : IsPlain " (".toList := by decide
  have hselect : IsPlain ") SELECT ".toList := by decide
  have hfrom : IsPlain " FROM jsonb_populate_recordset(NULL::".toList := by decide
  have hlist := isPlain_quotedList columns
  have htable := isPlain_quote q.table
  have hfront := (((((hinto.text_append htable).text_append hopen).text_append hlist).text_append
    hselect).text_append hlist).text_append hfrom
  exact (hfront.text_append htable).closed.text_append (by decide)

/-- An insertion is numbered up to what it says about rows that are there already, and that and the
text behind it stay as they are. -/
theorem toPostgres_insertionInto (q : Query) (columns : List String) (objects : List Fields) :
    (q.insertionInto columns objects).toPostgres =
      String.ofList (numberMarks none 0 (q.insertFront columns).toList) ++
        q.conflictClause columns ++ " RETURNING *" := by
  have htext : q.insertionInto columns objects =
      .withArgs (q.insertFront columns ++ q.conflictClause columns ++ " RETURNING *")
        [.array (objects.map Fields.toJson)] := rfl
  have hreturning : IsPlain " RETURNING *".toList := by decide
  have hfront := isClosed_insertFront q columns
  rw [← String.toList_inj, htext, Statement.toList_toPostgres_withArgs]
  simp only [String.toList_append, String.toList_ofList]
  rw [numberMarks_plain_between hfront (isPlain_conflictClause q columns),
    numberMarks_of_count_eq_zero hreturning.unmarked]

-- What an insertion says is said by the clause that decides, whatever other clauses there are.
private theorem conflictClause_withClauses (hne : written ≠ []) (hdistinct : written.Nodup)
    (clauses : List Clause) :
    (q.withClauses clauses).conflictClause written =
      ((clauses.find? Clause.isOnConflict).map (Clause.conflictText q.primaryKey written)).getD
        "" :=
  conflictClause_eq hne hdistinct

/-- Under one clause that decides, rows are inserted as under none, up to what the clause stands
for. -/
private theorem resolvedBy_insertionInto (hne : written ≠ []) (hdistinct : written.Nodup)
    (hplain : clauses.find? Clause.isOnConflict = none)
    (hrule : others.find? Clause.isOnConflict = some rule) (objects : List Fields) :
    q.ResolvedBy rule ((q.withClauses clauses).insertionInto written objects)
      ((q.withClauses others).insertionInto written objects) := by
  have hfails : (q.withClauses clauses).onConflict written = .fails := by
    rw [onConflict, findSome?_conflictColumns?, withClauses, hplain]
    rfl
  refine ⟨?_, String.ofList (numberMarks none 0 (q.insertFront written).toList), written, ?_, ?_,
    ?_⟩
  · rw [args_insertionInto, args_insertionInto]
  · rw [insertText?_insertionInto hne, hfails]
    rfl
  · rw [toPostgres_insertionInto, conflictClause_withClauses hne hdistinct, hplain,
      insertFront_withClauses]
    simp
  · rw [toPostgres_insertionInto, conflictClause_withClauses hne hdistinct, hrule,
      insertFront_withClauses]
    rfl

/-- Under one clause that decides, rows are inserted as under none, up to what the clause stands
for, and refused when they are under none. -/
theorem insertStatement_resolvedBy (q : Query)
    (hplain : clauses.find? Clause.isOnConflict = none)
    (hrule : others.find? Clause.isOnConflict = some rule) (rows : List Fields) :
    (∃ refusal, (q.withClauses clauses).insertStatement rows = .error refusal ∧
      (q.withClauses others).insertStatement rows = .error refusal) ∨
    ∃ plain resolved, (q.withClauses clauses).insertStatement rows = .ok plain ∧
      (q.withClauses others).insertStatement rows = .ok resolved ∧
      q.ResolvedBy rule plain resolved := by
  by_cases hcolumns : q.insertedColumns rows = []
  · have hnothing := insertedColumns_eq_nil_iff.1 hcolumns
    exact .inl ⟨.noColumns, (insertStatement_eq_error_iff _).2 ⟨rfl, hnothing⟩,
      (insertStatement_eq_error_iff _).2 ⟨rfl, hnothing⟩⟩
  · exact .inr ⟨_, _, (insertStatement_eq_ok_iff _).2 ⟨hcolumns, rfl⟩,
      (insertStatement_eq_ok_iff _).2 ⟨hcolumns, rfl⟩,
      resolvedBy_insertionInto hcolumns (nodup_columnUnion _) hplain hrule _⟩

end Query

end RecordStore
