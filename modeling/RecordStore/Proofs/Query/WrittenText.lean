import RecordStore.Proofs.Query.InsertedColumns
import RecordStore.Proofs.Reading.Name

/-!
# The names in the text of a write

The text of an insertion or of an update is read from its front for the names in it. Every name
comes back as it was, whatever quotes, commas, parentheses and keywords it has, so what is read is
what the statement says to the database.
-/

namespace RecordStore

namespace Reading

/-- What the text of an insertion says about an inserted row that is there already. -/
inductive OnConflict where
  | fails
  | skips
  /-- The row with the same key takes values for columns, each that of a column of the insertion. -/
  | updates (key : String) (assignments : List (String × String))
deriving DecidableEq

/-- The columns that an inserted row which is there already takes. -/
def OnConflict.assigned : OnConflict → List String
  | .fails => []
  | .skips => []
  | .updates _ assignments => assignments.map (·.1)

/-- The names in the text of an insertion. -/
structure InsertText where
  table : String
  columns : List String
  /-- The columns that are selected from the argument. -/
  selected : List String
  /-- The table whose row type the argument is taken apart by. -/
  source : String
  onConflict : OnConflict
deriving DecidableEq

/-- A column with the column of the insertion that it takes its value from. -/
def assignment? (cs : List Char) : Option ((String × String) × List Char) := do
  let (column, cs) ← name? cs
  let cs ← skip? " = EXCLUDED." cs
  let (value, cs) ← name? cs
  some ((column, value), cs)

/-- What is said about a row that is there already, and the text behind that. -/
def onConflict? (cs : List Char) : Option (OnConflict × List Char) :=
  match skip? " ON CONFLICT " cs with
  | none => some (.fails, cs)
  | some cs =>
    match skip? "DO NOTHING" cs with
    | some cs => some (.skips, cs)
    | none => do
      let cs ← skip? "(" cs
      let (key, cs) ← name? cs
      let cs ← skip? ") DO UPDATE SET " cs
      let (assignments, cs) ← list? assignment? cs
      some (.updates key assignments, cs)

/-- The names in the text of an insertion of one JSON argument. -/
def insertText? (sql : String) : Option InsertText := do
  let cs ← skip? "INSERT INTO " sql.toList
  let (table, cs) ← name? cs
  let cs ← skip? " (" cs
  let (columns, cs) ← list? name? cs
  let cs ← skip? ") SELECT " cs
  let (selected, cs) ← list? name? cs
  let cs ← skip? " FROM jsonb_populate_recordset(NULL::" cs
  let (source, cs) ← name? cs
  let cs ← skip? ", ?::jsonb)" cs
  let (onConflict, cs) ← onConflict? cs
  let cs ← skip? " RETURNING *" cs
  if cs.isEmpty then some { table, columns, selected, source, onConflict } else none

/-- The left side of an assignment. -/
structure Target where
  inParentheses : Bool
  columns : List String
deriving DecidableEq

/-- The names in the text of an update. -/
structure UpdateText where
  table : String
  target : Target
  /-- The columns that are selected from the argument. -/
  selected : List String
  /-- The table whose row type the argument is taken apart by. -/
  source : String
  /-- The text of the conditions. -/
  conditions : String
deriving DecidableEq

/-- The left side of an assignment, which is one column or several in parentheses, and the text
behind it. -/
def target? (cs : List Char) : Option (Target × List Char) :=
  match skip? "(" cs with
  | none => (name? cs).map fun (column, cs) ↦ (⟨false, [column]⟩, cs)
  | some cs => do
    let (columns, cs) ← list? name? cs
    let cs ← skip? ")" cs
    some (⟨true, columns⟩, cs)

/-- The names in the text of an update from one JSON argument. -/
def updateText? (sql : String) : Option UpdateText := do
  let cs ← skip? "UPDATE " sql.toList
  let (table, cs) ← name? cs
  let cs ← skip? " SET " cs
  let (target, cs) ← target? cs
  let cs ← skip? " = (SELECT " cs
  let (selected, cs) ← list? name? cs
  let cs ← skip? " FROM jsonb_populate_record(NULL::" cs
  let (source, cs) ← name? cs
  let cs ← skip? ", ?::jsonb))" cs
  let cs ← skip? " WHERE " cs
  some { table, target, selected, source, conditions := String.ofList cs }

/-! ### Lists of names -/

private theorem list?_quotedList {columns : List String} (hne : columns ≠ []) {after : List Char}
    (h : EndsList after) :
    list? name? ((Query.quotedList columns).toList ++ after) = some (columns, after) := by
  have hread : list? name? ((Query.quotedList columns).toList ++ after) =
      some (columns.map id, after) :=
    list?_intercalate (fun name _ hafter ↦ name?_quote name hafter) hne h
  rwa [List.map_id] at hread

private theorem assignment?_excluded (column : String) {after : List Char}
    (h : after.head? ≠ some '"') :
    assignment? ((Query.excludedAssignment column).toList ++ after) =
      some ((column, column), after) := by
  simp only [Query.excludedAssignment, String.toList_append, List.append_assoc]
  refine bind_eq_some (name?_quote column (head?_append_ne " = EXCLUDED." (by decide) _)) ?_
  refine bind_eq_some (skip?_append " = EXCLUDED." _) ?_
  exact bind_eq_some (name?_quote column h) rfl

private theorem target?_updateTarget {columns : List String} (hne : columns ≠ [])
    {after : List Char} (h : after.head? ≠ some '"') :
    target? ((Query.updateTarget columns).toList ++ after) =
      some (⟨2 ≤ columns.length, columns⟩, after) := by
  obtain ⟨column, rfl⟩ | hlength : (∃ column, columns = [column]) ∨ 2 ≤ columns.length := by
    cases columns with
    | nil => exact absurd rfl hne
    | cons column rest =>
      cases rest with
      | nil => exact .inl ⟨column, rfl⟩
      | cons second more => exact .inr (by simp)
  · have hquote : skip? "(" ((Identifier.quote column).toList ++ after) = none :=
      skip?_eq_none (c := '(') rfl (by simp [Identifier.quoteChars])
    have htext : Query.updateTarget [column] = Identifier.quote column := by
      simp [Query.updateTarget, Query.quotedList]
    rw [htext, target?, hquote, name?_quote column h]
    rfl
  · have htext : (Query.updateTarget columns).toList ++ after =
        "(".toList ++ ((Query.quotedList columns).toList ++ (")".toList ++ after)) := by
      rw [Query.updateTarget, if_neg (by omega)]
      simp only [String.toList_append, List.append_assoc]
    rw [htext, target?, skip?_append, decide_eq_true hlength]
    refine bind_eq_some (list?_quotedList hne (endsList_append ")" (by decide) _)) ?_
    exact bind_eq_some (skip?_append ")" _) rfl

end Reading

open Reading

namespace Query

variable {q : Query}

/-- What an insertion into columns does with a row that is there already. -/
def onConflict (q : Query) (written : List String) : OnConflict :=
  match q.clauses.findSome? (conflictColumns? q.primaryKey written) with
  | none => .fails
  | some [] => .skips
  | some columns => .updates q.primaryKey (columns.map fun column ↦ (column, column))

private theorem onConflict?_conflictClause (written : List String) :
    onConflict? ((q.conflictClause written).toList ++ " RETURNING *".toList) =
      some (q.onConflict written, " RETURNING *".toList) := by
  rw [conflictClause, onConflict]
  cases q.clauses.findSome? (conflictColumns? q.primaryKey written) with
  | none =>
    dsimp only
    decide
  | some columns =>
    cases columns with
    | nil =>
      dsimp only
      decide
    | cons column rest =>
      have hconflict : " ON CONFLICT (" = " ON CONFLICT " ++ "(" := by decide
      have hkey : skip? "DO NOTHING" ("(".toList ++ ((Identifier.quote q.primaryKey).toList ++
          (") DO UPDATE SET ".toList ++ ((String.intercalate ", "
            ((column :: rest).map excludedAssignment)).toList ++ " RETURNING *".toList)))) = none :=
        skip?_eq_none (c := 'D') rfl (head?_append_ne "(" (by decide) _)
      have hassignments : list? assignment? ((String.intercalate ", "
          ((column :: rest).map excludedAssignment)).toList ++ " RETURNING *".toList) =
            some ((column :: rest).map fun column ↦ (column, column), " RETURNING *".toList) :=
        list?_intercalate (fun column _ hafter ↦ assignment?_excluded column hafter) (by simp)
          ⟨by decide, by decide⟩
      simp only [hconflict, String.toList_append, List.append_assoc]
      rw [onConflict?, skip?_append]
      dsimp only
      rw [hkey]
      refine bind_eq_some (skip?_append "(" _) ?_
      refine bind_eq_some
        (name?_quote q.primaryKey (head?_append_ne ") DO UPDATE SET " (by decide) _)) ?_
      refine bind_eq_some (skip?_append ") DO UPDATE SET " _) ?_
      exact bind_eq_some hassignments rfl

/-- The names in the text of an insertion into columns. -/
theorem insertText?_insertionInto {columns : List String} (hne : columns ≠ [])
    (objects : List Fields) :
    insertText? (q.insertionInto columns objects).sql =
      some ⟨q.table, columns, columns, q.table, q.onConflict columns⟩ := by
  simp only [insertText?, insertionInto, Statement.withArgs, String.toList_append,
    List.append_assoc]
  refine bind_eq_some (skip?_append "INSERT INTO " _) ?_
  refine bind_eq_some (name?_quote q.table (head?_append_ne " (" (by decide) _)) ?_
  refine bind_eq_some (skip?_append " (" _) ?_
  refine bind_eq_some (list?_quotedList hne (endsList_append ") SELECT " (by decide) _)) ?_
  refine bind_eq_some (skip?_append ") SELECT " _) ?_
  refine bind_eq_some (list?_quotedList hne
    (endsList_append " FROM jsonb_populate_recordset(NULL::" (by decide) _)) ?_
  refine bind_eq_some (skip?_append " FROM jsonb_populate_recordset(NULL::" _) ?_
  refine bind_eq_some (name?_quote q.table (head?_append_ne ", ?::jsonb)" (by decide) _)) ?_
  refine bind_eq_some (skip?_append ", ?::jsonb)" _) ?_
  refine bind_eq_some (onConflict?_conflictClause columns) ?_
  rfl

/-- The names in the text of an update with conditions. -/
theorem updateText?_withWhere {values : Fields} (hne : (q.updatedFields values).names ≠ [])
    (body : Statement) :
    updateText? ((q.updateHead values).withWhere body "").sql =
      some ⟨q.table, ⟨2 ≤ (q.updatedFields values).names.length, (q.updatedFields values).names⟩,
        (q.updatedFields values).names, q.table, body.sql⟩ := by
  simp only [updateText?, updateHead, Statement.withWhere, Statement.withArgs,
    Statement.sql_append, Statement.text_append, Statement.append_text, String.toList_append,
    List.append_assoc]
  refine bind_eq_some (skip?_append "UPDATE " _) ?_
  refine bind_eq_some (name?_quote q.table (head?_append_ne " SET " (by decide) _)) ?_
  refine bind_eq_some (skip?_append " SET " _) ?_
  refine bind_eq_some (target?_updateTarget hne (head?_append_ne " = (SELECT " (by decide) _)) ?_
  refine bind_eq_some (skip?_append " = (SELECT " _) ?_
  refine bind_eq_some (list?_quotedList hne
    (endsList_append " FROM jsonb_populate_record(NULL::" (by decide) _)) ?_
  refine bind_eq_some (skip?_append " FROM jsonb_populate_record(NULL::" _) ?_
  refine bind_eq_some (name?_quote q.table (head?_append_ne ", ?::jsonb))" (by decide) _)) ?_
  refine bind_eq_some (skip?_append ", ?::jsonb))" _) ?_
  refine bind_eq_some (skip?_append " WHERE " _) ?_
  simp

end Query

end RecordStore
