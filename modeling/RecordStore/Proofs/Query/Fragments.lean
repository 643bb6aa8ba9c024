import RecordStore.Proofs.Placeholder.Pieces
import RecordStore.Proofs.Query.Chain
import RecordStore.Proofs.Query.Where
import RecordStore.Store.Session

/-!
# Statements as fragments

A statement is written fragment by fragment. For an aligned query every fragment brings along the
arguments of its placeholders, so both are in step at the end of each, and the numbers that the
placeholders of the whole get are those of the arguments that are bound.
-/

namespace RecordStore

open Placeholder Statement

namespace Query

/-! ### Fragments of reads -/

/-- Joins, each with a blank before it. -/
def joinClauseFragments (joins : List Statement) : List Statement :=
  joins.flatMap fun join ↦ [.ofText " ", join]

/-- A WHERE clause; nothing without a filter. -/
def whereFragments (exprs : List Expr) : List Statement :=
  if exprs.isEmpty then [] else .ofText " WHERE " :: Expr.conditionFragments exprs

/-- A keyword with terms after it; nothing without terms. -/
def termFragments (keyword : String) (terms : List String) : List Statement :=
  if terms.isEmpty then [] else [.ofText keyword, .ofText (String.intercalate ", " terms)]

/-- A read up to its grouping. -/
def unorderedFragments (q : Query) (columns : String) (conds : List Condition) : List Statement :=
  [.ofText "SELECT ", .ofText (if q.isDistinct then "DISTINCT " else ""), .ofText columns,
      .ofText " FROM ", .ofText (Identifier.quote q.table)] ++
    (joinClauseFragments q.joins ++
      (whereFragments (q.scopedFilters conds) ++ termFragments " GROUP BY " q.grouping))

/-- The order, the window and the locks of a read. -/
def windowFragments (q : Query) : List Statement :=
  termFragments " ORDER BY " q.ordering ++
    ([.ofText (boundClause "LIMIT" q.limit), .ofText (boundClause "OFFSET" q.offset)] ++
      q.clauses.map fun clause ↦ .ofText (lockText clause))

/-- A read of the given columns. -/
def selectFragments (q : Query) (columns : String) (conds : List Condition) : List Statement :=
  q.unorderedFragments columns conds ++ q.windowFragments

/-- A count. -/
def countFragments (q : Query) (conds : List Condition) : List Statement :=
  if q.grouping.isEmpty && !q.isDistinct then q.unorderedFragments "COUNT(*)" conds
  else
    .ofText "SELECT COUNT(*) FROM (" ::
      (q.unorderedFragments q.selectList conds ++ [.ofText ") AS \"counted\""])

private theorem concat_joinClauseFragments (joins : List Statement) :
    concat (joinClauseFragments joins) = joinClause joins := by
  induction joins with
  | nil => rfl
  | cons join rest ih =>
    change concat (.ofText " " :: join :: joinClauseFragments rest) = _
    rw [concat, concat, ih]
    rfl

private theorem concat_whereFragments (exprs : List Expr) :
    concat (whereFragments exprs) = whereClause exprs := by
  rw [whereFragments, whereClause, body?]
  split
  · rfl
  · rw [concat, Expr.concat_conditionFragments]
    rfl

private theorem concat_termFragments (keyword : String) (terms : List String) :
    concat (termFragments keyword terms) =
      ofText (if terms.isEmpty then "" else keyword ++ String.intercalate ", " terms) := by
  rw [termFragments]
  split
  · rfl
  · rw [concat, concat, concat, append_empty, ofText_append]

private theorem concat_map_ofText (texts : List String) :
    concat (texts.map ofText) = ofText (String.join texts) := by
  induction texts with
  | nil => rfl
  | cons text rest ih =>
    rw [List.map_cons, concat, ih, ← ofText_append, String.join_cons]

/-- A read up to its grouping is its fragments. -/
theorem concat_unorderedFragments (q : Query) (columns : String) (conds : List Condition) :
    concat (q.unorderedFragments columns conds) = q.unordered columns conds := by
  rw [unorderedFragments, concat_append, concat_append, concat_append, concat_joinClauseFragments,
    concat_whereFragments, concat_termFragments, unordered, fromClause]
  simp only [concat, append_empty, text_append_eq, append_text_eq, ofText_append, append_assoc]
  rfl

private theorem concat_windowFragments (q : Query) :
    concat q.windowFragments = ofText q.windowClause := by
  have hlocks : (q.clauses.map fun clause ↦ ofText (lockText clause)) =
      (q.clauses.map lockText).map ofText := by simp
  rw [windowFragments, hlocks, concat_append, concat_append, concat_termFragments,
    concat_map_ofText, windowClause, ofText_append, ofText_append, ofText_append]
  simp only [concat, append_empty, append_assoc]
  rfl

/-- A read is its fragments. -/
theorem concat_selectFragments (q : Query) (columns : String) (conds : List Condition) :
    concat (q.selectFragments columns conds) = q.selectColumns columns conds := by
  rw [selectFragments, concat_append, concat_unorderedFragments, concat_windowFragments]
  rfl

/-- A count is its fragments. -/
theorem concat_countFragments (q : Query) (conds : List Condition) :
    concat (q.countFragments conds) = q.countStatement conds := by
  rw [countFragments, countStatement]
  split
  · exact concat_unorderedFragments q "COUNT(*)" conds
  · rw [concat, concat_append, concat_unorderedFragments, concat, concat, append_empty,
      ← append_assoc]
    rfl

/-! ### Fragments of writes -/

/-- The names of the columns that an insertion writes. -/
def insertedColumns (q : Query) (rows : List Fields) : List String :=
  columnUnion (rows.map q.insertedFields)

/-- An insertion of rows. -/
def insertFragments (q : Query) (rows : List Fields) : List Statement :=
  [.ofText ("INSERT INTO " ++ Identifier.quote q.table ++ " (" ++
      quotedList (q.insertedColumns rows) ++ ") SELECT " ++ quotedList (q.insertedColumns rows) ++
      " FROM "),
    .withArgs ("jsonb_populate_recordset(NULL::" ++ Identifier.quote q.table ++ ", ?::jsonb)")
      [.array ((rows.map q.insertedFields).map Fields.toJson)],
    .ofText (q.conflictClause (q.insertedColumns rows)), .ofText " RETURNING *"]

/-- An update. -/
def updateFragments (q : Query) (values : Fields) (conds : List Condition) : List Statement :=
  [.ofText ("UPDATE " ++ Identifier.quote q.table ++ " SET " ++
      updateTarget (q.updatedFields values).names ++ " = "),
    .withArgs ("(SELECT " ++ quotedList (q.updatedFields values).names ++
      " FROM jsonb_populate_record(NULL::" ++ Identifier.quote q.table ++ ", ?::jsonb))")
      [(q.updatedFields values).toJson]] ++
    whereFragments (q.scopedFilters conds)

/-- A deletion. -/
def deleteFragments (q : Query) (conds : List Condition) (deletion : Deletion) : List Statement :=
  match q.identity.softDelete, deletion with
  | some column, .soft =>
    .ofText ("UPDATE " ++ Identifier.quote q.table ++ " SET " ++ Identifier.quote column ++
      " = NOW()") :: whereFragments (q.scopedFilters conds)
  | _, _ =>
    .ofText ("DELETE FROM " ++ Identifier.quote q.table) :: whereFragments (q.callerFilters conds)

-- Text in front of a text with arguments is in front of a statement.
private theorem withArgs_append (a b : String) (args : List Json) :
    Statement.withArgs (a ++ b) args = ofText a ++ Statement.withArgs b args := by
  change _ = Statement.append (ofText a) (Statement.withArgs b args)
  simp [Statement.append, ofText, Statement.withArgs]

private theorem withArgs_append_text (a b : String) (args : List Json) :
    Statement.withArgs (a ++ b) args = Statement.withArgs a args ++ ofText b := by
  change _ = Statement.append (Statement.withArgs a args) (ofText b)
  simp [Statement.append, ofText, Statement.withArgs]

/-- An insertion that is made is its fragments. -/
theorem concat_insertFragments {q : Query} {rows : List Fields} {s : Statement}
    (h : q.insertStatement rows = .ok s) : concat (q.insertFragments rows) = s := by
  simp only [insertStatement] at h
  split at h
  · cases h
  · cases h
    have htext : ∀ table list : String, "INSERT INTO " ++ table ++ " (" ++ list ++ ") SELECT " ++
        list ++ " FROM jsonb_populate_recordset(NULL::" ++ table ++ ", ?::jsonb)" =
        ("INSERT INTO " ++ table ++ " (" ++ list ++ ") SELECT " ++ list ++ " FROM ") ++
          ("jsonb_populate_recordset(NULL::" ++ table ++ ", ?::jsonb)") := by
      intro table list
      have hfrom : " FROM jsonb_populate_recordset(NULL::" =
        " FROM " ++ "jsonb_populate_recordset(NULL::" := by decide
      rw [hfrom]
      simp only [String.append_assoc]
    rw [htext, withArgs_append_text, withArgs_append_text, withArgs_append]
    simp only [insertFragments, concat, append_empty, append_assoc]
    rfl

/-- An update that is made is its fragments. -/
theorem concat_updateFragments {q : Query} {values : Fields} {conds : List Condition}
    {s : Statement} (h : q.updateStatement values conds = .ok s) :
    concat (q.updateFragments values conds) = s := by
  simp only [updateStatement] at h
  split at h
  · cases h
  · split at h
    · cases h
    · cases h
      have htext : ∀ table target list : String, "UPDATE " ++ table ++ " SET " ++ target ++
          " = (SELECT " ++ list ++ " FROM jsonb_populate_record(NULL::" ++ table ++
            ", ?::jsonb))" =
          ("UPDATE " ++ table ++ " SET " ++ target ++ " = ") ++ ("(SELECT " ++ list ++
            " FROM jsonb_populate_record(NULL::" ++ table ++ ", ?::jsonb))") := by
        intro table target list
        have hselect : " = (SELECT " = " = " ++ "(SELECT " := by decide
        rw [hselect]
        simp only [String.append_assoc]
      rw [htext, withArgs_append, updateFragments, concat_append, concat_whereFragments]
      simp only [concat, append_empty]
      rfl

/-- A deletion that is made is its fragments. -/
theorem concat_deleteFragments {q : Query} {conds : List Condition} {deletion : Deletion}
    {s : Statement} (h : q.deleteStatement conds deletion = .ok s) :
    concat (q.deleteFragments conds deletion) = s := by
  unfold deleteStatement at h
  unfold deleteFragments
  dsimp only at h
  split at h
  · cases h
  · cases hmark : q.identity.softDelete with
    | none =>
      simp only [hmark] at h
      cases h
      rw [concat, concat_whereFragments]
      rfl
    | some column =>
      cases deletion <;>
      · simp only [hmark] at h
        cases h
        rw [concat, concat_whereFragments]
        rfl

end Query

end RecordStore
