import RecordStore.Query.Select
import RecordStore.Query.Write

/-!
# Where the conditions stand

A read, a count, an update and a deletion are each a head, the conditions after `WHERE`, and a text
after them. The count of a read with grouping or distinct rows has the WHERE clause of that read.
-/

namespace RecordStore

namespace Statement

/-- A text in front is a statement in front. -/
theorem text_append_eq (sql : String) (s : Statement) : sql ++ s = ofText sql ++ s := rfl

/-- A text behind is a statement behind. -/
theorem append_text_eq (s : Statement) (sql : String) : s ++ sql = s ++ ofText sql := rfl

/-- A text in two parts is two statements. -/
theorem ofText_append (a b : String) : ofText (a ++ b) = ofText a ++ ofText b := by
  change _ = append (ofText a) (ofText b)
  simp [ofText, append]

/-- Nothing behind a statement leaves it as it is. -/
theorem append_ofText_empty (s : Statement) : s ++ ofText "" = s := by
  change append s (ofText "") = s
  simp [ofText, append]

/-- A head with the body of a WHERE clause and a text after it. -/
def withWhere (head body : Statement) (after : String) : Statement :=
  head ++ (" WHERE " ++ (body ++ after))

end Statement

namespace Query

/-- The conditions of a read: those of the caller and the scope. -/
def scopedFilters (q : Query) (conds : List Condition) : List Expr :=
  q.callerFilters conds ++ q.scope

/-- A read of the given columns up to the joins. -/
def selectHead (q : Query) (columns : String) : Statement :=
  ("SELECT " ++ (if q.isDistinct then "DISTINCT " else "") ++ columns) ++
    ((" FROM " ++ Identifier.quote q.table) ++ joinClause q.joins)

/-- Whether the rows of a read are counted, and not the rows of the table. -/
def countsRead (q : Query) : Bool := !q.grouping.isEmpty || q.isDistinct

/-- A count up to its conditions. -/
def countHead (q : Query) : Statement :=
  if q.countsRead then "SELECT COUNT(*) FROM (" ++ q.selectHead q.selectList
  else q.selectHead "COUNT(*)"

/-- A count after its conditions. -/
def countTail (q : Query) : String :=
  if q.countsRead then q.groupClause ++ ") AS \"counted\"" else q.groupClause

/-- An update up to its conditions. -/
def updateHead (q : Query) (values : Fields) : Statement :=
  .withArgs
    ("UPDATE " ++ Identifier.quote q.table ++ " SET " ++
      updateTarget (q.updatedFields values).names ++ " = (SELECT " ++
      quotedList (q.updatedFields values).names ++ " FROM jsonb_populate_record(NULL::" ++
      Identifier.quote q.table ++ ", ?::jsonb))")
    [(q.updatedFields values).toJson]

/-- A soft deletion up to its conditions. -/
def markHead (q : Query) (column : String) : Statement :=
  .ofText
    ("UPDATE " ++ Identifier.quote q.table ++ " SET " ++ Identifier.quote column ++ " = NOW()")

/-- A deletion for good up to its conditions. -/
def removeHead (q : Query) : Statement := .ofText ("DELETE FROM " ++ Identifier.quote q.table)

variable {q : Query} {conds : List Condition}

private theorem whereClause_eq {exprs : List Expr} (hne : exprs ≠ []) :
    whereClause exprs = Statement.ofText " WHERE " ++ conditions exprs := by
  rw [whereClause, body?, List.isEmpty_eq_false_iff.2 hne]
  rfl

private theorem unordered_eq (hne : q.scopedFilters conds ≠ []) (columns : String) :
    q.unordered columns conds =
      (q.selectHead columns).withWhere (conditions (q.scopedFilters conds)) q.groupClause := by
  rw [unordered, fromClause, ← scopedFilters, whereClause_eq hne]
  simp only [Statement.withWhere, selectHead, Statement.text_append_eq, Statement.append_text_eq,
    Statement.append_assoc]

/-- The conditions of a read stand between its joins and its grouping. -/
theorem selectColumns_eq (hne : q.scopedFilters conds ≠ []) (columns : String) :
    q.selectColumns columns conds =
      (q.selectHead columns).withWhere (conditions (q.scopedFilters conds))
        (q.groupClause ++ q.windowClause) := by
  rw [selectColumns, unordered_eq hne]
  simp only [Statement.withWhere, Statement.text_append_eq, Statement.append_text_eq,
    Statement.append_assoc, Statement.ofText_append]

/-- The rows of the table are counted without grouping and distinct rows. -/
theorem countsRead_eq (q : Query) : (q.grouping.isEmpty && !q.isDistinct) = !q.countsRead := by
  rw [countsRead, Bool.not_or, Bool.not_not]

/-- The conditions of a count stand where those of the counted read do. -/
theorem countStatement_eq (hne : q.scopedFilters conds ≠ []) :
    q.countStatement conds =
      q.countHead.withWhere (conditions (q.scopedFilters conds)) q.countTail := by
  rw [countStatement, countHead, countTail, countsRead_eq]
  cases q.countsRead with
  | false => exact unordered_eq hne "COUNT(*)"
  | true =>
    simp only [Bool.not_true, Bool.false_eq_true, ↓reduceIte, unordered_eq hne,
      Statement.withWhere, Statement.text_append_eq, Statement.append_text_eq,
      Statement.append_assoc, Statement.ofText_append]

private theorem append_whereClause (head : Statement) {exprs : List Expr} (hne : exprs ≠ []) :
    head ++ whereClause exprs = head.withWhere (conditions exprs) "" := by
  rw [whereClause_eq hne, Statement.withWhere, Statement.append_text_eq,
    Statement.append_ofText_empty, Statement.text_append_eq]

private theorem append_ne_nil {first : List Expr} (second : List Expr)
    (h : ¬first.isEmpty = true) : first ++ second ≠ [] := by
  cases first with
  | nil => exact absurd rfl h
  | cons e rest => simp

/-- The conditions of an update stand at its end. -/
theorem updateStatement_eq {values : Fields} {s : Statement}
    (h : q.updateStatement values conds = .ok s) :
    s = (q.updateHead values).withWhere (conditions (q.scopedFilters conds)) "" := by
  simp only [updateStatement] at h
  split at h
  · cases h
  · next hfilters =>
    split at h
    · cases h
    · cases h
      exact append_whereClause _ (append_ne_nil q.scope hfilters)

private theorem isEmpty_updatedFields (values : Fields) :
    (q.updatedFields values).isEmpty = true ↔ (q.updatedFields values).names = [] := by
  rw [Fields.isEmpty, List.isEmpty_iff, Fields.names, List.map_eq_nil_iff]

/-- An update is made when it has a filter and something to write. -/
theorem updateStatement_eq_ok_iff {values : Fields} (s : Statement) :
    q.updateStatement values conds = .ok s ↔
      q.callerFilters conds ≠ [] ∧ (q.updatedFields values).names ≠ [] ∧
        s = (q.updateHead values).withWhere (conditions (q.scopedFilters conds)) "" := by
  constructor
  · intro h
    refine ⟨?_, ?_, updateStatement_eq h⟩
    · intro hnil
      simp [updateStatement, hnil] at h
    · intro hnil
      simp only [updateStatement, (isEmpty_updatedFields values).2 hnil, ↓reduceIte] at h
      split at h <;> cases h
  · rintro ⟨hfilters, hnames, hs⟩
    cases h : q.updateStatement values conds with
    | ok made => rw [hs, updateStatement_eq h]
    | error refusal =>
      simp [updateStatement, hfilters, isEmpty_updatedFields, hnames] at h

/-- An update is refused without a filter, and else without anything to write. -/
theorem updateStatement_eq_error_iff {values : Fields} (refusal : Refusal) :
    q.updateStatement values conds = .error refusal ↔
      (refusal = .unfiltered .update ∧ q.callerFilters conds = []) ∨
        (refusal = .noColumns ∧ q.callerFilters conds ≠ [] ∧
          (q.updatedFields values).names = []) := by
  by_cases hfilters : q.callerFilters conds = []
  · have hrefused : q.updateStatement values conds = .error (.unfiltered .update) := by
      simp [updateStatement, hfilters]
    rw [hrefused, Except.error.injEq, eq_comm]
    simp [hfilters]
  · by_cases hnames : (q.updatedFields values).names = []
    · have hrefused : q.updateStatement values conds = .error .noColumns := by
        simp [updateStatement, hfilters, isEmpty_updatedFields, hnames]
      rw [hrefused, Except.error.injEq, eq_comm]
      simp [hfilters, hnames]
    · simp [updateStatement, hfilters, isEmpty_updatedFields, hnames]

/-- The conditions of a soft deletion stand at its end. -/
theorem deleteStatement_soft_eq {column : String} (hmark : q.identity.softDelete = some column)
    {s : Statement} (h : q.deleteStatement conds .soft = .ok s) :
    s = (q.markHead column).withWhere (conditions (q.scopedFilters conds)) "" := by
  simp only [deleteStatement, hmark] at h
  split at h
  · cases h
  · next hfilters =>
    cases h
    exact append_whereClause (q.markHead column) (append_ne_nil q.scope hfilters)

/-- A deletion for good has the conditions of the caller alone, at its end. -/
theorem deleteStatement_hard_eq {deletion : Deletion}
    (hard : q.identity.softDelete = none ∨ deletion = .hard) {s : Statement}
    (h : q.deleteStatement conds deletion = .ok s) :
    s = q.removeHead.withWhere (conditions (q.callerFilters conds)) "" := by
  simp only [deleteStatement] at h
  split at h
  · cases h
  · next hfilters =>
    have hne : q.callerFilters conds ≠ [] := by
      intro hnil
      exact hfilters (by rw [hnil]; rfl)
    split at h
    · next hmark => simp [hmark] at hard
    · cases h
      exact append_whereClause q.removeHead hne

end Query

end RecordStore
