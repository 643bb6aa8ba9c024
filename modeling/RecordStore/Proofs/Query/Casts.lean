import RecordStore.Proofs.Placeholder.Placed
import RecordStore.Proofs.Query.Plain
import RecordStore.Proofs.Query.Where

/-!
# Casts in the statements of a query

However a WHERE clause is put into a statement, its filters come to the text that they have when
they are written at once with the marks in front of them counted: each comparison with a text gets
its cast right behind its own column, and nothing else gets one.
-/

namespace RecordStore

open Placeholder

namespace Statement

/-- A head, filters after `WHERE` written at once, and a text after them with its placeholders
numbered on. -/
def writtenWhere (head : Statement) (exprs : List Expr) (after : String) : String :=
  head.toPostgres ++ " WHERE " ++ String.ofList (Expr.directConditions head.marks exprs) ++
    String.ofList (numberMarks none
      (head.marks + ((Expr.nonEmpty exprs).map Expr.placeholders).sum) after.toList)

/-- Filters in a WHERE clause are written as at once after a settled head. -/
theorem toPostgres_withWhere {head : Statement} (hhead : head.Settled) {exprs : List Expr}
    (h : ∀ l ∈ Expr.leavesOf exprs, l.IsClosedLeaf) (after : String) :
    (head.withWhere (conditions exprs) after).toPostgres = head.writtenWhere exprs after := by
  obtain ⟨hsettled, hmarks, hnumbered⟩ := Expr.conditions_written h
  have hkeyword : IsPlain " WHERE ".toList := by decide
  have hkeyword_settled := Settled.ofText hkeyword.closed
  have hkeyword_marks : (ofText " WHERE ").marks = 0 := hkeyword.unmarked
  have hafter : ∀ marks, (ofText after).numbered marks = numberMarks none marks after.toList :=
    numbered_withArgs after []
  rw [toPostgres_eq]
  change String.ofList
    ((head ++ (ofText " WHERE " ++ (conditions exprs ++ ofText after))).numbered 0) = _
  rw [hhead.numbered_append, hkeyword_settled.numbered_append, hsettled.numbered_append,
    hnumbered, numbered_ofText hkeyword, hafter, hkeyword_marks, hmarks, writtenWhere,
    toPostgres_eq]
  simp only [String.ofList_append, String.ofList_toList, String.append_assoc, Nat.zero_add,
    Nat.add_zero]

end Statement

namespace Query

variable {q : Query} {conds : List Condition}

private theorem settled_joinClause {joins : List Statement} (h : ∀ join ∈ joins, join.Settled) :
    (joinClause joins).Settled := by
  induction joins with
  | nil => exact ⟨rfl, rfl⟩
  | cons join rest ih =>
    rw [List.forall_mem_cons] at h
    have hblank : IsClosed " ".toList := by decide
    exact (Statement.Settled.ofText hblank).append (h.1.append (ih h.2))

/-- A read is settled up to its joins. -/
theorem settled_selectHead (hjoins : ∀ join ∈ q.joins, join.Settled) {columns : String}
    (hcolumns : IsClosed columns.toList) : (q.selectHead columns).Settled := by
  have hselect : IsClosed ("SELECT " ++ if q.isDistinct then "DISTINCT " else "").toList := by
    cases q.isDistinct <;> decide
  have hfrom : IsClosed " FROM ".toList := by decide
  exact (Statement.Settled.ofText (hselect.text_append hcolumns)).append
    ((Statement.Settled.ofText (hfrom.text_append (isPlain_quote q.table).closed)).append
      (settled_joinClause hjoins))

/-- Joins have all their casts in them when each of them has. -/
theorem castsPlaced_joinClause {joins : List Statement}
    (h : ∀ join ∈ joins, join.CastsPlaced) : (joinClause joins).CastsPlaced := by
  induction joins with
  | nil => exact .ofText ""
  | cons join rest ih =>
    rw [List.forall_mem_cons] at h
    exact (Statement.CastsPlaced.ofText " ").append (h.1.append (ih h.2))

/-- A read has all its casts in it up to its joins. -/
theorem castsPlaced_selectHead (h : ∀ join ∈ q.joins, join.CastsPlaced) (columns : String) :
    (q.selectHead columns).CastsPlaced :=
  (Statement.CastsPlaced.ofText _).append
    ((Statement.CastsPlaced.ofText _).append (castsPlaced_joinClause h))

/-- A count is settled up to its conditions. -/
theorem settled_countHead (hjoins : ∀ join ∈ q.joins, join.Settled)
    (hcolumns : IsClosed q.selectList.toList) : q.countHead.Settled := by
  rw [countHead]
  split
  · exact (Statement.Settled.ofText (by decide)).append (settled_selectHead hjoins hcolumns)
  · exact settled_selectHead hjoins (by decide)

/-- An update is settled up to its conditions. -/
theorem settled_updateHead (q : Query) (values : Fields) : (q.updateHead values).Settled := by
  have hupdate : IsClosed "UPDATE ".toList := by decide
  have hset : IsClosed " SET ".toList := by decide
  have hselect : IsClosed " = (SELECT ".toList := by decide
  have hfrom : IsClosed " FROM jsonb_populate_record(NULL::".toList := by decide
  have hpayload : IsClosed ", ?::jsonb))".toList := by decide
  have htable := (isPlain_quote q.table).closed
  have hassigned := ((hupdate.text_append htable).text_append hset).text_append
    (isPlain_updateTarget (q.updatedFields values).names).closed
  have hsource := ((hassigned.text_append hselect).text_append
    (isPlain_quotedList (q.updatedFields values).names).closed).text_append hfrom
  exact .withArgs ((hsource.text_append htable).text_append hpayload) _

/-- A soft deletion is settled up to its conditions. -/
theorem settled_markHead (q : Query) (column : String) : (q.markHead column).Settled := by
  have hupdate : IsClosed "UPDATE ".toList := by decide
  have hset : IsClosed " SET ".toList := by decide
  have hnow : IsClosed " = NOW()".toList := by decide
  exact .ofText ((((hupdate.text_append (isPlain_quote q.table).closed).text_append
    hset).text_append (isPlain_quote column).closed).text_append hnow)

/-- A deletion for good is settled up to its conditions. -/
theorem settled_removeHead (q : Query) : q.removeHead.Settled := by
  have hdelete : IsClosed "DELETE FROM ".toList := by decide
  exact .ofText (hdelete.text_append (isPlain_quote q.table).closed)

private theorem isClosedLeaf_scopedFilters
    (h : ∀ l ∈ Expr.leavesOf (q.callerFilters conds), l.IsClosedLeaf) :
    ∀ l ∈ Expr.leavesOf (q.scopedFilters conds), l.IsClosedLeaf := by
  intro l hl
  rw [scopedFilters, Expr.leavesOf_append] at hl
  rcases List.mem_append.1 hl with hl | hl
  · exact h l hl
  · obtain ⟨sql, rfl, hsql⟩ := q.forall_leavesOf_scope l hl
    exact hsql.closed

/-- Filters that are written first and numbered and cast later come to the text that they are
written as at once, whatever settled text is in front of them, and further statements shift their
marks by those in front. So do the filters in the WHERE clause of every read, count, update and
deletion. -/
theorem filters_written_at_once (s t : Statement) (exprs : List Expr) (q : Query)
    (conds : List Condition) :
    (s.Built → (∀ l ∈ Expr.leavesOf exprs, l.IsClosedLeaf) →
      (s ++ conditions exprs).toPostgres =
          s.toPostgres ++ String.ofList (Expr.directConditions s.marks exprs) ∧
        t.toPostgres = String.ofList (t.pieces.flatMap Piece.text) ∧
        (s ++ t).toPostgres = s.toPostgres ++
          String.ofList ((t.pieces.map (Piece.shift s.marks)).flatMap Piece.text)) ∧
    ((∀ join ∈ q.joins, join.Built) →
      (∀ l ∈ Expr.leavesOf (q.callerFilters conds), l.IsClosedLeaf) →
      (q.scopedFilters conds ≠ [] →
        (∀ columns : String, IsClosed columns.toList → (q.selectColumns columns conds).toPostgres =
          (q.selectHead columns).writtenWhere (q.scopedFilters conds)
            (q.groupClause ++ q.windowClause)) ∧
        (IsClosed q.selectList.toList → (q.countStatement conds).toPostgres =
          q.countHead.writtenWhere (q.scopedFilters conds) q.countTail)) ∧
      (∀ values s, q.updateStatement values conds = .ok s →
        s.toPostgres = (q.updateHead values).writtenWhere (q.scopedFilters conds) "") ∧
      (∀ column s, q.identity.softDelete = some column → q.deleteStatement conds .soft = .ok s →
        s.toPostgres = (q.markHead column).writtenWhere (q.scopedFilters conds) "") ∧
      (∀ deletion s, q.identity.softDelete = none ∨ deletion = .hard →
        q.deleteStatement conds deletion = .ok s →
        s.toPostgres = q.removeHead.writtenWhere (q.callerFilters conds) "")) := by
  refine ⟨?_, ?_⟩
  · intro hs h
    have hsettled := hs.settled
    obtain ⟨-, -, hnumbered⟩ := Expr.conditions_written h
    refine ⟨?_, ?_, ?_⟩
    · rw [Statement.toPostgres_eq, hsettled.numbered_append, hnumbered, Nat.zero_add,
        String.ofList_append, ← Statement.toPostgres_eq]
    · rw [Statement.toPostgres, number_eq_flatMap]
      rfl
    · rw [Statement.toPostgres_eq, hsettled.numbered_append, Nat.zero_add, String.ofList_append,
        ← Statement.toPostgres_eq]
      rfl
  · intro hjoins h
    have hsettled : ∀ join ∈ q.joins, join.Settled := fun join hjoin ↦ (hjoins join hjoin).settled
    have hscoped := isClosedLeaf_scopedFilters h
    refine ⟨?_, ?_, ?_, ?_⟩
    · intro hne
      refine ⟨?_, ?_⟩
      · intro columns hcolumns
        rw [selectColumns_eq hne]
        exact Statement.toPostgres_withWhere (settled_selectHead hsettled hcolumns) hscoped _
      · intro hcolumns
        rw [countStatement_eq hne]
        exact Statement.toPostgres_withWhere (settled_countHead hsettled hcolumns) hscoped _
    · intro values s hs
      rw [updateStatement_eq hs]
      exact Statement.toPostgres_withWhere (q.settled_updateHead values) hscoped _
    · intro column s hmark hs
      rw [deleteStatement_soft_eq hmark hs]
      exact Statement.toPostgres_withWhere (q.settled_markHead column) hscoped _
    · intro deletion s hard hs
      rw [deleteStatement_hard_eq hard hs]
      exact Statement.toPostgres_withWhere q.settled_removeHead h _

/-- A comparison with a text gets its cast behind the column inside an alternative and inside a
counted read alike. -/
theorem filters_written_at_once_in_groups :
    (Statement.withArgs "a = ? AND " [.null] ++ conditions
        [.group .or [.compare "é" "LIKE" (.string "x"), .raw "b = ?" [.null]]]).toPostgres =
      "a = $1 AND (é::text LIKE $2 OR b = $3)" ∧
    ((((ofTable "t").join "JOIN u ON k = ?" [.null]).filter
        (.compare "é" "=" (.string "x"))).distinct.countStatement []).toPostgres =
      "SELECT COUNT(*) FROM (SELECT DISTINCT \"t\".* FROM \"t\" JOIN u ON k = $1" ++
        " WHERE é::text = $2) AS \"counted\"" := by
  let q := (((ofTable "t").join "JOIN u ON k = ?" [.null]).filter
    (.compare "é" "=" (.string "x"))).distinct
  obtain ⟨hstatement, hquery⟩ := filters_written_at_once (.withArgs "a = ? AND " [.null]) ∅
    [.group .or [.compare "é" "LIKE" (.string "x"), .raw "b = ?" [.null]]] q []
  refine ⟨?_, ?_⟩
  · have hhead : (Statement.withArgs "a = ? AND " [.null]).Built := .new [.null] (by decide)
    exact (hstatement hhead (by decide)).1.trans (by decide)
  · have hjoins : ∀ join ∈ [Statement.withArgs "JOIN u ON k = ?" [.null]], join.Built := by
      intro join hjoin
      rw [List.mem_singleton.1 hjoin]
      exact .new [.null] (by decide)
    have hleaves : ∀ l ∈ Expr.leavesOf (q.callerFilters []), l.IsClosedLeaf := by decide
    have hne : q.scopedFilters [] ≠ [] := List.cons_ne_nil _ _
    exact (((hquery hjoins hleaves).1 hne).2 (by decide)).trans (by decide +kernel)

/-- A question mark in the column of a comparison is a placeholder, as it is in hand-written SQL,
and takes the number in front of that of the comparison's own. -/
theorem toPostgres_column_placeholder :
    ((∅ : Statement) ++ conditions [.compare "a?" "=" (.int 1)]).toPostgres = "a$1 = $2" ∧
      ((∅ : Statement) ++ conditions [.compare "a?" "=" (.int 1)]).toPostgres ≠
        (∅ : Statement).toPostgres ++ "a? = $1" := by decide

end Query

end RecordStore
