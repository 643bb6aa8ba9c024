import RecordStore.Proofs.Query.Fragments

/-!
# Bound values of the statements of a query

Every statement of a query that aligned calls reach is in step with its arguments, at the end of
each of its fragments. So its placeholders are numbered from one on, up to the number of values that
are bound when it is executed.
-/

namespace RecordStore

open Placeholder Statement

/-- A statement that is made of fragments, at the end of each of which there are as many
placeholders as arguments so far, and whose marks are numbered in order up to the number of bound
values. -/
structure InStep (fragments : List Statement) (s : Statement) : Prop where
  whole : concat fragments = s
  boundary : ∀ before after, fragments = before ++ after →
    (concat before).marks = (concat before).args.length
  count_eq : s.marks = s.args.length
  executed : (Executed.ofStatement s).sql = String.ofList (s.pieces.flatMap Piece.text)
  numbered : s.pieces.filterMap Piece.mark? = List.range' 1 (Executed.ofStatement s).args.length

/-- Aligned fragments are in step with their arguments. -/
theorem inStep_of_aligned {fragments : List Statement} (h : ∀ f ∈ fragments, f.Aligned)
    {s : Statement} (hwhole : concat fragments = s) : InStep fragments s := by
  have hcount : s.marks = s.args.length := by
    rw [← hwhole]
    exact (aligned_concat h).count_eq
  refine ⟨hwhole, ?_, hcount, ?_, ?_⟩
  · rintro before after rfl
    rw [List.forall_mem_append] at h
    exact (aligned_concat h.1).count_eq
  · change s.toPostgres = _
    rw [toPostgres, number_eq_flatMap]
    rfl
  · rw [Statement.filterMap_mark?, hcount, Executed.ofStatement, List.length_map]

namespace Query.Aligned

variable {q : Query} {conds : List Condition}

/-- The filters of an aligned query and of aligned conditions have aligned leaves. -/
theorem callerFilters (hq : q.Aligned) (hconds : ∀ cond ∈ conds, cond.Aligned) :
    ∀ l ∈ Expr.leavesOf (q.callerFilters conds), l.IsAlignedLeaf := by
  intro l hl
  rw [Expr.leavesOf_eq_flatMap] at hl
  obtain ⟨e, he, hl⟩ := List.mem_flatMap.1 hl
  have hcaller := (List.mem_filter.1 (List.mem_filter.1 he).1).1
  rcases List.mem_append.1 hcaller with hfilter | hcond
  · exact hq.filters e hfilter l hl
  · obtain ⟨cond, hmem, rfl⟩ := List.mem_map.1 hcond
    exact (hconds cond hmem).toExpr q.table q.primaryKey l hl

private theorem scopedFilters (hq : q.Aligned) (hconds : ∀ cond ∈ conds, cond.Aligned) :
    ∀ l ∈ Expr.leavesOf (q.scopedFilters conds), l.IsAlignedLeaf := by
  intro l hl
  rw [Query.scopedFilters, Expr.leavesOf_append] at hl
  rcases List.mem_append.1 hl with hl | hl
  · exact hq.callerFilters hconds l hl
  · obtain ⟨sql, rfl, hsql⟩ := q.forall_leavesOf_scope l hl
    exact ⟨hsql.closed, hsql.unmarked⟩

private theorem whereFragments {exprs : List Expr}
    (h : ∀ l ∈ Expr.leavesOf exprs, l.IsAlignedLeaf) :
    ∀ f ∈ Query.whereFragments exprs, f.Aligned := by
  rw [Query.whereFragments]
  split
  · exact List.forall_mem_nil _
  · rw [List.forall_mem_cons]
    exact ⟨.ofText (by decide), Expr.aligned_conditionFragments h⟩

private theorem termFragments {keyword : String} (hkeyword : IsPlain keyword.toList)
    {terms : List String} (h : ∀ term ∈ terms, IsPlain term.toList) :
    ∀ f ∈ Query.termFragments keyword terms, f.Aligned := by
  rw [Query.termFragments]
  split
  · exact List.forall_mem_nil _
  · simp only [List.forall_mem_cons]
    exact ⟨.ofText hkeyword, .ofText (.intercalate (by decide) h), List.forall_mem_nil _⟩

private theorem joinClauseFragments {joins : List Statement} (h : ∀ join ∈ joins, join.Aligned) :
    ∀ f ∈ Query.joinClauseFragments joins, f.Aligned := by
  intro f hf
  obtain ⟨join, hjoin, hf⟩ := List.mem_flatMap.1 hf
  have hblank : (Statement.ofText " ").Aligned := by decide
  rcases List.mem_cons.1 hf with rfl | hf
  · exact hblank
  · rw [List.mem_singleton.1 hf]
    exact h join hjoin

private theorem unorderedFragments (hq : q.Aligned) (hconds : ∀ cond ∈ conds, cond.Aligned)
    {columns : String} (hcolumns : IsPlain columns.toList) :
    ∀ f ∈ q.unorderedFragments columns conds, f.Aligned := by
  have hdistinct : IsPlain (if q.isDistinct then "DISTINCT " else "").toList := by
    cases q.isDistinct <;> decide
  rw [Query.unorderedFragments]
  simp only [List.forall_mem_append, List.forall_mem_cons]
  exact ⟨⟨by decide, .ofText hdistinct, .ofText hcolumns, by decide, .ofText (isPlain_quote _),
    List.forall_mem_nil _⟩, joinClauseFragments hq.joins, whereFragments (hq.scopedFilters hconds),
    termFragments (by decide) hq.grouping⟩

private theorem windowFragments (hq : q.Aligned) : ∀ f ∈ q.windowFragments, f.Aligned := by
  have hlocks : ∀ f ∈ q.clauses.map fun clause ↦ Statement.ofText (lockText clause), f.Aligned := by
    intro f hf
    obtain ⟨clause, -, rfl⟩ := List.mem_map.1 hf
    exact .ofText (isPlain_lockText clause)
  rw [Query.windowFragments]
  simp only [List.forall_mem_append, List.forall_mem_cons]
  exact ⟨termFragments (by decide) hq.ordering, ⟨.ofText (isPlain_boundClause (by decide) _),
    .ofText (isPlain_boundClause (by decide) _), List.forall_mem_nil _⟩, hlocks⟩

/-- A read of plain columns is in step with its arguments. -/
theorem inStep_selectColumns (hq : q.Aligned) (hconds : ∀ cond ∈ conds, cond.Aligned)
    {columns : String} (hcolumns : IsPlain columns.toList) :
    InStep (q.selectFragments columns conds) (q.selectColumns columns conds) := by
  refine inStep_of_aligned ?_ (concat_selectFragments q columns conds)
  rw [selectFragments, List.forall_mem_append]
  exact ⟨hq.unorderedFragments hconds hcolumns, hq.windowFragments⟩

/-- A count is in step with its arguments. -/
theorem inStep_countStatement (hq : q.Aligned) (hconds : ∀ cond ∈ conds, cond.Aligned) :
    InStep (q.countFragments conds) (q.countStatement conds) := by
  refine inStep_of_aligned ?_ (concat_countFragments q conds)
  rw [countFragments]
  split
  · exact hq.unorderedFragments hconds (by decide)
  · rw [List.forall_mem_cons, List.forall_mem_append, List.forall_mem_singleton]
    exact ⟨by decide, hq.unorderedFragments hconds (isPlain_selectList hq.selected), by decide⟩

/-- An update is in step with its arguments, whatever the names of its fields are. -/
theorem inStep_updateStatement (hq : q.Aligned) (hconds : ∀ cond ∈ conds, cond.Aligned)
    {values : Fields} {s : Statement} (hs : q.updateStatement values conds = .ok s) :
    InStep (q.updateFragments values conds) s := by
  have hupdate : IsPlain "UPDATE ".toList := by decide
  have hset : IsPlain " SET ".toList := by decide
  have hequal : IsPlain " = ".toList := by decide
  have hselect : IsPlain "(SELECT ".toList := by decide
  have hfrom : IsPlain " FROM jsonb_populate_record(NULL::".toList := by decide
  have hpayload : IsClosed ", ?::jsonb))".toList ∧ count none ", ?::jsonb))".toList = 1 := by decide
  have hassigned := (((hupdate.text_append (isPlain_quote q.table)).text_append
    hset).text_append (isPlain_updateTarget (q.updatedFields values).names)).text_append hequal
  have hsource := (hselect.text_append
    (isPlain_quotedList (q.updatedFields values).names)).text_append hfrom
  refine inStep_of_aligned ?_ (concat_updateFragments hs)
  rw [updateFragments, List.forall_mem_append, List.forall_mem_cons, List.forall_mem_singleton]
  refine ⟨⟨.ofText hassigned, ?_⟩, whereFragments (hq.scopedFilters hconds)⟩
  exact .behind (hsource.text_append (isPlain_quote q.table)) hpayload.1 hpayload.2

/-- A deletion, soft or for good, is in step with its arguments. -/
theorem inStep_deleteStatement (hq : q.Aligned) (hconds : ∀ cond ∈ conds, cond.Aligned)
    {deletion : Deletion} {s : Statement} (hs : q.deleteStatement conds deletion = .ok s) :
    InStep (q.deleteFragments conds deletion) s := by
  have hupdate : IsPlain "UPDATE ".toList := by decide
  have hset : IsPlain " SET ".toList := by decide
  have hnow : IsPlain " = NOW()".toList := by decide
  have hdelete : IsPlain "DELETE FROM ".toList := by decide
  refine inStep_of_aligned ?_ (concat_deleteFragments hs)
  unfold Query.deleteFragments
  split
  · next column _ =>
    have hmarked := ((hupdate.text_append (isPlain_quote q.table)).text_append
      hset).text_append (isPlain_quote column)
    rw [List.forall_mem_cons]
    exact ⟨.ofText (hmarked.text_append hnow), whereFragments (hq.scopedFilters hconds)⟩
  · rw [List.forall_mem_cons]
    exact ⟨.ofText (hdelete.text_append (isPlain_quote q.table)),
      whereFragments (hq.callerFilters hconds)⟩

end Query.Aligned

namespace Query

/-- An insertion is in step with its argument, whatever the names in its rows are. -/
theorem inStep_insertStatement {q : Query} {rows : List Fields} {s : Statement}
    (hs : q.insertStatement rows = .ok s) : InStep (q.insertFragments rows) s := by
  have hinsert : IsPlain "INSERT INTO ".toList := by decide
  have hopening : IsPlain " (".toList := by decide
  have hselect : IsPlain ") SELECT ".toList := by decide
  have hfrom : IsPlain " FROM ".toList := by decide
  have hpopulate : IsPlain "jsonb_populate_recordset(NULL::".toList := by decide
  have hpayload : IsClosed ", ?::jsonb)".toList ∧ count none ", ?::jsonb)".toList = 1 := by decide
  have hcolumns := isPlain_quotedList (q.insertedColumns rows)
  have hhead := ((((hinsert.text_append (isPlain_quote q.table)).text_append
    hopening).text_append hcolumns).text_append hselect).text_append hcolumns
  refine inStep_of_aligned ?_ (concat_insertFragments hs)
  rw [insertFragments]
  simp only [List.forall_mem_cons]
  exact ⟨.ofText (hhead.text_append hfrom),
    .behind (hpopulate.text_append (isPlain_quote q.table)) hpayload.1 hpayload.2,
    .ofText (isPlain_conflictClause q _), by decide, List.forall_mem_nil _⟩

/-- Every statement of a query that aligned calls reach is in step with its arguments. -/
theorem statements_in_step (identity : TableIdentity) {calls : List Call} {conds : List Condition}
    (hcalls : ∀ call ∈ calls, call.Aligned) (hconds : ∀ cond ∈ conds, cond.Aligned) {q : Query}
    (hq : q = Call.applyAll (ofIdentity identity) calls) :
    InStep (q.selectFragments q.selectList conds) (q.selectStatement conds) ∧
      (∀ columns : String, IsPlain columns.toList →
        InStep (q.selectFragments columns conds) (q.selectColumns columns conds)) ∧
      InStep (q.countFragments conds) (q.countStatement conds) ∧
      (∀ rows s, q.insertStatement rows = .ok s → InStep (q.insertFragments rows) s) ∧
      (∀ values s, q.updateStatement values conds = .ok s →
        InStep (q.updateFragments values conds) s) ∧
      (∀ deletion s, q.deleteStatement conds deletion = .ok s →
        InStep (q.deleteFragments conds deletion) s) := by
  have haligned : q.Aligned := by
    rw [hq]
    exact (Aligned.ofIdentity identity).applyAll hcalls
  refine ⟨?_, ?_, ?_, ?_, ?_, ?_⟩
  · exact haligned.inStep_selectColumns hconds (isPlain_selectList haligned.selected)
  · intro columns hcolumns
    exact haligned.inStep_selectColumns hconds hcolumns
  · exact haligned.inStep_countStatement hconds
  · intro rows s hs
    exact inStep_insertStatement hs
  · intro values s hs
    exact haligned.inStep_updateStatement hconds hs
  · intro deletion s hs
    exact haligned.inStep_deleteStatement hconds hs

/-- A quote in the name of a table and a question mark in the name of a column leave the values of a
join and a condition in step with their placeholders. -/
theorem statements_in_step_names :
    let q := Call.applyAll (ofTable "t'") [.join "JOIN u ON a = ?" [.int 1]]
    InStep (q.selectFragments "b" [.equal "?" (.string "x")])
        (q.selectColumns "b" [.equal "?" (.string "x")]) ∧
      Executed.ofStatement (q.selectColumns "b" [.equal "?" (.string "x")]) =
        ⟨"SELECT b FROM \"t'\" JOIN u ON a = $1 WHERE \"?\" = $2",
          [.int8 1, .text (some "x")]⟩ := by
  intro q
  have hcalls : ∀ call ∈ [Call.join "JOIN u ON a = ?" [.int 1]], call.Aligned := by decide
  have hconds : ∀ cond ∈ [Condition.equal "?" (.string "x")], cond.Aligned := by decide
  obtain ⟨-, hread, -⟩ := statements_in_step (.named "t'") hcalls hconds rfl
  exact ⟨hread "b" (by decide), by decide +kernel⟩

end Query

end RecordStore
