import RecordStore.Proofs.Filter.Comparison
import RecordStore.Proofs.Query.Scope
import RecordStore.Proofs.Query.Unfiltered

/-!
# Where the scope stands

Reads, counts, updates and soft deletions have one body in their WHERE clause: what has been asked
for and writes something, and behind it the test that the mark of deletion is null. The test is
there when the table has a mark and the scope has not been lifted since the last reset; a deletion
for good never has it. Without the test there is a body exactly when something is asked for.
-/

namespace RecordStore

open Statement

/-! ### Names that hold a conjunction -/

-- A part without a character does not reach across it.
private theorem isPrefixOf_append_cons {c : Char} {part : List Char} (h : c ∉ part)
    (xs ys : List Char) : part.isPrefixOf (xs ++ c :: ys) = part.isPrefixOf xs := by
  induction part generalizing xs with
  | nil => rw [List.isPrefixOf_nil_left, List.isPrefixOf_nil_left]
  | cons d rest ih =>
    rw [List.mem_cons, not_or] at h
    cases xs with
    | nil =>
      rw [List.nil_append, List.isPrefixOf_cons_cons, beq_eq_false_iff_ne.2 (Ne.symm h.1)]
      rfl
    | cons x xs =>
      rw [List.cons_append, List.isPrefixOf_cons_cons, List.isPrefixOf_cons_cons, ih h.2]

private theorem occursIn_append_cons {c : Char} {part : List Char} (hne : part ≠ [])
    (h : c ∉ part) (xs ys : List Char) :
    occursIn part (xs ++ c :: ys) = (occursIn part xs || occursIn part ys) := by
  induction xs with
  | nil =>
    have hprefix := isPrefixOf_append_cons h [] ys
    have hnil : part.isPrefixOf [] = false := by
      cases part with
      | nil => exact absurd rfl hne
      | cons d rest => rfl
    rw [List.nil_append] at hprefix ⊢
    rw [occursIn, occursIn, hprefix, hnil, List.isEmpty_eq_false_iff.2 hne]
  | cons x xs ih =>
    have hprefix := isPrefixOf_append_cons h (x :: xs) ys
    rw [List.cons_append] at hprefix ⊢
    rw [occursIn, occursIn, hprefix, ih, Bool.or_assoc]

private theorem occursIn_cons {c : Char} {part : List Char} (hne : part ≠ []) (h : c ∉ part)
    (xs : List Char) : occursIn part (c :: xs) = occursIn part xs := by
  have happend := occursIn_append_cons hne h [] xs
  rwa [List.nil_append, occursIn, List.isEmpty_eq_false_iff.2 hne, Bool.false_or] at happend

-- The quotes that a quoted name writes twice neither make nor break a part without quotes.
private theorem occursIn_quotedChars {part : List Char} (hne : part ≠ []) (h : '"' ∉ part)
    (front name : List Char) :
    occursIn part (front ++ name.flatMap Identifier.quotedChar) =
      occursIn part (front ++ name) := by
  induction name generalizing front with
  | nil => rfl
  | cons c rest ih =>
    rw [List.flatMap_cons, Identifier.quotedChar]
    split
    · next hc =>
      rw [hc, List.cons_append, List.cons_append, List.nil_append, occursIn_append_cons hne h,
        occursIn_append_cons hne h, occursIn_cons hne h]
      exact congrArg (occursIn part front || ·) (ih [])
    · rw [← List.append_assoc, ih (front ++ [c]), List.append_assoc]
      rfl

private theorem toUpper_eq_quote_iff (c : Char) : c.toUpper = '"' ↔ c = '"' := by
  delta Char.toUpper
  split
  · next h =>
    simp only [Char.ext_iff, UInt32.le_iff_toNat_le, ← UInt32.toNat_inj] at h ⊢
    simp at h ⊢
    omega
  · rfl

private theorem map_toUpper_quoteChars (name : List Char) :
    (Identifier.quoteChars name).map Char.toUpper =
      Identifier.quoteChars (name.map Char.toUpper) := by
  have hchar (c : Char) :
      (Identifier.quotedChar c).map Char.toUpper = Identifier.quotedChar c.toUpper := by
    by_cases hc : c = '"'
    · rw [hc]
      rfl
    · rw [Identifier.quotedChar, Identifier.quotedChar, if_neg hc,
        if_neg (mt (toUpper_eq_quote_iff c).1 hc)]
      rfl
  simp only [Identifier.quoteChars, List.map_cons, List.map_append, List.map_flatMap,
    List.flatMap_map, hchar]
  rfl

-- A quoted name keeps apart what stands in front of it and behind it.
private theorem occursIn_quoteChars {part : List Char} (hne : part ≠ []) (h : '"' ∉ part)
    (front name after : List Char) :
    occursIn part (front ++ (Identifier.quoteChars name ++ after)) =
      (occursIn part front || (occursIn part name || occursIn part after)) := by
  have hname := occursIn_quotedChars hne h [] name
  rw [List.nil_append, List.nil_append] at hname
  rw [Identifier.quoteChars, List.cons_append, List.append_assoc, occursIn_append_cons hne h,
    List.cons_append, List.nil_append, occursIn_append_cons hne h, hname]

private theorem occursIn_nullTest {part : List Char} (hne : part ≠ []) (h : '"' ∉ part)
    (hpoint : occursIn part ['.'] = false)
    (hnull : occursIn part (" IS NULL".toList.map Char.toUpper) = false) (table column : String) :
    occursIn part ((Identifier.qualified table column ++ " IS NULL").toList.map Char.toUpper) =
      (occursIn part (table.toList.map Char.toUpper) ||
        occursIn part (column.toList.map Char.toUpper)) := by
  have htext : (Identifier.qualified table column ++ " IS NULL").toList.map Char.toUpper =
      [] ++ (Identifier.quoteChars (table.toList.map Char.toUpper) ++
        (['.'] ++ (Identifier.quoteChars (column.toList.map Char.toUpper) ++
          " IS NULL".toList.map Char.toUpper))) := by
    simp only [Identifier.qualified, String.toList_append, Identifier.toList_quote,
      List.map_append, map_toUpper_quoteChars, List.append_assoc]
    rfl
  rw [htext, occursIn_quoteChars hne h, occursIn_quoteChars hne h, hpoint, hnull, occursIn,
    List.isEmpty_eq_false_iff.2 hne, Bool.false_or, Bool.false_or, Bool.or_false]

/-- A test of a column for null holds a conjunction exactly when the name of the table or of the
column does. -/
theorem hasConjunction_nullTest (table column : String) :
    hasConjunction (Identifier.qualified table column ++ " IS NULL") =
      (hasConjunction table || hasConjunction column) := by
  have hand := occursIn_nullTest (by decide : [' ', 'A', 'N', 'D', ' '] ≠ []) (by decide)
    (by decide) (by decide) table column
  have hor := occursIn_nullTest (by decide : [' ', 'O', 'R', ' '] ≠ []) (by decide)
    (by decide) (by decide) table column
  rw [hasConjunction, hasConjunction, hasConjunction, hand, hor]
  simp only [Bool.or_assoc, Bool.or_left_comm]

/-! ### Lifting the scope -/

/-- Calls that lift the scope: it is lifted after the last reset, if there is one. -/
def Call.Lift (calls : List Call) : Prop :=
  ∃ before after, calls = before ++ Call.unscoped :: after ∧ Call.reset ∉ after

namespace Call

private theorem lift_concat (calls : List Call) (call : Call) :
    Lift (calls ++ [call]) ↔ call = .unscoped ∨ (call ≠ .reset ∧ Lift calls) := by
  constructor
  · rintro ⟨before, after, heq, hreset⟩
    rcases List.eq_nil_or_concat' after with rfl | ⟨others, last, rfl⟩
    · exact .inl (by simpa using (List.append_inj' heq rfl).2)
    · rw [← List.cons_append, ← List.append_assoc] at heq
      obtain ⟨hcalls, hlast⟩ := List.append_inj' heq rfl
      rw [List.singleton_inj] at hlast
      rw [List.mem_append, List.mem_singleton, not_or] at hreset
      refine .inr ⟨?_, before, others, hcalls, hreset.1⟩
      rw [hlast]
      exact Ne.symm hreset.2
  · rintro (rfl | ⟨hcall, before, after, rfl, hreset⟩)
    · exact ⟨calls, [], rfl, List.not_mem_nil⟩
    · refine ⟨before, after ++ [call], by simp, ?_⟩
      rw [List.mem_append, List.mem_singleton, not_or]
      exact ⟨hreset, Ne.symm hcall⟩

end Call

namespace Query

private theorem includesDeleted_filter (q : Query) (e : Expr) :
    (q.filter e).includesDeleted = q.includesDeleted := by
  rw [filter]
  split <;> rfl

private theorem includesDeleted_apply (q : Query) (call : Call) :
    (call.apply q).includesDeleted = true ↔
      call = .unscoped ∨ (call ≠ .reset ∧ q.includesDeleted = true) := by
  cases call with
  | filter e => simp [Call.apply, includesDeleted_filter]
  | filterEqual column value => simp [Call.apply, filterEqual, includesDeleted_filter]
  | search group =>
    rw [Call.apply, search]
    split <;> simp [includesDeleted_filter]
  | orderBy term =>
    rw [Call.apply, orderBy]
    split <;> simp
  | batch size after =>
    cases after <;> simp [Call.apply, batch, filterRaw, includesDeleted_filter]
  | unscoped => simp [Call.apply, Query.unscoped]
  | reset => simp [Call.apply, Query.reset, ofIdentity]
  | withTable | withSoftDelete | withPrimaryKey | join | groupBy | limit | offset | distinct
  | select | omitting | preload | clause | attrs | assign | first =>
    simp only [reduceCtorEq, not_false_eq_true, ne_eq, true_and, false_or]
    exact Iff.rfl

/-- Rows marked as deleted take part exactly when the calls lift the scope. -/
theorem includesDeleted_applyAll_iff (identity : TableIdentity) (calls : List Call) :
    (Call.applyAll (.ofIdentity identity) calls).includesDeleted = true ↔ Call.Lift calls := by
  induction calls using List.reverseRecOn with
  | nil =>
    have hnot : ¬Call.Lift [] := by
      rintro ⟨before, after, heq, -⟩
      cases before <;> cases heq
    simpa [Call.applyAll, ofIdentity] using hnot
  | append_singleton calls call ih =>
    rw [Call.lift_concat, ← ih, Call.applyAll, List.foldl_append]
    exact includesDeleted_apply _ call

end Query

/-! ### Bodies -/

/-- A head with a WHERE clause, if there is a body for it, and a text after them. -/
def Statement.withBody (head : Statement) (body? : Option Statement) (after : String) :
    Statement :=
  match body? with
  | some body => head.withWhere body after
  | none => head ++ after

namespace Query

/-- What an operation is asked to be narrowed by and writes something: the filters of calls, then
its own conditions. -/
def narrowing (q : Query) (given : List Expr) (conds : List Condition) : List Expr :=
  Expr.nonEmpty given ++ Expr.nonEmpty (conds.map (Condition.toExpr q.table q.primaryKey))

/-- The body of a WHERE clause that asks for filters alone; none without a filter. -/
def openBody? (exprs : List Expr) : Option Statement :=
  if exprs.isEmpty then none
  else some (Statement.join " AND " (exprs.map (Expr.render (1 < exprs.length))))

/-- The test that a column of a table is null. -/
def nullTest (table column : String) : String :=
  Identifier.quote table ++ "." ++ Identifier.quote column ++ " IS NULL"

/-- The body of a WHERE clause that asks for filters and, as its last conjunct, for the null test of
a column. Beside filters the test has parentheses when one of its names holds a conjunction. -/
def scopedBody (exprs : List Expr) (table column : String) : Statement :=
  match exprs with
  | [] => .ofText (nullTest table column)
  | exprs =>
    Statement.join " AND " (exprs.map (Expr.render true)) ++
      (" AND " ++ if hasConjunction table || hasConjunction column
        then "(" ++ nullTest table column ++ ")" else nullTest table column)

/-- The statements of a query for an operation that is narrowed by some filters: reads, counts,
updates and soft deletions have one body, and deletions for good have the filters alone. A write
without a filter is refused. -/
structure HasBody (q : Query) (conds : List Condition) (filters : List Expr)
    (body? : Option Statement) : Prop where
  read : ∀ columns, q.selectColumns columns conds =
    (q.selectHead columns).withBody body? (q.groupClause ++ q.windowClause)
  count : q.countStatement conds = q.countHead.withBody body? q.countTail
  update : ∀ values, q.updateStatement values conds =
    if filters.isEmpty then .error (.unfiltered .update)
    else if (q.updatedFields values).isEmpty then .error .noColumns
    else .ok ((q.updateHead values).withBody body? "")
  mark : ∀ column, q.identity.softDelete = some column → q.deleteStatement conds .soft =
    if filters.isEmpty then .error (.unfiltered .delete)
    else .ok ((q.markHead column).withBody body? "")
  remove : ∀ deletion, q.identity.softDelete = none ∨ deletion = .hard →
    q.deleteStatement conds deletion =
      if filters.isEmpty then .error (.unfiltered .delete)
      else .ok (q.removeHead.withBody (openBody? filters) "")

/-- The scope of a query for which some filters have been asked: its null test is the last conjunct
when the scope has not been lifted and the table has a mark of deletion, and nowhere else. It brings
no argument along. Without it there is a body exactly when a filter writes something. A soft
deletion is an update of the mark in a table that has one, and else a deletion. -/
structure ScopeLast (q : Query) (lifted : Prop) (given : List Expr) (conds : List Condition) :
    Prop where
  tested : ∀ column, q.identity.softDelete = some column → ¬lifted →
    q.HasBody conds (q.narrowing given conds)
      (some (scopedBody (q.narrowing given conds) q.table column))
  untested : lifted ∨ q.identity.softDelete = none →
    q.HasBody conds (q.narrowing given conds) (openBody? (q.narrowing given conds))
  args : ∀ column, (scopedBody (q.narrowing given conds) q.table column).args =
    (openBody? (q.narrowing given conds)).elim [] Statement.args
  present : (openBody? (q.narrowing given conds)).isSome = true ↔
    ∃ e ∈ q.asking given conds, ¬e.WritesNothing
  soft : ∀ s, q.deleteStatement conds .soft = .ok s →
    ((∃ rest, s.sql = "UPDATE " ++ Identifier.quote q.table ++ " SET " ++ rest) ↔
      q.identity.softDelete ≠ none) ∧
    ((∃ rest, s.sql = "DELETE FROM " ++ Identifier.quote q.table ++ rest) ↔
      q.identity.softDelete = none)

variable {q : Query} {given : List Expr} {conds : List Condition}

/-! ### The bodies of the statements -/

private theorem narrowing_eq (q : Query) (given : List Expr) (conds : List Condition) :
    q.narrowing given conds = Expr.nonEmpty (q.asking given conds) := by
  rw [narrowing, asking, Expr.nonEmpty, Expr.nonEmpty, Expr.nonEmpty, List.filter_append]

private theorem forall_narrowing (q : Query) (given : List Expr) (conds : List Condition) :
    ∀ e ∈ q.narrowing given conds, e.isEmpty = false := by
  intro e he
  rw [narrowing_eq] at he
  simpa using (List.mem_filter.1 he).2

private theorem nonEmpty_eq_self {exprs : List Expr} (h : ∀ e ∈ exprs, e.isEmpty = false) :
    Expr.nonEmpty exprs = exprs := by
  rw [Expr.nonEmpty, List.filter_eq_self]
  intro e he
  rw [h e he]
  rfl

private theorem body?_eq {exprs : List Expr} (h : ∀ e ∈ exprs, e.isEmpty = false) :
    body? exprs = openBody? exprs := by
  rw [body?, Expr.conditions_eq_join, nonEmpty_eq_self h]
  rfl

private theorem body?_scope {exprs : List Expr} (h : ∀ e ∈ exprs, e.isEmpty = false)
    (table column : String) :
    body? (exprs ++ [.raw (nullTest table column) []]) = some (scopedBody exprs table column) := by
  have htest : (Expr.raw (nullTest table column) []).isEmpty = false := by
    have hend : isBlankText " IS NULL" = false := by decide
    rw [Expr.isEmpty, nullTest, isBlankText_append, hend, Bool.and_false]
  have hall : ∀ e ∈ exprs ++ [Expr.raw (nullTest table column) []], e.isEmpty = false := by
    rw [List.forall_mem_append, List.forall_mem_singleton]
    exact ⟨h, htest⟩
  rw [body?_eq hall]
  cases exprs with
  | nil => rfl
  | cons e rest =>
    have hlength :
        decide (1 < (e :: rest ++ [Expr.raw (nullTest table column) []]).length) = true := by
      simp
    have hrender : (Expr.raw (nullTest table column) []).render true =
        .ofText (if hasConjunction table || hasConjunction column
          then "(" ++ nullTest table column ++ ")" else nullTest table column) := by
      rw [Expr.render, Bool.true_and, ← hasConjunction_nullTest]
      rfl
    rw [openBody?, hlength, List.map_append, join_append " AND " (by simp) (by simp),
      List.map_singleton, hrender]
    rfl

private theorem whereBody?_tested {column : String} (h : q.filters = Expr.nonEmpty given)
    (hmark : q.identity.softDelete = some column) (hscoped : q.includesDeleted = false) :
    q.whereBody? conds = some (scopedBody (q.narrowing given conds) q.table column) := by
  rw [whereBody?, callerFilters_eq h, ← narrowing_eq, scope_eq hmark hscoped]
  exact body?_scope (forall_narrowing q given conds) q.table column

private theorem scope_eq_nil (h : q.includesDeleted = true ∨ q.identity.softDelete = none) :
    q.scope = [] := by
  rw [scope]
  split
  · next hmark =>
    rw [hmark] at h
    rw [if_pos (h.resolve_right (Option.some_ne_none _))]
  · rfl

private theorem whereBody?_untested (h : q.filters = Expr.nonEmpty given)
    (hopen : q.includesDeleted = true ∨ q.identity.softDelete = none) :
    q.whereBody? conds = openBody? (q.narrowing given conds) := by
  rw [whereBody?, callerFilters_eq h, ← narrowing_eq, scope_eq_nil hopen, List.append_nil]
  exact body?_eq (forall_narrowing q given conds)

/-! ### The statements -/

private theorem append_whereClause_withBody (head : Statement) (exprs : List Expr)
    (after : String) :
    head ++ (whereClause exprs ++ after) = head.withBody (body? exprs) after := by
  rw [whereClause]
  cases body? exprs with
  | none => rw [append_text_eq, empty_append]; rfl
  | some body => simp only [withBody, withWhere, text_append_eq, append_text_eq, append_assoc]

private theorem withBody_append (head : Statement) (body? : Option Statement) (a b : String) :
    head.withBody body? a ++ b = head.withBody body? (a ++ b) := by
  cases body? <;>
    simp only [withBody, withWhere, text_append_eq, append_text_eq, append_assoc, ofText_append]

private theorem append_withBody (text : String) (head : Statement) (body? : Option Statement)
    (after : String) : text ++ head.withBody body? after = (text ++ head).withBody body? after := by
  cases body? <;>
    simp only [withBody, withWhere, text_append_eq, append_text_eq, append_assoc]

private theorem unordered_withBody (q : Query) (columns : String) (conds : List Condition) :
    q.unordered columns conds =
      (q.selectHead columns).withBody (q.whereBody? conds) q.groupClause := by
  rw [whereBody?, ← append_whereClause_withBody, unordered, fromClause, selectHead]
  simp only [text_append_eq, append_text_eq, append_assoc]

private theorem selectColumns_withBody (q : Query) (columns : String) (conds : List Condition) :
    q.selectColumns columns conds =
      (q.selectHead columns).withBody (q.whereBody? conds) (q.groupClause ++ q.windowClause) := by
  rw [selectColumns, unordered_withBody, withBody_append]

private theorem countStatement_withBody (q : Query) (conds : List Condition) :
    q.countStatement conds = q.countHead.withBody (q.whereBody? conds) q.countTail := by
  rw [countStatement, countHead, countTail, countsRead_eq]
  cases q.countsRead with
  | false => exact unordered_withBody q "COUNT(*)" conds
  | true =>
    simp only [Bool.not_true, Bool.false_eq_true, ↓reduceIte, unordered_withBody, append_withBody,
      withBody_append]

private theorem append_whereClause_withBody_end (head : Statement) (exprs : List Expr) :
    head ++ whereClause exprs = head.withBody (body? exprs) "" := by
  rw [← append_whereClause_withBody, append_text_eq, append_ofText_empty]

private theorem hasBody_whereBody (h : q.filters = Expr.nonEmpty given) (conds : List Condition) :
    q.HasBody conds (q.narrowing given conds) (q.whereBody? conds) := by
  have hfilters : q.callerFilters conds = q.narrowing given conds := by
    rw [callerFilters_eq h, narrowing_eq]
  have hbody : q.whereBody? conds = body? (q.narrowing given conds ++ q.scope) := by
    rw [whereBody?, hfilters]
  refine ⟨fun columns ↦ q.selectColumns_withBody columns conds, q.countStatement_withBody conds,
    ?_, ?_, ?_⟩
  · intro values
    rw [hbody, ← append_whereClause_withBody_end]
    simp only [updateStatement, hfilters]
    rfl
  · intro column hmark
    rw [hbody, ← append_whereClause_withBody_end]
    simp only [deleteStatement, hfilters, hmark]
    rfl
  · intro deletion hard
    rw [← body?_eq (forall_narrowing q given conds), ← append_whereClause_withBody_end]
    simp only [deleteStatement, hfilters]
    split
    · rfl
    · split
      · next hmark => simp [hmark] at hard
      · rfl

private theorem args_render {e : Expr} (he : e.isEmpty = false) (beside : Bool) :
    (e.render beside).args = e.leaves.flatMap Expr.ownArgs := by
  refine Reading.inherited_args.render e beside he ?_
  intro l hl b _
  match l, Expr.isLeaf_of_mem_leaves e l hl with
  | .raw sql args, _ => simp [Expr.render, withArgs, Expr.leaves, Expr.ownArgs]
  | .compare column op arg, _ => simp [Expr.render, Expr.leaves, Expr.ownArgs]

private theorem args_scopedBody {exprs : List Expr} (h : ∀ e ∈ exprs, e.isEmpty = false)
    (table column : String) :
    (scopedBody exprs table column).args = (openBody? exprs).elim [] Statement.args := by
  cases exprs with
  | nil => rfl
  | cons e rest =>
    have hargs : ((e :: rest).map (Expr.render true)).flatMap args =
        ((e :: rest).map (Expr.render (1 < (e :: rest).length))).flatMap args := by
      rw [List.flatMap_map, List.flatMap_map]
      refine List.flatMap_congr fun e he ↦ ?_
      rw [args_render (h e he), args_render (h e he)]
    change (Statement.join " AND " ((e :: rest).map (Expr.render true))).args ++ [] =
      (Statement.join " AND " ((e :: rest).map (Expr.render (1 < (e :: rest).length)))).args
    rw [List.append_nil, args_join, args_join, hargs]

private theorem isSome_openBody? (exprs : List Expr) :
    (openBody? exprs).isSome = true ↔ exprs ≠ [] := by
  rw [openBody?]
  split
  · next hempty => simpa using hempty
  · next hempty => simpa using hempty

private theorem soft_delete_text {s : Statement} (h : q.deleteStatement conds .soft = .ok s) :
    (q.identity.softDelete ≠ none ∧
        ∃ rest, s.sql = "UPDATE " ++ (Identifier.quote q.table ++ " SET " ++ rest)) ∨
      (q.identity.softDelete = none ∧
        ∃ rest, s.sql = "DELETE FROM " ++ (Identifier.quote q.table ++ rest)) := by
  cases hmark : q.identity.softDelete with
  | some column =>
    refine .inl ⟨nofun, ?_⟩
    rw [deleteStatement_soft_eq hmark h, withWhere, markHead, sql_append]
    simp only [ofText, String.append_assoc]
    exact ⟨_, rfl⟩
  | none =>
    refine .inr ⟨rfl, ?_⟩
    rw [deleteStatement_hard_eq (.inl hmark) h, withWhere, removeHead, sql_append]
    simp only [ofText, String.append_assoc]
    exact ⟨_, rfl⟩

/-- In whatever order calls reach a query from its table, the null test of its scope is the last
conjunct of each statement that has it, and the others are without a trace of it. -/
theorem scopeLast_applyAll (identity : TableIdentity) (calls : List Call)
    (conds : List Condition) :
    (Call.applyAll (.ofIdentity identity) calls).ScopeLast (Call.Lift calls)
      (Call.asked (.ofIdentity identity) [] calls) conds := by
  have hlift := includesDeleted_applyAll_iff identity calls
  have hfilters : (Call.applyAll (.ofIdentity identity) calls).filters =
      Expr.nonEmpty (Call.asked (.ofIdentity identity) [] calls) := filters_applyAll rfl calls
  generalize Call.applyAll (.ofIdentity identity) calls = q at hlift hfilters ⊢
  generalize Call.asked (.ofIdentity identity) [] calls = given at hfilters ⊢
  refine ⟨?_, ?_, ?_, ?_, ?_⟩
  · intro column hmark hscoped
    rw [← hlift, Bool.not_eq_true] at hscoped
    rw [← whereBody?_tested hfilters hmark hscoped]
    exact hasBody_whereBody hfilters conds
  · intro hopen
    rw [← hlift] at hopen
    have hbody := hasBody_whereBody hfilters conds
    rwa [whereBody?_untested hfilters hopen] at hbody
  · exact args_scopedBody (forall_narrowing q given conds) q.table
  · rw [isSome_openBody?, narrowing_eq, ne_eq, Expr.nonEmpty_eq_nil_iff]
    simp
  · intro s hs
    -- The two texts differ in their first characters.
    rcases soft_delete_text hs with ⟨hmark, rest, htext⟩ | ⟨hmark, rest, htext⟩
    · refine ⟨⟨fun _ ↦ hmark, fun _ ↦ ⟨rest, by rw [htext]; simp only [String.append_assoc]⟩⟩, ?_,
        fun hnone ↦ absurd hnone hmark⟩
      rintro ⟨other, hother⟩
      have hhead := congrArg (fun text ↦ text.toList.head?) (htext.symm.trans hother)
      simp [String.toList_append] at hhead
    · refine ⟨⟨?_, fun hsome ↦ absurd hmark hsome⟩, fun _ ↦ hmark,
        fun _ ↦ ⟨rest, by rw [htext]; simp only [String.append_assoc]⟩⟩
      rintro ⟨other, hother⟩
      have hhead := congrArg (fun text ↦ text.toList.head?) (htext.symm.trans hother)
      simp [String.toList_append] at hhead

/-- A scope that was lifted before a reset stands behind the filters asked for since, in parentheses
on account of the mark's name; lifted again, it is gone, and with nothing asked for a count has no
WHERE clause. -/
theorem scopeLast_applyAll_reset :
    let identity : TableIdentity := { TableIdentity.named "t" with softDelete := some "on or off" }
    let calls : List Call := [.unscoped, .reset, .filter (.raw "a = 1 OR b = 2" []), .distinct]
    let q := Call.applyAll (.ofIdentity identity) calls
    let lifted := Call.applyAll (.ofIdentity identity) [.reset, .unscoped]
    (q.countStatement [.raw " " []]).sql =
        "SELECT COUNT(*) FROM (SELECT DISTINCT \"t\".* FROM \"t\" WHERE (a = 1 OR b = 2)" ++
          " AND (\"t\".\"on or off\" IS NULL)) AS \"counted\"" ∧
      q.deleteStatement [] .soft = .ok (.ofText
        ("UPDATE \"t\" SET \"on or off\" = NOW() WHERE (a = 1 OR b = 2)" ++
          " AND (\"t\".\"on or off\" IS NULL)")) ∧
      (lifted.countStatement []).sql = "SELECT COUNT(*) FROM \"t\"" := by
  intro identity calls q lifted
  have hlast : ¬Call.Lift calls := by
    rw [← includesDeleted_applyAll_iff identity]
    decide
  have hlifted : Call.Lift [.reset, .unscoped] := ⟨[.reset], [], rfl, List.not_mem_nil⟩
  have hcount := ((scopeLast_applyAll identity calls [.raw " " []]).tested _ rfl hlast).count
  have hmark := ((scopeLast_applyAll identity calls []).tested _ rfl hlast).mark _ rfl
  have hopen := ((scopeLast_applyAll identity [.reset, .unscoped] []).untested (.inl hlifted)).count
  refine ⟨(congrArg sql hcount).trans (by decide +kernel), hmark.trans (by decide +kernel),
    (congrArg sql hopen).trans (by decide +kernel)⟩

end Query

end RecordStore
