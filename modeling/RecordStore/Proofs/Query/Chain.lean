import RecordStore.Proofs.Placeholder.Aligned
import RecordStore.Proofs.Query.Plain

/-!
# Chains of calls on a query

A query is reached from its table by a chain of calls. What each call adds is aligned when the text
that its caller writes by hand is; keywords of a search need nothing, since only column references
take part, and neither do names, since they are quoted. So every query that such a chain reaches is
aligned.
-/

namespace RecordStore

open Placeholder

/-- A call that makes a query from a query. -/
inductive Call where
  | withTable (table : String)
  | withSoftDelete (column : String)
  | withPrimaryKey (primaryKey : String)
  | filter (e : Expr)
  | filterEqual (column : String) (value : Json)
  | search (group : Option KeywordGroup)
  | join (sql : String) (args : List Json)
  | orderBy (term : String)
  | groupBy (term : String)
  | limit (n : Int64)
  | offset (n : Int64)
  | distinct
  | select (columns : List String)
  | omitting (columns : List String)
  | preload (p : Preload)
  | unscoped
  | clause (c : Clause)
  | attrs (values : Fields)
  | assign (values : Fields)
  | reset
  | first
  | batch (size : Int64) (after : Option Json)

namespace Call

/-- The query after a call. -/
def apply (q : Query) : Call → Query
  | .withTable table => q.withTable table
  | .withSoftDelete column => q.withSoftDelete column
  | .withPrimaryKey primaryKey => q.withPrimaryKey primaryKey
  | .filter e => q.filter e
  | .filterEqual column value => q.filterEqual column value
  | .search group => q.search group
  | .join sql args => q.join sql args
  | .orderBy term => q.orderBy term
  | .groupBy term => q.groupBy term
  | .limit n => q.withLimit n
  | .offset n => q.withOffset n
  | .distinct => q.distinct
  | .select columns => q.select columns
  | .omitting columns => q.omitting columns
  | .preload p => q.preload p
  | .unscoped => q.unscoped
  | .clause c => q.clause c
  | .attrs values => q.withAttrs values
  | .assign values => q.assign values
  | .reset => q.reset
  | .first => q.first
  | .batch size after => q.batch size after

/-- The query after calls, one after another. -/
def applyAll (q : Query) (calls : List Call) : Query := calls.foldl apply q

/-- A call whose hand-written text is aligned: text with arguments has one for each placeholder, and
text without is plain. -/
def Aligned : Call → Prop
  | .filter e => ∀ l ∈ e.leaves, l.IsAlignedLeaf
  | .join sql args => (Statement.withArgs sql args).Aligned
  | .orderBy term => IsPlain term.toList
  | .groupBy term => IsPlain term.toList
  | .select columns =>
    ∀ c ∈ columns, Identifier.isColumnReference c = false → IsPlain c.toList
  | _ => True

instance : ∀ call : Call, Decidable call.Aligned
  | .filter e => inferInstanceAs (Decidable (∀ l ∈ e.leaves, l.IsAlignedLeaf))
  | .join sql args => inferInstanceAs (Decidable (Statement.withArgs sql args).Aligned)
  | .orderBy term => inferInstanceAs (Decidable (IsPlain term.toList))
  | .groupBy term => inferInstanceAs (Decidable (IsPlain term.toList))
  | .select columns => inferInstanceAs (Decidable
      (∀ c ∈ columns, Identifier.isColumnReference c = false → IsPlain c.toList))
  | .withTable _ | .withSoftDelete _ | .withPrimaryKey _ | .filterEqual _ _ | .search _ | .limit _
  | .offset _ | .distinct | .omitting _ | .preload _ | .unscoped | .clause _ | .attrs _ | .assign _
  | .reset | .first | .batch _ _ => .isTrue trivial

end Call

/-- A query whose filters and joins are aligned and whose other hand-written texts are plain. -/
structure Query.Aligned (q : Query) : Prop where
  filters : ∀ e ∈ q.filters, ∀ l ∈ e.leaves, l.IsAlignedLeaf
  joins : ∀ join ∈ q.joins, join.Aligned
  ordering : ∀ term ∈ q.ordering, IsPlain term.toList
  grouping : ∀ term ∈ q.grouping, IsPlain term.toList
  selected : ∀ c ∈ q.selected, Identifier.isColumnReference c = false → IsPlain c.toList

/-! ### Conditions and keywords -/

/-- A column reference is plain. -/
theorem isPlain_of_isColumnReference {column : String}
    (h : Identifier.isColumnReference column = true) : IsPlain column.toList := by
  apply IsPlain.of_forall
  intro c hc
  have hreference := (Identifier.forall_of_isColumnReference h).2 c hc
  refine ⟨?_, ?_, ?_⟩ <;>
  · rintro rfl
    revert hreference
    decide

namespace Condition

/-- The comparison of a plain column with a value is aligned. -/
theorem isAlignedLeaf_equality {column : String} (h : IsPlain column.toList) (value : Json) :
    ∀ l ∈ (equality column value).leaves, l.IsAlignedLeaf := by
  have hequal : IsClosed " = ?".toList ∧ count none " = ?".toList = 1 := by decide
  rw [equality]
  split
  · have hnull := h.text_append (b := " IS NULL") (by decide)
    simp only [Expr.leaves, List.forall_mem_singleton]
    exact ⟨hnull.closed, hnull.unmarked⟩
  · simp only [Expr.leaves, List.forall_mem_singleton]
    exact .behind h hequal.1 hequal.2

-- A list of placeholders has one for each value.
private theorem placeholder_list (values : List Json) :
    IsClosed (String.intercalate ", " (values.map fun _ ↦ "?")).toList ∧
      count none (String.intercalate ", " (values.map fun _ ↦ "?")).toList = values.length := by
  have hmark : IsClosed "?".toList ∧ count none "?".toList = 1 := by decide
  have hcomma : IsPlain ", ".toList := by decide
  induction values with
  | nil => decide
  | cons value rest ih =>
    cases rest with
    | nil =>
      rw [List.map_cons, List.map_nil, String.intercalate_singleton]
      exact hmark
    | cons next rest =>
      rw [List.map_cons] at ih
      rw [List.map_cons, List.map_cons, String.intercalate_cons_cons]
      refine ⟨(hmark.1.text_append hcomma.closed).text_append ih.1, ?_⟩
      rw [String.toList_append, String.toList_append, (hmark.1.append hcomma.closed).count_append,
        hmark.1.count_append, hmark.2, hcomma.unmarked, ih.2]
      simp only [List.length_cons]
      omega

/-- The comparison of a plain column with several values is aligned. -/
theorem isAlignedLeaf_membership {column : String} (h : IsPlain column.toList)
    (values : List Json) : ∀ l ∈ (membership column values).leaves, l.IsAlignedLeaf := by
  have hin : IsPlain " IN (".toList := by decide
  have hclosing : IsPlain ")".toList := by decide
  obtain ⟨hclosed, hcount⟩ := placeholder_list values
  rw [membership]
  split
  · simp only [Expr.leaves, List.forall_mem_singleton]
    exact ⟨by decide, by decide⟩
  · simp only [Expr.leaves, List.forall_mem_singleton]
    have hfront := h.text_append hin
    refine ⟨(hfront.closed.text_append hclosed).text_append hclosing.closed, ?_⟩
    change count none (column ++ " IN (" ++ _ ++ ")").toList = values.length
    rw [String.toList_append, String.toList_append, (hfront.closed.append hclosed).count_append,
      hfront.closed.count_append, hfront.unmarked, hcount, hclosing.unmarked]
    omega

/-- A condition whose hand-written text, if any, has one argument for each placeholder. -/
def Aligned : Condition → Prop
  | .raw sql args => (Statement.withArgs sql args).Aligned
  | _ => True

instance : ∀ cond : Condition, Decidable cond.Aligned
  | .raw sql args => inferInstanceAs (Decidable (Statement.withArgs sql args).Aligned)
  | .primaryKey _ | .equal _ _ => .isTrue trivial

/-- The filter of an aligned condition is aligned, whatever the table and its primary key are. -/
theorem Aligned.toExpr {cond : Condition} (h : cond.Aligned) (table primaryKey : String) :
    ∀ l ∈ (cond.toExpr table primaryKey).leaves, l.IsAlignedLeaf := by
  unfold Condition.toExpr
  split
  · exact isAlignedLeaf_membership (isPlain_qualified table primaryKey) _
  · exact isAlignedLeaf_equality (isPlain_qualified table primaryKey) _
  · exact isAlignedLeaf_equality (isPlain_quoteReference _) _
  · simp only [Expr.leaves, List.forall_mem_singleton]
    exact h

end Condition

/-- A comparison of a keyword option that takes part is aligned. -/
theorem KeywordOption.isAlignedLeaf_toExpr {o : KeywordOption} (h : o.isApplicable = true) :
    ∀ l ∈ o.toExpr.leaves, l.IsAlignedLeaf := by
  have hkey : IsPlain o.key.toList := by
    rw [isApplicable, Bool.and_eq_true] at h
    exact isPlain_of_isColumnReference h.2
  rw [toExpr]
  split <;>
  · simp only [Expr.leaves, List.forall_mem_singleton]
    exact ⟨hkey, by decide⟩

/-- The filter of a keyword group is aligned. -/
theorem KeywordGroup.isAlignedLeaf_compile {g : KeywordGroup} {e : Expr}
    (h : g.compile = some e) : ∀ l ∈ e.leaves, l.IsAlignedLeaf := by
  have hmembers : ∀ m ∈ (g.options.filter KeywordOption.isApplicable).map KeywordOption.toExpr,
      ∀ l ∈ m.leaves, l.IsAlignedLeaf := by
    intro m hm
    obtain ⟨o, ho, rfl⟩ := List.mem_map.1 hm
    exact KeywordOption.isAlignedLeaf_toExpr (List.mem_filter.1 ho).2
  rw [compile] at h
  split at h
  · cases h
  · next only honly =>
    cases h
    exact hmembers e (by simp [honly])
  · cases h
    intro l hl
    rw [Expr.leaves, Expr.leavesOf_eq_flatMap] at hl
    obtain ⟨m, hm, hl⟩ := List.mem_flatMap.1 hl
    exact hmembers m (List.mem_filter.1 hm).1 l hl

/-! ### What calls preserve -/

namespace Query.Aligned

variable {q : Query}

/-- A query with nothing accumulated is aligned. -/
theorem ofIdentity (identity : TableIdentity) : (Query.ofIdentity identity).Aligned :=
  ⟨List.forall_mem_nil _, List.forall_mem_nil _, List.forall_mem_nil _, List.forall_mem_nil _,
    List.forall_mem_nil _⟩

/-- An aligned filter leaves a query aligned. -/
theorem filter (hq : q.Aligned) {e : Expr} (he : ∀ l ∈ e.leaves, l.IsAlignedLeaf) :
    (q.filter e).Aligned := by
  rw [Query.filter]
  split
  · exact hq
  · refine { hq with filters := ?_ }
    rw [List.forall_mem_append, List.forall_mem_singleton]
    exact ⟨hq.filters, he⟩

private theorem search (hq : q.Aligned) (group : Option KeywordGroup) :
    (q.search group).Aligned := by
  rw [Query.search]
  split
  · next e he =>
    obtain ⟨g, -, hcompile⟩ := Option.bind_eq_some_iff.1 he
    exact hq.filter (KeywordGroup.isAlignedLeaf_compile hcompile)
  · exact hq

private theorem batch (hq : q.Aligned) (size : Int64) (after : Option Json) :
    (q.batch size after).Aligned := by
  have hkey : IsPlain q.keyColumn.toList := isPlain_qualified q.table q.primaryKey
  have hafter : IsClosed " > ?".toList ∧ count none " > ?".toList = 1 := by decide
  have hordered : { q with
      ordering := [q.keyColumn], limit := some size, offset := none : Query }.Aligned :=
    { hq with ordering := by simpa using hkey }
  cases after with
  | none => exact hordered
  | some key =>
    rw [Query.batch]
    apply hordered.filter
    simp only [Expr.leaves, List.forall_mem_singleton]
    exact .behind hkey hafter.1 hafter.2

/-- An aligned call leaves a query aligned. -/
theorem apply (hq : q.Aligned) {call : Call} (hcall : call.Aligned) : (call.apply q).Aligned := by
  cases call with
  | filter e => exact hq.filter hcall
  | filterEqual column value =>
    exact hq.filter (Condition.isAlignedLeaf_equality (isPlain_quoteReference column) value)
  | search group => exact hq.search group
  | join sql args =>
    refine { hq with joins := ?_ }
    change ∀ join ∈ q.joins ++ [Statement.withArgs sql args], join.Aligned
    rw [List.forall_mem_append, List.forall_mem_singleton]
    exact ⟨hq.joins, hcall⟩
  | orderBy term =>
    rw [Call.apply, Query.orderBy]
    split
    · exact hq
    · refine { hq with ordering := ?_ }
      rw [List.forall_mem_append, List.forall_mem_singleton]
      exact ⟨hq.ordering, hcall⟩
  | groupBy term =>
    refine { hq with grouping := ?_ }
    change ∀ t ∈ q.grouping ++ [term], IsPlain t.toList
    rw [List.forall_mem_append, List.forall_mem_singleton]
    exact ⟨hq.grouping, hcall⟩
  | select columns => exact { hq with selected := hcall }
  | reset => exact ofIdentity q.identity
  | first =>
    refine { hq with ordering := ?_ }
    change ∀ term ∈ q.ordering ++ [q.keyColumn], IsPlain term.toList
    rw [List.forall_mem_append, List.forall_mem_singleton]
    exact ⟨hq.ordering, isPlain_qualified q.table q.primaryKey⟩
  | batch size after => exact hq.batch size after
  | withTable table => exact { hq with }
  | withSoftDelete column => exact { hq with }
  | withPrimaryKey primaryKey => exact { hq with }
  | limit n => exact { hq with }
  | offset n => exact { hq with }
  | distinct => exact { hq with }
  | omitting columns => exact { hq with }
  | preload p => exact { hq with }
  | unscoped => exact { hq with }
  | clause c => exact { hq with }
  | attrs values => exact { hq with }
  | assign values => exact { hq with }

/-- Aligned calls leave a query aligned, however many there are. -/
theorem applyAll (hq : q.Aligned) {calls : List Call} (h : ∀ call ∈ calls, call.Aligned) :
    (Call.applyAll q calls).Aligned := by
  induction calls generalizing q with
  | nil => exact hq
  | cons call rest ih =>
    rw [List.forall_mem_cons] at h
    exact ih (hq.apply h.1) h.2

end Query.Aligned

end RecordStore
