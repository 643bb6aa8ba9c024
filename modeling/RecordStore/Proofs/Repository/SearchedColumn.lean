import RecordStore.Model.Schema
import RecordStore.Proofs.Placeholder.QuotedName
import RecordStore.Repository.FindOr

/-!
# The column that is searched and the column that is given

An equality is met by the rows whose column has its value, and a row that is built because there is
none is given that value. The column that is searched stands behind the first point of its name, and
the column that is given behind the last one. They are one column unless the name has two points or
more; then the row that is built does not meet the equality that it was built from.
-/

namespace RecordStore

namespace Reading

/-- The column that a text compares with a placeholder: the last of its names. -/
def comparedColumn? (sql : String) : Option String := do
  let (names, behind) ← columnNames? sql.toList
  if behind = " = ?".toList then names.getLast? else none

/-- A quoted name is the column that it is compared as. -/
theorem comparedColumn?_quote (name : String) :
    comparedColumn? (Identifier.quote name ++ " = ?") = some name := by
  rw [comparedColumn?, String.toList_append, columnNames?_quote name (by decide) (by decide)]
  rfl

/-- A qualified column is compared as the column, without its table. -/
theorem comparedColumn?_qualified (table column : String) :
    comparedColumn? (Identifier.qualified table column ++ " = ?") = some column := by
  rw [comparedColumn?, String.toList_append, columnNames?_qualified table column (by decide)]
  rfl

end Reading

/-- The column and the value that a filter compares, as SQL reads it; none for a filter of another
form. -/
def Expr.compared? : Expr → Option (String × Json)
  | .raw sql [value] => (Reading.comparedColumn? sql).map fun column ↦ (column, value)
  | _ => none

namespace Condition

/-- A condition that is an equality with one value other than null. -/
def IsEquality : Condition → Prop
  | .primaryKey value => value.isNull = false ∧ value.isArray = false
  | .equal _ value => value.isNull = false
  | .raw _ _ => False

/-- The number of points in the name of a column that a condition takes apart. -/
def points : Condition → Nat
  | .equal column _ => column.toList.count '.'
  | _ => 0

private theorem compared?_equality {quoted column : String} {value : Json}
    (hvalue : value.isNull = false)
    (hcolumn : Reading.comparedColumn? (quoted ++ " = ?") = some column) :
    (equality quoted value).compared? = some (column, value) := by
  rw [equality, if_neg (by simp [hvalue]), Expr.compared?, hcolumn]
  rfl

-- The name behind the first point is that behind the last one when there is no point in it.
private theorem exists_compared?_equal (table primaryKey column : String) {value : Json}
    (hvalue : value.isNull = false) :
    ∃ compared, (toExpr table primaryKey (.equal column value)).compared? = some (compared, value) ∧
      (afterLast '.' column.toList = compared.toList ↔ column.toList.count '.' ≤ 1) := by
  rw [toExpr, Identifier.quoteReference]
  by_cases hpoint : '.' ∈ column.toList
  · obtain ⟨before, after, hcolumn, hbefore⟩ := List.eq_append_cons_of_mem hpoint
    rw [hcolumn, splitFirst_append hbefore]
    refine ⟨String.ofList after,
      compared?_equality hvalue (Reading.comparedColumn?_qualified _ _), ?_⟩
    have hcount : (before ++ '.' :: after).count '.' = after.count '.' + 1 := by
      rw [List.count_append, List.count_eq_zero_of_not_mem hbefore, List.count_cons_self,
        Nat.zero_add]
    rw [String.toList_ofList, hcount]
    constructor
    · intro h
      have hafter : '.' ∉ after := by
        rw [← h]
        exact not_mem_afterLast '.' _
      rw [List.count_eq_zero_of_not_mem hafter]
    · intro h
      have hafter : '.' ∉ after := List.count_eq_zero.1 (by omega)
      exact afterLast_append hafter
  · rw [splitFirst_of_not_mem hpoint]
    refine ⟨column, compared?_equality hvalue (Reading.comparedColumn?_quote column), ?_⟩
    rw [afterLast_of_not_mem hpoint, List.count_eq_zero_of_not_mem hpoint]
    simp

/-- An equality gives its value to a column and is compared with it in a column. -/
theorem IsEquality.exists_pinned? {c : Condition} (h : c.IsEquality) (table primaryKey : String) :
    ∃ given searched value, c.pinned? primaryKey = some (given, value) ∧
      (c.toExpr table primaryKey).compared? = some (searched, value) ∧
      (given = searched ↔ c.points ≤ 1) := by
  cases c with
  | primaryKey value =>
    obtain ⟨hnull, harray⟩ := h
    refine ⟨primaryKey, primaryKey, value, ?_, ?_, by simp [points]⟩
    · rw [pinned?, harray, hnull]
      rfl
    · rw [toExpr_primaryKey harray]
      exact compared?_equality hnull (Reading.comparedColumn?_qualified table primaryKey)
  | equal column value =>
    obtain ⟨searched, hsearched, hiff⟩ := exists_compared?_equal table primaryKey column h
    have hnull : value.isNull = false := h
    refine ⟨.ofList (afterLast '.' column.toList), searched, value, ?_, hsearched, ?_⟩
    · rw [pinned?, hnull]
      rfl
    · rw [← String.toList_inj, String.toList_ofList]
      exact hiff
  | raw sql args => exact h.elim

end Condition

namespace Repository

open Condition

variable {α : Type} (r : Repository α)

/-- The fields that a new row would get besides the defaults if each condition gave the column that
its filter compares. -/
def searchedFields (conds : List Condition) : Fields :=
  ((Fields.ofList (conds.filterMap fun c ↦
    (c.toExpr r.query.table r.query.primaryKey).compared?)).overlay r.query.attrs).overlay
      r.query.assigned

private theorem seededFields_eq {conds : List Condition}
    (h : ∀ c ∈ conds, c.IsEquality ∧ c.points ≤ 1) :
    r.seededFields conds = r.searchedFields conds := by
  have hpinned : conds.filterMap (pinned? r.query.primaryKey) =
      conds.filterMap fun c ↦ (c.toExpr r.query.table r.query.primaryKey).compared? := by
    apply List.filterMap_congr
    intro c hc
    obtain ⟨given, searched, value, hgiven, hsearched, hiff⟩ :=
      (h c hc).1.exists_pinned? r.query.table r.query.primaryKey
    rw [hgiven, hsearched, hiff.2 (h c hc).2]
  rw [seededFields, searchedFields, hpinned]

private theorem singleton_inj {given searched : String} {value : Json}
    (h : Fields.singleton given value = Fields.singleton searched value) : given = searched := by
  have hget := congrArg (Fields.get? · given) h
  simp only [Fields.singleton, Fields.get?_insert, if_pos] at hget
  split at hget
  · next heq => exact heq.symm
  · rw [Fields.get?_empty] at hget
    cases hget

/-- An equality searches one column and gives its value to one, the same value; the two are one
column exactly when the name of the column has one point at most, and the primary key always is. So
a row that is built is built from what was searched, when every condition is such an equality, and
where nothing else is laid over it a single equality tells the two apart by its points. -/
theorem searched_column_given_iff :
    (∀ c : Condition, c.IsEquality → ∃ given searched value,
      c.pinned? r.query.primaryKey = some (given, value) ∧
        (c.toExpr r.query.table r.query.primaryKey).compared? = some (searched, value) ∧
        (given = searched ↔ c.points ≤ 1)) ∧
    (∀ conds : List Condition, (∀ c ∈ conds, c.IsEquality ∧ c.points ≤ 1) →
      r.initial conds = r.model.merge r.model.default (r.searchedFields conds)) ∧
    ∀ c : Condition, c.IsEquality → r.query.attrs = ∅ → r.query.assigned = ∅ →
      (r.seededFields [c] = r.searchedFields [c] ↔ c.points ≤ 1) := by
  refine ⟨?_, ?_, ?_⟩
  · intro c hc
    exact hc.exists_pinned? r.query.table r.query.primaryKey
  · intro conds hconds
    rw [initial, r.seededFields_eq hconds]
  · intro c hc hattrs hassigned
    obtain ⟨given, searched, value, hgiven, hsearched, hiff⟩ :=
      hc.exists_pinned? r.query.table r.query.primaryKey
    have hseeded : r.seededFields [c] = .singleton given value := by
      rw [seededFields, hattrs, hassigned, List.filterMap_cons, hgiven]
      rfl
    have hsearched_fields : r.searchedFields [c] = .singleton searched value := by
      rw [searchedFields, hattrs, hassigned, List.filterMap_cons, hsearched]
      rfl
    rw [hseeded, hsearched_fields, ← hiff]
    constructor
    · exact singleton_inj
    · rintro rfl
      rfl

/-- A discount that is searched is given as a price. A key and a qualified price are given as what
they are searched as. -/
theorem searched_column_given_iff_products :
    let schema : Schema := [.column "id" .integer (.int 0), .column "price" .integer (.int 0)]
    let r := ofModel (schema.model (.named "products")) ⟨⟨"", 10, 20, 100⟩, "req"⟩
    let discount : Condition := .equal "products.discount.price" (.int 5)
    let conds : List Condition := [.primaryKey (.int 7), .equal "products.price" (.int 2)]
    discount.IsEquality ∧ discount.pinned? "id" = some ("price", .int 5) ∧
      (discount.toExpr "products" "id").compared? = some ("discount.price", .int 5) ∧
      (∃ given searched value, discount.pinned? "id" = some (given, value) ∧
        (discount.toExpr "products" "id").compared? = some (searched, value) ∧
        (given = searched ↔ discount.points ≤ 1)) ∧
      r.query.attrs = ∅ ∧ r.query.assigned = ∅ ∧
      r.seededFields [discount] ≠ r.searchedFields [discount] ∧
      (∀ c ∈ conds, c.IsEquality ∧ c.points ≤ 1) ∧
      r.model.merge r.model.default (r.searchedFields conds) =
        .ok (.ofList [("id", .int 7), ("price", .int 2)]) := by
  intro schema r discount conds
  obtain ⟨hgiven, hbuilt, hsingle⟩ := searched_column_given_iff r
  have hdiscount : discount.IsEquality := rfl
  have hconds : ∀ c ∈ conds, c.IsEquality ∧ c.points ≤ 1 := by
    simp only [conds, List.forall_mem_cons, List.not_mem_nil, false_imp_iff, implies_true, and_true]
    exact ⟨⟨⟨rfl, rfl⟩, by decide⟩, rfl, by decide⟩
  have hgiven_discount := hgiven discount hdiscount
  refine ⟨hdiscount, by decide +kernel, by decide +kernel, hgiven_discount, rfl, rfl, ?_, hconds,
    ?_⟩
  · exact (hsingle discount hdiscount rfl rfl).not.2 (by decide)
  · rw [← hbuilt conds hconds]
    decide +kernel

end Repository

end RecordStore
