import Mathlib.Algebra.Order.BigOperators.Group.List
import Mathlib.Algebra.Order.Ring.Nat
import RecordStore.Proofs.Placeholder.QuotedName
import RecordStore.Proofs.Query.Where

/-!
# Which columns a read lists

A query that selects columns or declares them is to list these without the omitted ones, in their
order. Declared columns are listed so as long as one of them is left. Selected ones are listed
whether they are omitted or not, and where all declared columns are omitted the read falls back to
all columns of the table.
-/

namespace RecordStore

namespace Identifier

open Reading

/-- A name on its own and a qualified column are never quoted alike. -/
theorem quote_ne_qualified (name table column : String) : quote name ≠ qualified table column := by
  intro h
  have hname : name? ((quote name).toList ++ []) = some (name, []) := name?_quote name (by simp)
  have htable := name?_quote table (head?_append_ne "." (by decide) (quote column).toList)
  have hqualified : (qualified table column).toList ++ [] =
      (quote table).toList ++ (".".toList ++ (quote column).toList) := by
    simp [qualified]
  rw [h, hqualified, htable] at hname
  simp at hname

/-- Qualified columns are quoted alike exactly when table and column are the same. -/
theorem qualified_eq_iff {table column otherTable otherColumn : String} :
    qualified table column = qualified otherTable otherColumn ↔
      table = otherTable ∧ column = otherColumn := by
  constructor
  · intro h
    have hcolumns : (table, column) = (otherTable, otherColumn) := qualified_injective h
    exact Prod.mk.inj hcolumns
  · rintro ⟨rfl, rfl⟩
    rfl

/-- A selected expression that is listed as a column: the column as a plain reference, alone or
behind the table's name, or the column as it is quoted. -/
inductive Names (table column : String) : String → Prop
  | plain (h : isColumnReference column = true) (hpoint : '.' ∉ column.toList) :
    Names table column column
  | ofTable (h : isColumnReference (table ++ "." ++ column) = true) (hpoint : '.' ∉ table.toList) :
    Names table column (table ++ "." ++ column)
  | quoted : Names table column (quote column)
  | qualified : Names table column (qualified table column)

private theorem quoteExpression_of_mem_quote {expression : String} (h : '"' ∈ expression.toList) :
    quoteExpression expression = expression := by
  rw [quoteExpression, if_neg]
  intro hreference
  exact not_mem_of_isColumnReference hreference (by decide) h

-- A reference is written as one quoted name or as two, by its first point.
private theorem quoteReference_cases (name : String) :
    ('.' ∉ name.toList ∧ quoteReference name = quote name) ∨
      ∃ table column, '.' ∉ table.toList ∧ name = table ++ "." ++ column ∧
        quoteReference name = Identifier.qualified table column := by
  by_cases hpoint : '.' ∈ name.toList
  · obtain ⟨before, after, hname, hbefore⟩ := List.eq_append_cons_of_mem hpoint
    have htable : '.' ∉ (String.ofList before).toList := by simpa using hbefore
    have heq : name = String.ofList before ++ "." ++ String.ofList after := by
      rw [← String.toList_inj, hname]
      simp
    refine .inr ⟨String.ofList before, String.ofList after, htable, heq, ?_⟩
    rw [heq, quoteReference_append htable]
  · exact .inl ⟨hpoint, quoteReference_of_not_mem hpoint⟩

/-- A selected expression is listed as a column exactly when it names the column. -/
theorem quoteExpression_eq_iff {table column expression : String} :
    quoteExpression expression = quote column ∨
        quoteExpression expression = Identifier.qualified table column ↔
      Names table column expression := by
  constructor
  · by_cases hreference : isColumnReference expression = true
    · rw [quoteExpression, if_pos hreference]
      rcases quoteReference_cases expression with
        ⟨hpoint, hquoted⟩ | ⟨ownTable, ownColumn, hpoint, rfl, hquoted⟩
      · rw [hquoted]
        rintro (h | h)
        · obtain rfl := quote_injective h
          exact .plain hreference hpoint
        · exact absurd h (quote_ne_qualified _ _ _)
      · rw [hquoted]
        rintro (h | h)
        · exact absurd h.symm (quote_ne_qualified _ _ _)
        · obtain ⟨rfl, rfl⟩ := qualified_eq_iff.1 h
          exact .ofTable hreference hpoint
    · rw [quoteExpression, if_neg hreference]
      rintro (rfl | rfl)
      · exact .quoted
      · exact .qualified
  · intro h
    have hmark : '"' ∈ (quote column).toList := by simp [quoteChars]
    cases h with
    | plain h hpoint =>
      rw [quoteExpression, if_pos h, quoteReference_of_not_mem hpoint]
      exact .inl rfl
    | ofTable h hpoint =>
      rw [quoteExpression, if_pos h, quoteReference_append hpoint]
      exact .inr rfl
    | quoted => exact .inl (quoteExpression_of_mem_quote hmark)
    | qualified =>
      refine .inr (quoteExpression_of_mem_quote ?_)
      rw [Identifier.qualified, String.toList_append]
      exact List.mem_append_right _ hmark

end Identifier

/-! ### Lists with entries taken out -/

-- With a comma for every entry, the lengths of the entries add up.
private theorem length_intercalate {entries : List String} (h : entries ≠ []) :
    (String.intercalate ", " entries).length + 2 = (entries.map (·.length + 2)).sum := by
  induction entries with
  | nil => exact absurd rfl h
  | cons first rest ih =>
    cases rest with
    | nil => simp
    | cons second rest =>
      have hrest := ih (by simp)
      rw [String.intercalate_cons_cons, String.length_append, String.length_append, List.map_cons,
        List.sum_cons, ← hrest, show ", ".length = 2 from rfl]
      omega

private theorem sum_length_filter_lt {entries : List String} {keep : String → Bool}
    (h : entries.filter keep ≠ entries) :
    ((entries.filter keep).map (·.length + 2)).sum < (entries.map (·.length + 2)).sum := by
  induction entries with
  | nil => exact absurd rfl h
  | cons first rest ih =>
    by_cases hfirst : keep first = true
    · rw [List.filter_cons_of_pos hfirst] at h ⊢
      have hrest := ih fun heq ↦ h (by rw [heq])
      simp only [List.map_cons, List.sum_cons]
      omega
    · rw [List.filter_cons_of_neg hfirst]
      have hle : ((rest.filter keep).map (·.length + 2)).sum ≤ (rest.map (·.length + 2)).sum :=
        (List.filter_sublist.map _).sum_le_sum (by simp)
      simp only [List.map_cons, List.sum_cons]
      omega

/-- A list is written the same without some of its entries only when none is taken out. -/
theorem intercalate_filter_eq_iff {entries : List String} {keep : String → Bool}
    (hblank : ∀ entry ∈ entries, keep entry = false → entry ≠ "") :
    String.intercalate ", " (entries.filter keep) = String.intercalate ", " entries ↔
      ∀ entry ∈ entries, keep entry = true := by
  rw [← List.filter_eq_self]
  constructor
  · intro h
    by_contra hne
    have hlt := sum_length_filter_lt hne
    have hentries : entries ≠ [] := by
      rintro rfl
      exact hne rfl
    by_cases hfilter : entries.filter keep = []
    · -- Entries that read as nothing are one blank entry, and none of these is taken out.
      have hlength := length_intercalate hentries
      rw [hfilter] at h
      obtain ⟨first, rest, rfl⟩ := List.exists_cons_of_ne_nil hentries
      rw [← h, List.map_cons, List.sum_cons] at hlength
      have hfirst : first = "" := by
        rw [← String.length_eq_zero_iff]
        simp at hlength
        omega
      have hkeep : keep first = false := by simpa using List.filter_eq_nil_iff.1 hfilter first
      exact hblank first (by simp) hkeep hfirst
    · rw [← length_intercalate hfilter, ← length_intercalate hentries, h] at hlt
      exact lt_irrefl _ hlt
  · intro h
    rw [h]

namespace Query

/-- A column that is omitted may be listed as its quoted name, alone or behind the table's name. -/
def writings (q : Query) (column : String) : List String :=
  [Identifier.quote column, Identifier.qualified q.table column]

/-- The entries of the selected columns, or of the declared ones without a selection, in their
order and without those of omitted columns. -/
def keptEntries (q : Query) : List String :=
  (if q.selected = [] then q.identity.columns.map (Identifier.qualified q.table)
    else q.selected.map Identifier.quoteExpression).filter fun entry ↦
      ∀ column ∈ q.omitted, entry ∉ q.writings column

/-- A read lists entries between its first keyword and the table, and so does the read inside a
count of its rows. -/
structure Lists (q : Query) (conds : List Condition) (entries : List String) : Prop where
  read : (q.selectStatement conds).sql =
    "SELECT " ++ (if q.isDistinct then "DISTINCT " else "") ++ String.intercalate ", " entries ++
      ((q.fromClause conds).sql ++ q.windowClause)
  count : q.countsRead = true → (q.countStatement conds).sql =
    "SELECT COUNT(*) FROM (SELECT " ++ (if q.isDistinct then "DISTINCT " else "") ++
      String.intercalate ", " entries ++ ((q.fromClause conds).sql ++ ") AS \"counted\"")

variable {q : Query}

private theorem sql_unordered (q : Query) (columns : String) (conds : List Condition) :
    (q.unordered columns conds).sql =
      "SELECT " ++ (if q.isDistinct then "DISTINCT " else "") ++ columns ++
        (q.fromClause conds).sql := by
  rw [unordered]
  simp

/-- What is listed is the text of the entries. -/
theorem lists_iff {conds : List Condition} {entries : List String} :
    q.Lists conds entries ↔ q.selectList = String.intercalate ", " entries := by
  have hread : (q.selectStatement conds).sql =
      "SELECT " ++ (if q.isDistinct then "DISTINCT " else "") ++ q.selectList ++
        ((q.fromClause conds).sql ++ q.windowClause) := by
    rw [selectStatement, selectColumns, Statement.append_text, sql_unordered, String.append_assoc]
  constructor
  · intro h
    have htext := h.read
    rw [hread] at htext
    simpa only [← String.toList_inj, String.toList_append, List.append_cancel_right_eq,
      List.append_cancel_left_eq] using htext
  · intro h
    refine ⟨?_, ?_⟩
    · rw [hread, h]
    · intro hcounts
      have hopen : "SELECT COUNT(*) FROM (SELECT " = "SELECT COUNT(*) FROM (" ++ "SELECT " := rfl
      rw [countStatement, countsRead_eq, hcounts, ← h, hopen]
      simp only [Bool.not_true, Bool.false_eq_true, if_false, Statement.text_append,
        Statement.append_text, sql_unordered, String.append_assoc]

private theorem mem_writings_iff {column entry : String} :
    entry ∈ q.writings column ↔
      entry = Identifier.quote column ∨ entry = Identifier.qualified q.table column := by
  simp [writings]

private theorem ne_empty_of_mem_writings {column entry : String} (h : entry ∈ q.writings column) :
    entry ≠ "" := by
  rintro rfl
  rcases mem_writings_iff.1 h with h | h
  · simp [← String.toList_inj, Identifier.quoteChars] at h
  · simp [← String.toList_inj, Identifier.qualified, Identifier.quoteChars] at h

-- Declared columns are qualified, and no other column is written as they are.
private theorem keptEntries_of_selected_eq_nil (h : q.selected = []) :
    q.keptEntries =
      (q.identity.columns.filter fun column ↦ !q.omitted.contains column).map
        (Identifier.qualified q.table) := by
  rw [keptEntries, if_pos h, List.filter_map]
  congr 1
  apply List.filter_congr
  intro column _
  have hwritten (other : String) :
      Identifier.qualified q.table column ∈ q.writings other ↔ column = other := by
    rw [mem_writings_iff, or_iff_right (Identifier.quote_ne_qualified _ _ _).symm,
      Identifier.qualified_eq_iff, eq_self, true_and]
  simp [hwritten, List.forall_mem_ne]

private theorem selectList_eq_declared_iff (h : q.selected = []) :
    q.selectList = String.intercalate ", " q.keptEntries ↔
      ∃ column ∈ q.identity.columns, column ∉ q.omitted := by
  have hleft : (∃ column ∈ q.identity.columns, column ∉ q.omitted) ↔
      (q.identity.columns.filter fun column ↦ !q.omitted.contains column) ≠ [] := by
    simp [List.filter_eq_nil_iff]
  rw [hleft, keptEntries_of_selected_eq_nil h, selectList, h, List.isEmpty_nil, if_pos rfl]
  cases hkept : q.identity.columns.filter fun column ↦ !q.omitted.contains column with
  | nil => simp [← String.toList_inj, Identifier.quoteChars]
  | cons column rest => simp

private theorem selectList_eq_selected_iff (h : q.selected ≠ []) :
    q.selectList = String.intercalate ", " q.keptEntries ↔
      ∀ expression ∈ q.selected, ∀ column ∈ q.omitted,
        ¬Identifier.Names q.table column expression := by
  rw [selectList, List.isEmpty_eq_false_iff.2 h, if_neg Bool.false_ne_true, keptEntries, if_neg h,
    eq_comm, intercalate_filter_eq_iff]
  · simp only [List.forall_mem_map, decide_eq_true_eq, mem_writings_iff,
      Identifier.quoteExpression_eq_iff]
  · intro entry _ hentry
    obtain ⟨column, -, hwritten⟩ : ∃ column ∈ q.omitted, entry ∈ q.writings column := by
      simpa using hentry
    exact ne_empty_of_mem_writings hwritten

/-- A read and the read inside a count list the selected or declared columns without the omitted
ones exactly when no selected expression names an omitted column and, without a selection, some
declared column is not omitted. -/
theorem omitted_unlisted_iff (q : Query) :
    (∀ conds, q.Lists conds q.keptEntries) ↔
      (∀ expression ∈ q.selected, ∀ column ∈ q.omitted,
        ¬Identifier.Names q.table column expression) ∧
      (q.selected = [] → ∃ column ∈ q.identity.columns, column ∉ q.omitted) := by
  have hlists : (∀ conds, q.Lists conds q.keptEntries) ↔
      q.selectList = String.intercalate ", " q.keptEntries :=
    ⟨fun h ↦ lists_iff.1 (h []), fun h _ ↦ lists_iff.2 h⟩
  rw [hlists]
  by_cases hselected : q.selected = []
  · rw [selectList_eq_declared_iff hselected]
    simp [hselected]
  · rw [selectList_eq_selected_iff hselected]
    simp [hselected]

/-- A password is listed when it is selected, though it is omitted, and a password that is declared
is left out. -/
theorem omitted_unlisted_iff_password :
    let identity : TableIdentity := ⟨"users", "id", ["id", "password"], none⟩
    let declared := (ofIdentity identity).omitting ["password"]
    let selected := declared.select ["id", "users.password"]
    (∀ conds, declared.Lists conds ["\"users\".\"id\""]) ∧
      selected.Lists [] ["\"id\"", "\"users\".\"password\""] ∧
      ¬∀ conds, selected.Lists conds selected.keptEntries := by
  intro identity declared selected
  have hkept : declared.keptEntries = ["\"users\".\"id\""] := by decide
  refine ⟨?_, lists_iff.2 (by decide), ?_⟩
  · rw [← hkept, omitted_unlisted_iff]
    exact ⟨by simp [declared, ofIdentity, omitting], fun _ ↦ ⟨"id", by decide, by decide⟩⟩
  · rw [omitted_unlisted_iff]
    intro h
    exact h.1 "users.password" (by decide) "password" (by decide) (.ofTable (by decide) (by decide))

end Query

end RecordStore
