import RecordStore.Proofs.Filter.Tree
import RecordStore.Proofs.Placeholder.Quotes
import RecordStore.Query.Select
import RecordStore.Query.Write

/-!
# Plain texts of queries

The texts that a query is written with beside its filters, joins and payload end outside quotes and
hold no placeholder. Names are quoted, so nothing is asked of them; what a caller writes by hand has
to be plain itself.
-/

namespace RecordStore

open Placeholder

namespace Placeholder

/-- An integer in decimal is plain. -/
theorem isPlain_integerText (n : Int) : IsPlain (integerText n).toList := by
  have hsign : IsPlain ['-'] := by decide
  rw [integerText, String.toList_ofList]
  cases n with
  | ofNat m => exact isPlain_decimalDigits m
  | negSucc m => exact hsign.append (isPlain_decimalDigits (m + 1))

end Placeholder

namespace Query

/-! ### Reading -/

private theorem isPlain_comma : IsPlain ", ".toList := by decide

private theorem isPlain_quoteExpression {expression : String}
    (h : Identifier.isColumnReference expression = false → IsPlain expression.toList) :
    IsPlain (Identifier.quoteExpression expression).toList := by
  rw [Identifier.quoteExpression]
  split
  · exact isPlain_quoteReference expression
  · next hreference => exact h (by simpa using hreference)

/-- The columns of a read are plain when those selected by hand are. -/
theorem isPlain_selectList {q : Query}
    (h : ∀ c ∈ q.selected, Identifier.isColumnReference c = false → IsPlain c.toList) :
    IsPlain q.selectList.toList := by
  rw [selectList]
  split
  · dsimp only
    split
    · exact (isPlain_quote q.table).text_append (by decide)
    · apply IsPlain.intercalate isPlain_comma
      intro text htext
      obtain ⟨column, -, rfl⟩ := List.mem_map.1 htext
      exact isPlain_qualified q.table column
  · apply IsPlain.intercalate isPlain_comma
    intro text htext
    obtain ⟨c, hc, rfl⟩ := List.mem_map.1 htext
    exact isPlain_quoteExpression (h c hc)

/-- The bound of a window is plain. -/
theorem isPlain_boundClause {keyword : String} (hkeyword : IsPlain keyword.toList)
    (bound : Option Int64) : IsPlain (boundClause keyword bound).toList := by
  have hblank : IsPlain " ".toList := by decide
  cases bound with
  | none => exact .nil
  | some n =>
    rw [boundClause]
    exact ((hblank.text_append hkeyword).text_append hblank).text_append (isPlain_integerText _)

/-- The lock that a modifier asks for is plain. -/
theorem isPlain_lockText (clause : Clause) : IsPlain (lockText clause).toList := by
  unfold lockText
  split
  · decide
  · decide
  · exact .nil

/-- What a scope asks is written with a plain text. -/
theorem forall_leavesOf_scope (q : Query) :
    ∀ l ∈ Expr.leavesOf q.scope, ∃ sql, l = .raw sql [] ∧ IsPlain sql.toList := by
  have hnull : IsPlain " IS NULL".toList := by decide
  intro l hl
  rw [scope] at hl
  split at hl
  · next column _ =>
    split at hl
    · cases hl
    · rw [Expr.leavesOf] at hl
      split at hl
      · cases hl
      · obtain rfl : l = .raw (Identifier.qualified q.table column ++ " IS NULL") [] := by
          simpa [Expr.leaves, Expr.leavesOf] using hl
        exact ⟨_, rfl, (isPlain_qualified q.table column).text_append hnull⟩
  · cases hl

/-! ### Writing -/

/-- Names as quoted identifiers with commas between them are plain. -/
theorem isPlain_quotedList (columns : List String) : IsPlain (quotedList columns).toList := by
  apply IsPlain.intercalate isPlain_comma
  intro text htext
  obtain ⟨column, -, rfl⟩ := List.mem_map.1 htext
  exact isPlain_quote column

/-- The left side of an assignment is plain. -/
theorem isPlain_updateTarget (columns : List String) : IsPlain (updateTarget columns).toList := by
  rw [updateTarget]
  split
  · exact isPlain_quotedList columns
  · have hopening : IsPlain "(".toList := by decide
    exact (hopening.text_append (isPlain_quotedList columns)).text_append (by decide)

private theorem isPlain_excludedAssignment (column : String) :
    IsPlain (excludedAssignment column).toList := by
  have hmiddle : IsPlain " = EXCLUDED.".toList := by decide
  exact ((isPlain_quote column).text_append hmiddle).text_append (isPlain_quote column)

/-- What happens to an inserted row that is there already is plain. -/
theorem isPlain_conflictClause (q : Query) (written : List String) :
    IsPlain (q.conflictClause written).toList := by
  have hfront : IsPlain " ON CONFLICT (".toList := by decide
  have hmiddle : IsPlain ") DO UPDATE SET ".toList := by decide
  rw [conflictClause]
  split
  · decide
  · decide
  · refine ((hfront.text_append (isPlain_quote _)).text_append hmiddle).text_append ?_
    apply IsPlain.intercalate isPlain_comma
    intro text htext
    obtain ⟨column, -, rfl⟩ := List.mem_map.1 htext
    exact isPlain_excludedAssignment column

end Query

end RecordStore
