import RecordStore.Proofs.Placeholder.Direct
import RecordStore.Proofs.Reading.Name

/-!
# Quoted names in a statement

A quoted name is one token twice over. Where SQL is read, a quote inside the name is written twice
and ends nothing; where placeholders are numbered, the two close the quote and open it again. So the
name is read back, no two names are quoted alike, and what stands around a name is numbered as it is
without the name.
-/

namespace RecordStore

namespace Identifier

open Placeholder Reading

/-- No two names are quoted alike. -/
theorem quote_injective : Function.Injective quote := by
  intro first second h
  have hend : ([] : List Char).head? ≠ some '"' := by simp
  have hfirst := name?_quote first hend
  rw [h, name?_quote second hend] at hfirst
  simpa using hfirst.symm

/-- No two qualified columns are quoted alike. -/
theorem qualified_injective :
    Function.Injective fun column : String × String ↦ qualified column.1 column.2 := by
  intro first second h
  have hend : ([] : List Char).head? ≠ some '"' := by simp
  have hfirst := column?_qualified first.1 first.2 hend
  dsimp only at h
  rw [h, column?_qualified second.1 second.2 hend] at hfirst
  simpa [Prod.ext_iff, eq_comm] using hfirst

-- A name neither has a placeholder nor leaves a quote open.
private theorem toPostgres_quote_between {before : String} (h : IsClosed before.toList)
    (name after : String) (args : List Json) :
    (Statement.withArgs (before ++ quote name ++ after) args).toPostgres =
      (Statement.withArgs before args).toPostgres ++ quote name ++
        String.ofList (number none 0 (count none before.toList) [] after.toList) := by
  simp only [← String.toList_inj, String.toList_append, String.toList_ofList, number_nil,
    Statement.toList_toPostgres_withArgs]
  rw [numberMarks_plain_between h (isPlain_quote name), Nat.zero_add]

/-- A quoted name is read back as the name, and no two names or qualified columns are quoted alike.
Between texts of a statement, the first of which ends outside quotes, it stays as it is, and the
text behind it is numbered on from the text in front of it. -/
theorem quote_is_one_token :
    (∀ (name : String) (after : List Char), after.head? ≠ some '"' →
        name? ((quote name).toList ++ after) = some (name, after)) ∧
      Function.Injective quote ∧
      (Function.Injective fun column : String × String ↦ qualified column.1 column.2) ∧
      ∀ (before name after : String) (args : List Json), IsClosed before.toList →
        (Statement.withArgs (before ++ quote name ++ after) args).toPostgres =
          (Statement.withArgs before args).toPostgres ++ quote name ++
            String.ofList (number none 0 (count none before.toList) [] after.toList) := by
  refine ⟨?_, quote_injective, qualified_injective, ?_⟩
  · intro name after h
    exact name?_quote name h
  · intro before name after args h
    exact toPostgres_quote_between h name after args

/-- The quotes and the question mark of a name are those of the name. -/
theorem quote_is_one_token_hostile :
    (" AND ?".toList.head? ≠ some '"' ∧
        name? ((quote "it's \"?\"").toList ++ " AND ?".toList) =
          some ("it's \"?\"", " AND ?".toList)) ∧
      IsClosed "? = ".toList ∧
      (Statement.withArgs ("? = " ++ quote "it's \"?\"" ++ " AND ?") []).toPostgres =
        "$1 = \"it's \"\"?\"\"\" AND $2" := by
  obtain ⟨hread, -, -, hnumbered⟩ := quote_is_one_token
  refine ⟨⟨by decide, hread "it's \"?\"" " AND ?".toList (by decide)⟩, by decide, ?_⟩
  exact (hnumbered "? = " "it's \"?\"" " AND ?" [] (by decide)).trans (by decide)

end Identifier

end RecordStore
