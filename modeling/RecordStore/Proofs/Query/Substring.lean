import RecordStore.Proofs.Filter.Operand
import RecordStore.Proofs.Query.Search
import RecordStore.Proofs.Reading.Like

/-!
# Searches for a part of a text

A wildcard compares a column by LIKE with the searched text between percent signs, and the text goes
into the pattern as it is. So a search finds the rows that hold the text when no character of it has
a meaning in a pattern, and other rows too when one has.
-/

namespace RecordStore

open Reading

namespace Expr

/-- Whether the leaf of a filter holds of a row that gives columns their texts, none for null. LIKE
holds of a text that matches its pattern; what other leaves say of the row is given. -/
def leafHolds (row : String → Option String) (other : Expr → Bool) : Expr → Bool
  | .compare column "LIKE" (.string pattern) =>
    (row column).any fun text ↦ likeMatches pattern.toList text.toList
  | l => other l

/-- Whether a row passes a filter. -/
def passes (row : String → Option String) (other : Expr → Bool) (e : Expr) : Bool :=
  (formula .atom e).holds (leafHolds row other)

/-- A filter that those rows pass which have a text of some kind in one of some columns. -/
def Finds (e : Expr) (columns : List String) (found : String → Prop) : Prop :=
  ∀ row other, e.passes row other = true ↔
    ∃ column ∈ columns, ∃ text, row column = some text ∧ found text

end Expr

/-! ### Options and groups -/

namespace KeywordOption

variable {o : KeywordOption}

/-- A wildcard compares its column by LIKE with the pattern of the texts that hold its own. -/
theorem toExpr_of_wildcard (h : o.kind = .wildcard) :
    o.toExpr = .compare o.key "LIKE" (.string (holding (searchedText o.value))) := by
  rw [toExpr, h]

private theorem toList_holding (text : String) :
    (holding text).toList = '%' :: (text.toList ++ ['%']) := by
  rw [holding, String.toList_append, String.toList_append]
  rfl

/-- The pattern of a text is matched by the texts that hold it alone exactly when no character of it
has a meaning in a pattern. -/
theorem likeMatches_holding_iff (text : String) :
    (∀ t : String, likeMatches (holding text).toList t.toList = true ↔ text.toList <:+: t.toList) ↔
      ∀ c ∈ text.toList, ¬ IsPatternMark c := by
  rw [toList_holding, ← likeMatches_between_iff]
  constructor
  · intro h cs
    simpa using h (String.ofList cs)
  · intro h t
    exact h t.toList

/-- A row passes a wildcard when the text of its column matches the pattern. -/
theorem passes_toExpr (h : o.kind = .wildcard) (row : String → Option String)
    (other : Expr → Bool) :
    o.toExpr.passes row other = (row o.key).any fun text ↦
      likeMatches (holding (searchedText o.value)).toList text.toList := by
  rw [toExpr_of_wildcard h, Expr.passes, formula, Formula.holds_atom, Expr.leafHolds]

end KeywordOption

namespace KeywordGroup

variable {g : KeywordGroup} {e : Expr}

private theorem passes_options {options : List KeywordOption}
    (h : ∀ o ∈ options, o.isApplicable = true) (row : String → Option String)
    (other : Expr → Bool) :
    (Expr.group .or (options.map KeywordOption.toExpr)).passes row other =
      options.any fun o ↦ o.toExpr.passes row other := by
  rw [Expr.passes, formula, Formula.ofMembers, Formula.holds_any, formulas_eq_map,
    nonEmpty_options h, List.map_map, List.any_map]
  rfl

/-- A row passes the filter of alternatives when it passes one of the options that take part. -/
theorem passes_of_compile (h : g.compile = some e) (hor : g.conjunction = .or)
    (row : String → Option String) (other : Expr → Bool) :
    e.passes row other = g.applicable.any fun o ↦ o.toExpr.passes row other := by
  have happlicable := g.forall_applicable
  rw [compile, ← applicable, hor] at h
  cases hoptions : g.applicable with
  | nil =>
    rw [hoptions] at h
    cases h
  | cons first others =>
    rw [hoptions] at h happlicable
    cases others with
    | nil =>
      cases h
      simp
    | cons second rest =>
      cases h
      exact passes_options happlicable row other

/-- The options of a text in several columns that take part are those with a column reference. -/
theorem applicable_anywhere {text : String} (h : text ≠ "") (columns : List String) :
    (anywhere text columns).applicable =
      (columns.filter Identifier.isColumnReference).map fun column ↦
        ⟨.wildcard, column, .string text⟩ := by
  rw [applicable, anywhere, KeywordOption.forColumns, List.filter_map]
  congr 1
  apply List.filter_congr
  intro column _
  rw [Bool.eq_iff_iff, Function.comp_apply, KeywordOption.isApplicable_iff]
  simp [h]

/-- No option of an empty text takes part. -/
theorem applicable_anywhere_empty (columns : List String) :
    (anywhere "" columns).applicable = [] := by
  rw [applicable, anywhere, KeywordOption.forColumns, List.filter_map]
  simp [KeywordOption.isApplicable_iff]

end KeywordGroup

/-! ### Finding the rows that hold a text -/

open KeywordOption

/-- A filter that finds what matches the pattern of a text in some columns finds the texts that hold
it exactly when no character of the text has a meaning in a pattern. -/
theorem Expr.Finds.iff_plain {e : Expr} {columns : List String} {text : String}
    (h : e.Finds columns fun t ↦ likeMatches (holding text).toList t.toList = true)
    (hne : columns ≠ []) :
    (e.Finds columns fun t ↦ text.toList <:+: t.toList) ↔
      ∀ c ∈ text.toList, ¬ IsPatternMark c := by
  rw [← likeMatches_holding_iff]
  constructor
  · -- A row with one text in all of its columns tells whether the two agree on that text.
    intro hfinds t
    obtain ⟨column, hcolumn⟩ := List.exists_mem_of_ne_nil columns hne
    have hsame := (h (fun _ ↦ some t) fun _ ↦ false).symm.trans (hfinds (fun _ ↦ some t) _)
    constructor
    · intro hmatches
      obtain ⟨_, -, _, hrow, hholds⟩ := hsame.1 ⟨column, hcolumn, t, rfl, hmatches⟩
      rwa [Option.some.inj hrow]
    · intro hholds
      obtain ⟨_, -, _, hrow, hmatches⟩ := hsame.2 ⟨column, hcolumn, t, rfl, hholds⟩
      rwa [Option.some.inj hrow]
  · intro hsame row other
    rw [h row other]
    simp only [hsame]

namespace Query

-- What a search for a text adds when the text is not empty and one of the columns takes part.
private theorem exists_searchText_eq (q : Query) {text : String} (htext : text ≠ "")
    {columns : List String} (hcolumns : columns.filter Identifier.isColumnReference ≠ []) :
    ∃ e : Expr, q.searchText text columns = { q with filters := q.filters ++ [e] } ∧
      e.Finds (columns.filter Identifier.isColumnReference) fun t ↦
        likeMatches (holding text).toList t.toList = true := by
  have happlicable := KeywordGroup.applicable_anywhere htext columns
  have hcompile : (KeywordGroup.anywhere text columns).compile ≠ none := by
    rw [ne_eq, KeywordGroup.compile_eq_none_iff, happlicable]
    simpa using hcolumns
  obtain ⟨e, he⟩ := Option.ne_none_iff_exists'.1 hcompile
  refine ⟨e, ?_, ?_⟩
  · rw [searchText, search, Option.bind_some, he]
    change q.filter e = _
    rw [filter, KeywordGroup.isEmpty_of_compile he]
    rfl
  · intro row other
    rw [KeywordGroup.passes_of_compile he rfl, happlicable, List.any_map, List.any_eq_true]
    simp only [Function.comp_apply, passes_toExpr, Option.any_eq_true, searchedText]

/-- A search for a text in several columns finds the rows that hold the text in one of them exactly
when no character of the text has a meaning in a pattern. In any case it finds the rows that have a
text there which matches the pattern that each wildcard binds. Without a text, or without a column
that takes part, nothing is searched. -/
theorem searchText_finds (q : Query) (text : String) (columns : List String) :
    (∀ o : KeywordOption, o.kind = .wildcard → ∃ pattern : String,
      o.toExpr = .compare o.key "LIKE" (.string pattern) ∧
      ((∀ t : String, likeMatches pattern.toList t.toList = true ↔
          (searchedText o.value).toList <:+: t.toList) ↔
        ∀ c ∈ (searchedText o.value).toList, ¬ IsPatternMark c)) ∧
    (text = "" ∨ columns.filter Identifier.isColumnReference = [] →
      q.searchText text columns = q) ∧
    (text ≠ "" → columns.filter Identifier.isColumnReference ≠ [] →
      ∃ e : Expr, q.searchText text columns = { q with filters := q.filters ++ [e] } ∧
        (e.Finds (columns.filter Identifier.isColumnReference) fun t ↦
          likeMatches (holding text).toList t.toList = true) ∧
        ((e.Finds (columns.filter Identifier.isColumnReference) fun t ↦
            text.toList <:+: t.toList) ↔
          ∀ c ∈ text.toList, ¬ IsPatternMark c)) := by
  refine ⟨?_, ?_, ?_⟩
  · intro o ho
    exact ⟨_, toExpr_of_wildcard ho, likeMatches_holding_iff _⟩
  · intro h
    have happlicable : (KeywordGroup.anywhere text columns).applicable = [] := by
      rcases eq_or_ne text "" with rfl | htext
      · exact KeywordGroup.applicable_anywhere_empty columns
      · rw [KeywordGroup.applicable_anywhere htext, h.resolve_left htext, List.map_nil]
    rw [searchText, search, Option.bind_some, KeywordGroup.compile_eq_none_iff.2 happlicable]
  · intro htext hcolumns
    obtain ⟨e, hadd, hfinds⟩ := q.exists_searchText_eq htext hcolumns
    exact ⟨e, hadd, hfinds, hfinds.iff_plain hcolumns⟩

/-- A search for a percentage in the titles also finds a weight. -/
theorem searchText_finds_weight :
    ∃ e : Expr, (ofTable "goods").searchText "50%" ["title", "lower(note)"] =
        { ofTable "goods" with filters := [e] } ∧
      e.passes (fun _ ↦ some "50 kg") (fun _ ↦ false) = true ∧
      ¬ "50%".toList <:+: "50 kg".toList ∧
      ¬ e.Finds ["title"] fun t ↦ "50%".toList <:+: t.toList := by
  have hcolumns : ["title", "lower(note)"].filter Identifier.isColumnReference = ["title"] := by
    decide +kernel
  obtain ⟨-, -, hsearch⟩ := (ofTable "goods").searchText_finds "50%" ["title", "lower(note)"]
  rw [hcolumns] at hsearch
  obtain ⟨e, hadd, hfinds, hplain⟩ := hsearch (by decide) (by decide)
  refine ⟨e, hadd, ?_, by decide, ?_⟩
  · exact (hfinds _ _).2 ⟨"title", by simp, "50 kg", rfl, by decide +kernel⟩
  · rw [hplain]
    intro hall
    exact hall '%' (by simp) (.inl rfl)

end Query

end RecordStore
