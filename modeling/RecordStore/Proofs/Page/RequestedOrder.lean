import RecordStore.Proofs.Page.Parameters
import RecordStore.Proofs.Page.SortParameter

/-!
# The order that a request asks for

What is read from a sort parameter is read once more when the request is held to a configuration,
by other rules and with another direction where none is given. The two agree: every entry that the
first reading keeps has its direction, and the second keeps it with the same column and the same
direction.
-/

namespace RecordStore

open Identifier

/-- An entry of a sort parameter as it is kept, and the directive in normal form that sorts by the
same column in the same direction. -/
inductive NormalizesTo : String → String → Prop
  | ascending {column : String} (h : isColumnReference column = true) :
    NormalizesTo (column ++ " asc") (column ++ " ASC")
  | descending {column : String} (h : isColumnReference column = true) :
    NormalizesTo (column ++ " desc") (column ++ " DESC")

namespace OrderBy

private theorem normalizesTo_requestText {d : SortDirective}
    (h : isColumnReference d.column = true) : NormalizesTo (requestText d) d.text := by
  obtain ⟨column, direction⟩ := d
  have happend : ∀ word : String, column ++ " " ++ word = column ++ (" " ++ word) :=
    fun word ↦ String.append_assoc
  cases direction with
  | ascending =>
    rw [requestText, SortDirective.text, happend, happend]
    exact .ascending h
  | descending =>
    rw [requestText, SortDirective.text, happend, happend]
    exact .descending h

/-- A directive as a request writes it is read as the directive. -/
theorem normalize?_requestText {d : SortDirective} (h : isColumnReference d.column = true) :
    SortDirective.normalize? (requestText d) = some d.text := by
  have hread : SortDirective.ofText? (requestText d) = some d := by
    apply SortDirective.ofText?_append (SortDirective.isColumnReference_iff.1 h).1
    · cases d.direction <;> decide
    · cases d.direction <;> simp [SortDirection.lowerKeyword, isBlankChar, blankRanges]
  rw [SortDirective.normalize?, hread]
  rfl

private theorem filterMap_normalize?_parse (parameter : String) :
    (parse parameter).filterMap SortDirective.normalize? =
      (directives parameter).map SortDirective.text := by
  rw [parse, List.filterMap_map, ← List.filterMap_eq_map]
  apply List.filterMap_congr
  intro d hd
  exact normalize?_requestText (isColumnReference_of_mem_directives hd)

end OrderBy

namespace PageOptions

open OrderBy

/-- Every entry that is read from a sort parameter is a plain column reference with its direction,
and normalizing keeps it. So a request whose last sort parameter it is sorts by these entries, none
left out, by the same columns in the same directions and the same order. -/
theorem normalized_keeps_directives (parameter : String) :
    (∀ entry ∈ parse parameter, ∃ normal,
      NormalizesTo entry normal ∧ SortDirective.normalize? entry = some normal) ∧
    ∀ (config : StoreConfig) (before after : List (String × String)) (key : String),
      key ∈ Parameter.sort.names → (∀ pair ∈ after, pair.1 ∉ Parameter.sort.names) →
        List.Forall₂ NormalizesTo (parse parameter)
          ((ofParameters (before ++ (key, parameter) :: after)).normalized config).orderBy := by
  constructor
  · intro entry hentry
    obtain ⟨d, hd, rfl⟩ := List.mem_map.1 hentry
    have hcolumn := isColumnReference_of_mem_directives hd
    exact ⟨d.text, normalizesTo_requestText hcolumn, normalize?_requestText hcolumn⟩
  · intro config before after key hkey hafter
    have hdirectives :
        ((ofParameters (before ++ (key, parameter) :: after)).normalized config).orderBy =
          (directives parameter).map SortDirective.text := by
      rw [normalized, ofParameters_eq,
        Parameter.sort.last?_append_cons hkey parameter before hafter]
      exact filterMap_normalize?_parse parameter
    rw [hdirectives, parse, List.forall₂_map_left_iff, List.forall₂_map_right_iff,
      List.forall₂_same]
    intro d hd
    exact normalizesTo_requestText (isColumnReference_of_mem_directives hd)

/-- A column with a word that is no direction, and one with a word around it. -/
theorem normalized_keeps_directives_titles :
    let config := ({ databaseUrl := "" } : ConfigSettings).build
    parse "t.title \tasc,aSc(id)" = ["t.title desc", "id asc"] ∧
      (∀ entry ∈ parse "t.title \tasc,aSc(id)", ∃ normal,
        NormalizesTo entry normal ∧ SortDirective.normalize? entry = some normal) ∧
      "orderBy" ∈ Parameter.sort.names ∧ (∀ pair ∈ [("page", "2")], pair.1 ∉ Parameter.sort.names) ∧
      List.Forall₂ NormalizesTo ["t.title desc", "id asc"]
        ((ofParameters ([("order_by", "price")] ++
          ("orderBy", "t.title \tasc,aSc(id)") :: [("page", "2")])).normalized config).orderBy := by
  intro config
  obtain ⟨hentries, hrequest⟩ := normalized_keeps_directives "t.title \tasc,aSc(id)"
  have hparse : parse "t.title \tasc,aSc(id)" = ["t.title desc", "id asc"] := by decide
  have hrequested := hrequest config [("order_by", "price")] [("page", "2")] "orderBy" (by decide)
    (by decide)
  rw [hparse] at hrequested
  exact ⟨hparse, hentries, by decide, by decide, hrequested⟩

end PageOptions

end RecordStore
