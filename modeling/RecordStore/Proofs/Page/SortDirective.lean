import Mathlib
import RecordStore.Proofs.Page.Window

/-!
# Sort directives in normal form

A directive that is read is written as its column, a blank and the keyword of its direction, and is
read back from that text as it was. Its column is a reference in letters without regard to case, two
of which are no letters of ASCII: the long s and the Kelvin sign. With neither of the two in it, and
only then, it is a plain column reference.
-/

namespace RecordStore

namespace SortDirective

/-- A letter outside ASCII that folds to a letter of ASCII: the long s or the Kelvin sign. -/
def isForeignLetter (c : Char) : Bool := c = '\u017F' || c = '\u212A'

/-- A column as sort directives take it: a reference in letters without regard to case. -/
def IsColumn (column : String) : Prop :=
  Identifier.isReference (fun c ↦ (foldCase c).isAlpha) column.toList = true

/-- A directive in normal form: a column, a blank and the keyword of a direction. -/
def IsNormal (directive : String) : Prop :=
  ∃ d : SortDirective, IsColumn d.column ∧ directive = d.text

/-- A directive in normal form whose column is a plain column reference. -/
def IsPlain (directive : String) : Prop :=
  ∃ d : SortDirective, Identifier.isColumnReference d.column = true ∧ directive = d.text

/-! ### Letters without regard to case -/

private theorem isForeignLetter_iff {c : Char} :
    isForeignLetter c = true ↔ c = '\u017F' ∨ c = '\u212A' := by
  simp [isForeignLetter]

/-- The letters without regard to case are those of ASCII and the foreign ones. -/
theorem isAlpha_foldCase (c : Char) :
    (foldCase c).isAlpha = (isForeignLetter c || c.isAlpha) := by
  rw [foldCase]
  split
  · next h => rw [h]; rfl
  · next hlong =>
    split
    · next h => rw [h]; rfl
    · next hkelvin =>
      rw [Char.isAlpha_toLower_eq_isAlpha]
      simp [isForeignLetter, hlong, hkelvin]

/-- A column holds no blank. -/
theorem IsColumn.not_blank {column : String} (h : IsColumn column) :
    ∀ c ∈ column.toList, isBlankChar c = false := by
  intro c hc
  obtain hletter | hdigit | rfl | rfl := (Identifier.forall_of_isReference h).2 c hc
  · rw [isAlpha_foldCase, Bool.or_eq_true] at hletter
    obtain hforeign | halpha := hletter
    · obtain rfl | rfl := isForeignLetter_iff.1 hforeign <;> decide
    · exact not_isBlankChar_of_isAlphanum (by simp [Char.isAlphanum, halpha])
  · exact not_isBlankChar_of_isAlphanum (by simp [Char.isAlphanum, hdigit])
  · decide
  · decide

/-- The plain column references are the columns that hold no foreign letter. -/
theorem isColumnReference_iff {column : String} :
    Identifier.isColumnReference column = true ↔
      IsColumn column ∧ ∀ c ∈ column.toList, isForeignLetter c = false := by
  have hcolumn : (∀ c ∈ column.toList, isForeignLetter c = false) →
      (IsColumn column ↔ Identifier.isColumnReference column = true) := by
    intro hletters
    have hfold : ∀ c ∈ column.toList, (foldCase c).isAlpha = c.isAlpha := by
      intro c hc
      rw [isAlpha_foldCase, hletters c hc, Bool.false_or]
    rw [IsColumn, Identifier.isReference_congr hfold]
    rfl
  constructor
  · intro hplain
    have hletters : ∀ c ∈ column.toList, isForeignLetter c = false := by
      intro c hc
      have hchar := (Identifier.forall_of_isColumnReference hplain).2 c hc
      rw [Bool.eq_false_iff]
      intro hforeign
      obtain rfl | rfl := isForeignLetter_iff.1 hforeign <;> revert hchar <;> decide
    exact ⟨(hcolumn hletters).2 hplain, hletters⟩
  · rintro ⟨h, hletters⟩
    exact (hcolumn hletters).1 h

/-! ### The normal form -/

private theorem toList_text (d : SortDirective) :
    d.text.toList = d.column.toList ++ ' ' :: d.direction.keyword.toList := by
  simp [text, String.toList_append]

/-- What is read as a directive names a column. -/
theorem isColumn_of_ofText? {text : String} {d : SortDirective} (h : ofText? text = some d) :
    IsColumn d.column := by
  rw [ofText?, ofChars?] at h
  split at h
  · next hcolumn =>
    split at h
    · cases h
      rwa [IsColumn, String.toList_ofList]
    · obtain ⟨direction, -, rfl⟩ := Option.map_eq_some_iff.1 h
      rwa [IsColumn, String.toList_ofList]
  · cases h

/-- A column and, behind a blank, a word that names a direction are read as a directive. -/
theorem ofText?_append {column word : String} {direction : SortDirection} (h : IsColumn column)
    (hword : direction? word.toList = some direction)
    (hblank : ∀ c ∈ word.toList, isBlankChar c = false) :
    ofText? (column ++ " " ++ word) = some ⟨column, direction⟩ := by
  have hne : word.toList ≠ [] := by
    intro hnil
    rw [hnil] at hword
    exact absurd hword (by simp [direction?])
  have htrim : trimChars (column ++ " " ++ word).toList = column.toList ++ ' ' :: word.toList := by
    have hbetween := trimChars_between [' ']
      ⟨(Identifier.forall_of_isReference h).1, h.not_blank⟩ ⟨hne, hblank⟩
    simpa using hbetween
  have hcolumn : ∀ c ∈ column.toList, (!isBlankChar c) = true := by
    intro c hc
    rw [h.not_blank c hc]
    rfl
  have hrest : (' ' :: word.toList).dropWhile isBlankChar = word.toList := by
    rw [List.dropWhile_cons_of_pos (by decide)]
    exact dropWhile_isBlankChar_eq_self fun c hc ↦ hblank c (List.mem_of_mem_head? hc)
  rw [ofText?, htrim, ofChars?, List.takeWhile_append_of_pos hcolumn,
    List.dropWhile_append_of_pos hcolumn, List.takeWhile_cons_of_neg (by decide),
    List.dropWhile_cons_of_neg (by decide), List.append_nil]
  simp only [IsColumn] at h
  rw [if_pos h]
  show (direction? ((' ' :: word.toList).dropWhile isBlankChar)).map
    (fun direction ↦ (⟨String.ofList column.toList, direction⟩ : SortDirective)) = _
  rw [hrest, hword, String.ofList_toList]
  rfl

/-- The text of a directive is read as the directive. -/
theorem ofText?_text {d : SortDirective} (h : IsColumn d.column) : ofText? d.text = some d := by
  apply ofText?_append h
  · cases d.direction <;> decide
  · cases d.direction <;> simp [SortDirection.keyword, isBlankChar, blankRanges]

/-- Normalizing yields normal forms. -/
theorem isNormal_of_normalize? {directive normal : String}
    (h : normalize? directive = some normal) : IsNormal normal := by
  obtain ⟨d, hread, rfl⟩ := Option.map_eq_some_iff.1 h
  exact ⟨d, isColumn_of_ofText? hread, rfl⟩

/-- What is left of a list of directives is in normal form. -/
theorem isNormal_of_mem_filterMap {directives : List String} :
    ∀ normal ∈ directives.filterMap normalize?, IsNormal normal := by
  intro normal hnormal
  obtain ⟨directive, -, hdirective⟩ := List.mem_filterMap.1 hnormal
  exact isNormal_of_normalize? hdirective

/-- The normal forms are the fixed points of normalizing. -/
theorem normalize?_eq_self_iff {directive : String} :
    normalize? directive = some directive ↔ IsNormal directive := by
  constructor
  · exact isNormal_of_normalize?
  · rintro ⟨d, hcolumn, rfl⟩
    rw [normalize?, ofText?_text hcolumn]
    rfl

private theorem forall_text_iff (d : SortDirective) :
    (∀ c ∈ d.text.toList, isForeignLetter c = false) ↔
      ∀ c ∈ d.column.toList, isForeignLetter c = false := by
  rw [toList_text, List.forall_mem_append]
  apply and_iff_left
  cases d.direction <;> simp [SortDirection.keyword, isForeignLetter]

/-- The plain directives are the normal forms that hold no foreign letter. -/
theorem isPlain_iff {directive : String} :
    IsPlain directive ↔
      IsNormal directive ∧ ∀ c ∈ directive.toList, isForeignLetter c = false := by
  constructor
  · rintro ⟨d, hplain, rfl⟩
    obtain ⟨hcolumn, hletters⟩ := isColumnReference_iff.1 hplain
    exact ⟨⟨d, hcolumn, rfl⟩, d.forall_text_iff.2 hletters⟩
  · rintro ⟨⟨d, hcolumn, rfl⟩, hletters⟩
    exact ⟨d, isColumnReference_iff.2 ⟨hcolumn, d.forall_text_iff.1 hletters⟩, rfl⟩

end SortDirective

namespace Query

open SortDirective

/-- What a page sorts by: what the query sorts by and, behind it, the directives of the request in
normal form. A directive is plain then unless the long s or the Kelvin sign is left in it, which
pass in a column as the letter that they fold to. -/
theorem page_directives_plain_iff (q : Query) (o : PageOptions) (config : StoreConfig) :
    (∀ directive normal, normalize? directive = some normal →
      IsNormal normal ∧
        (IsPlain normal ↔ ∀ c ∈ normal.toList, isForeignLetter c = false)) ∧
    (q.onPage (o.normalized config)).ordering =
      q.ordering ++ o.orderBy.filterMap normalize? ∧
    ((∀ term ∈ o.orderBy.filterMap normalize?, IsPlain term) ↔
      ∀ term ∈ o.orderBy.filterMap normalize?, ∀ c ∈ term.toList, isForeignLetter c = false) := by
  refine ⟨?_, ?_, ?_⟩
  · intro directive normal h
    have hnormal := isNormal_of_normalize? h
    exact ⟨hnormal, isPlain_iff.trans (and_iff_right hnormal)⟩
  · rw [onPage, sortedBy_normalized]
    rfl
  · apply forall₂_congr
    intro term hterm
    exact isPlain_iff.trans (and_iff_right (isNormal_of_mem_filterMap term hterm))

/-- With the long s in it a directive is not plain, and is sorted by nevertheless. -/
theorem page_directives_plain_iff_letters :
    let o : PageOptions := { orderBy := ["a\u017F", " id  desc "] }
    ((ofTable "t").onPage (o.normalized { databaseUrl := "" : ConfigSettings }.build)).ordering =
      ["a\u017F ASC", "id DESC"] ∧ ¬IsPlain "a\u017F ASC" ∧ IsPlain "id DESC" := by
  intro o
  obtain ⟨hplain, hordering, -⟩ := page_directives_plain_iff (ofTable "t") o
    { databaseUrl := "" : ConfigSettings }.build
  refine ⟨hordering, ?_, ?_⟩
  · rw [(hplain "a\u017F" "a\u017F ASC" (by decide)).2]
    simp [isForeignLetter]
  · rw [(hplain " id  desc " "id DESC" (by decide)).2]
    simp [isForeignLetter]

end Query

end RecordStore
