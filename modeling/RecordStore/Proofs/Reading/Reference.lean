import Mathlib.Computability.Language
import RecordStore.Proofs.Reading.Name

/-!
# The language of plain column references

A plain column reference is told as a regular language: a segment, or two with a point between them.
Names are taken for references exactly when they are in the language, and a reference that is quoted
is read back as its segments.
-/

namespace RecordStore

namespace Identifier

open Reading
open scoped Computability

/-- A letter of ASCII or an underscore. -/
def IsSegmentStart (c : Char) : Prop := ('A' ≤ c ∧ c ≤ 'Z') ∨ ('a' ≤ c ∧ c ≤ 'z') ∨ c = '_'

/-- A letter or a digit of ASCII or an underscore. -/
def IsSegmentPart (c : Char) : Prop := IsSegmentStart c ∨ ('0' ≤ c ∧ c ≤ '9')

instance (c : Char) : Decidable (IsSegmentStart c) :=
  inferInstanceAs (Decidable (('A' ≤ c ∧ c ≤ 'Z') ∨ ('a' ≤ c ∧ c ≤ 'z') ∨ c = '_'))

instance (c : Char) : Decidable (IsSegmentPart c) :=
  inferInstanceAs (Decidable (IsSegmentStart c ∨ ('0' ≤ c ∧ c ≤ '9')))

/-- The texts of one character of a kind. -/
def oneOf (kind : Char → Prop) : Language Char := {cs | ∃ c, kind c ∧ cs = [c]}

/-- Letters, digits and underscores, no digit first and at least one of them. -/
def segments : Language Char := oneOf IsSegmentStart * (oneOf IsSegmentPart)∗

/-- One segment, or two with a point between them. -/
def references : Language Char := segments + segments * {['.']} * segments

/-! ### Segments -/

private theorem isAlpha_iff {c : Char} :
    c.isAlpha = true ↔ ('A' ≤ c ∧ c ≤ 'Z') ∨ ('a' ≤ c ∧ c ≤ 'z') := by
  change (decide ('A' ≤ c ∧ c ≤ 'Z') || (decide ('a' ≤ c) && decide (c ≤ 'z'))) = true ↔ _
  rw [Bool.or_eq_true, Bool.and_eq_true, decide_eq_true_iff, decide_eq_true_iff,
    decide_eq_true_iff]

private theorem isDigit_iff {c : Char} : c.isDigit = true ↔ '0' ≤ c ∧ c ≤ '9' := by
  change (decide ('0' ≤ c) && decide (c ≤ '9')) = true ↔ _
  rw [Bool.and_eq_true, decide_eq_true_iff, decide_eq_true_iff]

/-- Repeated texts of one character are the texts of characters of the kind. -/
theorem mem_kstar_oneOf_iff {kind : Char → Prop} {cs : List Char} :
    cs ∈ (oneOf kind)∗ ↔ ∀ c ∈ cs, kind c := by
  constructor
  · rw [Language.mem_kstar]
    rintro ⟨pieces, rfl, hpieces⟩ c hc
    obtain ⟨piece, hpiece, hmem⟩ := List.mem_flatten.1 hc
    obtain ⟨d, hd, rfl⟩ := hpieces piece hpiece
    rwa [List.mem_singleton.1 hmem]
  · intro h
    have hpieces : ∀ piece ∈ cs.map fun c ↦ [c], piece ∈ oneOf kind := by
      intro piece hpiece
      obtain ⟨c, hc, rfl⟩ := List.mem_map.1 hpiece
      exact ⟨c, h c hc, rfl⟩
    have hkstar := Language.join_mem_kstar hpieces
    rwa [← List.flatMap_def, List.flatMap_singleton'] at hkstar

/-- A segment is its first character and what goes on behind that. -/
theorem mem_segments_iff {cs : List Char} :
    cs ∈ segments ↔
      ∃ first rest, cs = first :: rest ∧ IsSegmentStart first ∧ ∀ c ∈ rest, IsSegmentPart c := by
  rw [segments, Language.mem_mul]
  constructor
  · rintro ⟨_, ⟨first, hfirst, rfl⟩, rest, hrest, rfl⟩
    exact ⟨first, rest, rfl, hfirst, mem_kstar_oneOf_iff.1 hrest⟩
  · rintro ⟨first, rest, rfl, hfirst, hrest⟩
    exact ⟨[first], ⟨first, hfirst, rfl⟩, rest, mem_kstar_oneOf_iff.2 hrest, rfl⟩

/-- A segment consists of letters, digits and underscores. -/
theorem forall_of_mem_segments {cs : List Char} (h : cs ∈ segments) :
    ∀ c ∈ cs, IsSegmentPart c := by
  obtain ⟨first, rest, rfl, hfirst, hrest⟩ := mem_segments_iff.1 h
  rw [List.forall_mem_cons]
  exact ⟨.inl hfirst, hrest⟩

/-- A segment has no point. -/
theorem point_not_mem_of_mem_segments {cs : List Char} (h : cs ∈ segments) : '.' ∉ cs := by
  intro hpoint
  exact absurd (forall_of_mem_segments h '.' hpoint) (by decide)

private theorem isSegmentStart_iff {c : Char} :
    IsSegmentStart c ↔ c.isAlpha = true ∨ c = '_' := by
  rw [IsSegmentStart, isAlpha_iff, or_assoc]

private theorem isSegmentPart_iff {c : Char} :
    IsSegmentPart c ↔ (c.isAlpha = true ∨ c.isDigit = true) ∨ c = '_' := by
  rw [IsSegmentPart, isSegmentStart_iff, isDigit_iff, or_right_comm]

/-- The test of a segment accepts the segments. -/
theorem isSegment_iff {cs : List Char} : isSegment Char.isAlpha cs = true ↔ cs ∈ segments := by
  rw [mem_segments_iff]
  cases cs with
  | nil => simp [isSegment]
  | cons first rest => simp [isSegment, isSegmentStart_iff, isSegmentPart_iff]

/-! ### References -/

/-- A reference is one segment or two with a point between them. -/
theorem mem_references_iff {cs : List Char} :
    cs ∈ references ↔
      cs ∈ segments ∨ ∃ table ∈ segments, ∃ column ∈ segments, cs = table ++ '.' :: column := by
  rw [references, Language.mem_add]
  apply or_congr_right
  constructor
  · rintro ⟨_, ⟨table, htable, _, rfl, rfl⟩, column, hcolumn, rfl⟩
    exact ⟨table, htable, column, hcolumn, by simp⟩
  · rintro ⟨table, htable, column, hcolumn, rfl⟩
    have hfront : table ++ ['.'] ∈ segments * {['.']} := Language.append_mem_mul htable rfl
    have hwhole := Language.append_mem_mul hfront hcolumn
    rwa [List.append_assoc] at hwhole

/-- The test of a reference accepts the references. -/
theorem isReference_iff {cs : List Char} :
    isReference Char.isAlpha cs = true ↔ cs ∈ references := by
  rw [mem_references_iff, isReference]
  constructor
  · intro h
    split at h
    · exact .inl (isSegment_iff.1 h)
    · next table column hsplit =>
      rw [Bool.and_eq_true, isSegment_iff, isSegment_iff] at h
      exact .inr ⟨table, h.1, column, h.2, (eq_append_of_splitFirst hsplit).1⟩
  · rintro (h | ⟨table, htable, column, hcolumn, rfl⟩)
    · rw [splitFirst_of_not_mem (point_not_mem_of_mem_segments h)]
      exact isSegment_iff.2 h
    · rw [splitFirst_append (point_not_mem_of_mem_segments htable)]
      exact Bool.and_eq_true_iff.2 ⟨isSegment_iff.2 htable, isSegment_iff.2 hcolumn⟩

/-- The pieces of a reference around its point are segments. -/
theorem forall_mem_splitAll {cs : List Char} (h : cs ∈ references) :
    ∀ piece ∈ splitAll '.' cs, piece ∈ segments := by
  rcases mem_references_iff.1 h with hsegment | ⟨table, htable, column, hcolumn, rfl⟩
  · rw [splitAll_of_not_mem (point_not_mem_of_mem_segments hsegment)]
    simpa using hsegment
  · rw [splitAll_append, splitAll_of_not_mem (point_not_mem_of_mem_segments htable),
      splitAll_of_not_mem (point_not_mem_of_mem_segments hcolumn)]
    simpa using ⟨htable, hcolumn⟩

/-- A reference holds letters, digits, underscores and points alone. -/
theorem forall_of_mem_references {cs : List Char} (h : cs ∈ references) :
    ∀ c ∈ cs, IsSegmentPart c ∨ c = '.' := by
  intro c hc
  rw [isSegmentPart_iff]
  rcases (forall_of_isReference (isReference_iff.2 h)).2 c hc with hletter | hdigit | hmark | hpoint
  · exact .inl (.inl (.inl hletter))
  · exact .inl (.inl (.inr hdigit))
  · exact .inl (.inr hmark)
  · exact .inr hpoint

/-- A quoted reference is read as its segments, the pieces around its point. -/
theorem columnNames?_quoteReference {name : String} (h : name.toList ∈ references)
    {after : List Char} (hquote : after.head? ≠ some '"') (hpoint : after.head? ≠ some '.') :
    columnNames? ((quoteReference name).toList ++ after) =
      some ((splitAll '.' name.toList).map String.ofList, after) := by
  rcases mem_references_iff.1 h with hsegment | ⟨table, htable, column, hcolumn, heq⟩
  · have halone := point_not_mem_of_mem_segments hsegment
    rw [splitAll_of_not_mem halone, quoteReference_of_not_mem halone,
      columnNames?_quote name hquote hpoint, List.map_singleton, String.ofList_toList]
  · have hname : name = String.ofList table ++ "." ++ String.ofList column := by
      rw [← String.toList_inj, heq]
      simp
    have hfront : '.' ∉ (String.ofList table).toList := by
      rw [String.toList_ofList]
      exact point_not_mem_of_mem_segments htable
    have hpieces : splitAll '.' name.toList = [table, column] := splitAll_eq_pair_iff.2
      ⟨point_not_mem_of_mem_segments htable, point_not_mem_of_mem_segments hcolumn, heq⟩
    rw [hpieces, hname, quoteReference_append hfront, columnNames?_qualified _ _ hquote]
    rfl

/-- A name is taken for a plain column reference exactly when it is one segment of ASCII letters,
digits and underscores, or two with a point between them; so it holds no other character. Quoted it
is read back as its segments, whatever stands behind it. -/
theorem isColumnReference_reads_back (name : String) :
    (isColumnReference name = true ↔ name.toList ∈ references) ∧
      (isColumnReference name = true →
        (∀ c ∈ name.toList, IsSegmentPart c ∨ c = '.') ∧
        (∀ piece ∈ splitAll '.' name.toList, piece ∈ segments) ∧
        ∀ after : List Char, after.head? ≠ some '"' → after.head? ≠ some '.' →
          columnNames? ((quoteReference name).toList ++ after) =
            some ((splitAll '.' name.toList).map String.ofList, after)) := by
  refine ⟨isReference_iff, ?_⟩
  intro h
  have hname : name.toList ∈ references := isReference_iff.1 h
  refine ⟨forall_of_mem_references hname, forall_mem_splitAll hname, ?_⟩
  intro after hquote hpoint
  exact columnNames?_quoteReference hname hquote hpoint

/-- A column of a table is read back as the two, in front of the rest of a comparison. -/
theorem isColumnReference_reads_back_title :
    isColumnReference "products.title_th" = true ∧
      " = ?".toList.head? ≠ some '"' ∧ " = ?".toList.head? ≠ some '.' ∧
      columnNames? ((quoteReference "products.title_th").toList ++ " = ?".toList) =
        some (["products", "title_th"], " = ?".toList) := by
  have hreference : isColumnReference "products.title_th" = true := by decide
  have hquote : " = ?".toList.head? ≠ some '"' := by decide
  have hpoint : " = ?".toList.head? ≠ some '.' := by decide
  obtain ⟨-, -, hread⟩ := (isColumnReference_reads_back "products.title_th").2 hreference
  exact ⟨hreference, hquote, hpoint, (hread " = ?".toList hquote hpoint).trans (by decide)⟩

/-- A line end, a letter outside ASCII and an empty segment are each refused. -/
example :
    isColumnReference "title\n" = false ∧ isColumnReference "prénom" = false ∧
      isColumnReference "products." = false := by decide

end Identifier

end RecordStore
