import RecordStore.Text.Split

/-!
# Names in SQL

A quoted identifier stands between double quotes, a double quote inside it being written twice. A
plain column reference is `column` or `table.column` in letters, digits and underscores; it alone
may stand in SQL text unquoted.
-/

namespace RecordStore

namespace Identifier

/-- One character of a name as it stands between the quotes. -/
def quotedChar (c : Char) : List Char := if c = '"' then ['"', '"'] else [c]

/-- The characters of a name as a quoted identifier. -/
def quoteChars (name : List Char) : List Char := '"' :: (name.flatMap quotedChar ++ ['"'])

/-- A name as a quoted identifier. -/
def quote (name : String) : String := String.ofList (quoteChars name.toList)

/-- A column of a table, both quoted. -/
def qualified (table column : String) : String := quote table ++ "." ++ quote column

/-- A column given as `column` or `table.column`, quoted. What stands before the first point is the
table, and a later point belongs to the column. -/
def quoteReference (name : String) : String :=
  match splitFirst '.' name.toList with
  | some (table, column) => qualified (String.ofList table) (String.ofList column)
  | none => quote name

/-- Whether a text is a letter or an underscore with letters, digits and underscores after it. -/
def isSegment (letter : Char → Bool) : List Char → Bool
  | [] => false
  | first :: rest =>
    (letter first || first = '_') && rest.all fun c ↦ letter c || c.isDigit || c = '_'

/-- Whether a text is one segment, or two with a point between them. -/
def isReference (letter : Char → Bool) (cs : List Char) : Bool :=
  match splitFirst '.' cs with
  | none => isSegment letter cs
  | some (table, column) => isSegment letter table && isSegment letter column

/-- Whether a name is a plain column reference. Its letters are those of ASCII alone. -/
def isColumnReference (name : String) : Bool := isReference Char.isAlpha name.toList

/-- A plain column reference quoted, any other column expression as it stands. -/
def quoteExpression (expression : String) : String :=
  if isColumnReference expression then quoteReference expression else expression

/-- Quoting a name is quoting its list of characters. -/
@[simp] theorem toList_quote (name : String) : (quote name).toList = quoteChars name.toList := by
  simp [quote]

/-- A name without a point is quoted as one name. -/
theorem quoteReference_of_not_mem {name : String} (h : '.' ∉ name.toList) :
    quoteReference name = quote name := by
  rw [quoteReference, splitFirst_of_not_mem h]

/-- A name is quoted as a table and a column, by its first point. -/
theorem quoteReference_append {table : String} (h : '.' ∉ table.toList) (column : String) :
    quoteReference (table ++ "." ++ column) = Identifier.qualified table column := by
  have hlist : (table ++ "." ++ column).toList = table.toList ++ '.' :: column.toList := by simp
  rw [quoteReference, hlist, splitFirst_append h]
  simp

private theorem forall_of_isSegment {letter : Char → Bool} {cs : List Char}
    (h : isSegment letter cs = true) :
    cs ≠ [] ∧ ∀ c ∈ cs, letter c = true ∨ c.isDigit = true ∨ c = '_' := by
  cases cs with
  | nil => simp [isSegment] at h
  | cons first rest =>
    simp only [isSegment, Bool.and_eq_true, Bool.or_eq_true, decide_eq_true_eq,
      List.all_eq_true] at h
    refine ⟨by simp, ?_⟩
    rw [List.forall_mem_cons]
    refine ⟨?_, ?_⟩
    · rcases h.1 with hfirst | hfirst
      · exact .inl hfirst
      · exact .inr (.inr hfirst)
    · intro c hc
      rcases h.2 c hc with (hletter | hdigit) | hunderscore
      · exact .inl hletter
      · exact .inr (.inl hdigit)
      · exact .inr (.inr hunderscore)

/-- A reference holds letters, digits, underscores and points, and some of them. -/
theorem forall_of_isReference {letter : Char → Bool} {cs : List Char}
    (h : isReference letter cs = true) :
    cs ≠ [] ∧ ∀ c ∈ cs, letter c = true ∨ c.isDigit = true ∨ c = '_' ∨ c = '.' := by
  have hsegment : ∀ {part : List Char}, isSegment letter part = true →
      ∀ c ∈ part, letter c = true ∨ c.isDigit = true ∨ c = '_' ∨ c = '.' := by
    intro part hpart c hc
    rcases (forall_of_isSegment hpart).2 c hc with hletter | hdigit | hunderscore
    · exact .inl hletter
    · exact .inr (.inl hdigit)
    · exact .inr (.inr (.inl hunderscore))
  rw [isReference] at h
  split at h
  · exact ⟨(forall_of_isSegment h).1, hsegment h⟩
  · next table name hsplit =>
    rw [Bool.and_eq_true] at h
    obtain ⟨htable, hname⟩ := h
    obtain ⟨heq, -⟩ := eq_append_of_splitFirst hsplit
    rw [heq]
    refine ⟨by simp, ?_⟩
    intro c hc
    rcases List.mem_append.1 hc with hc | hc
    · exact hsegment htable c hc
    · rcases List.mem_cons.1 hc with rfl | hc
      · exact .inr (.inr (.inr rfl))
      · exact hsegment hname c hc

/-- A plain column reference holds letters, digits, underscores and points, and some of them. -/
theorem forall_of_isColumnReference {column : String}
    (h : isColumnReference column = true) :
    column.toList ≠ [] ∧ ∀ c ∈ column.toList, c.isAlphanum = true ∨ c = '_' ∨ c = '.' := by
  obtain ⟨hne, hchars⟩ := forall_of_isReference h
  refine ⟨hne, ?_⟩
  intro c hc
  rcases hchars c hc with hletter | hdigit | hmark
  · exact .inl (by simp [Char.isAlphanum, hletter])
  · exact .inl (by simp [Char.isAlphanum, hdigit])
  · exact .inr hmark

/-- A plain column reference lacks every character that is none of these. -/
theorem not_mem_of_isColumnReference {column : String} (h : isColumnReference column = true)
    {c : Char} (hc : (c.isAlphanum || c = '_' || c = '.') = false) : c ∉ column.toList := by
  intro hmem
  have hchar := (forall_of_isColumnReference h).2 c hmem
  simp_all

private theorem isSegment_congr {letter letter' : Char → Bool} {cs : List Char}
    (h : ∀ c ∈ cs, letter c = letter' c) : isSegment letter cs = isSegment letter' cs := by
  cases cs with
  | nil => rfl
  | cons first rest =>
    rw [List.forall_mem_cons] at h
    have hrest : (rest.all fun c ↦ letter c || c.isDigit || c = '_') =
        rest.all fun c ↦ letter' c || c.isDigit || c = '_' := by
      rw [Bool.eq_iff_iff, List.all_eq_true, List.all_eq_true]
      constructor
      · intro hall c hc
        rw [← h.2 c hc]
        exact hall c hc
      · intro hall c hc
        rw [h.2 c hc]
        exact hall c hc
    rw [isSegment, isSegment, h.1, hrest]

/-- What counts as a letter matters for the characters of a text alone. -/
theorem isReference_congr {letter letter' : Char → Bool} {cs : List Char}
    (h : ∀ c ∈ cs, letter c = letter' c) : isReference letter cs = isReference letter' cs := by
  rw [isReference, isReference]
  split
  · exact isSegment_congr h
  · next table column hsplit =>
    obtain ⟨rfl, -⟩ := eq_append_of_splitFirst hsplit
    rw [List.forall_mem_append, List.forall_mem_cons] at h
    rw [isSegment_congr h.1, isSegment_congr h.2.2]

end Identifier

end RecordStore
