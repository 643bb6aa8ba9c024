import RecordStore.Sql.Identifier
import RecordStore.Sql.Placeholder

/-!
# Texts that end outside quotes

What is written after a text that ends outside quotes is read as if it stood alone, so placeholders
add up over such texts. A plain text ends outside quotes and has no placeholder: so do all quoted
names, because a quote inside a name is written twice, and so do column references and integers.
-/

namespace RecordStore.Placeholder

/-- A text that ends outside quotes when it begins outside quotes. -/
def IsClosed (cs : List Char) : Prop := quoteAfterAll none cs = none

instance (cs : List Char) : Decidable (IsClosed cs) :=
  inferInstanceAs (Decidable (quoteAfterAll none cs = none))

/-- The quote after two texts is that after the second, begun with the quote after the first. -/
@[simp] theorem quoteAfterAll_append (quote : Option Char) (a b : List Char) :
    quoteAfterAll quote (a ++ b) = quoteAfterAll (quoteAfterAll quote a) b := by
  rw [quoteAfterAll, quoteAfterAll, quoteAfterAll, List.foldl_append]

/-- The placeholders of two texts are those of the first and then those of the second. -/
theorem count_append (quote : Option Char) (a b : List Char) :
    count quote (a ++ b) = count quote a + count (quoteAfterAll quote a) b := by
  induction a generalizing quote with
  | nil => simp [count, quoteAfterAll]
  | cons c rest ih =>
    rw [List.cons_append, count, count, ih, Nat.add_assoc]
    rfl

/-- Texts that end outside quotes do so one after the other. -/
theorem IsClosed.append {a b : List Char} (ha : IsClosed a) (hb : IsClosed b) :
    IsClosed (a ++ b) := by
  rw [IsClosed, quoteAfterAll_append, ha]
  exact hb

/-- Texts that end outside quotes do so one after the other. -/
theorem IsClosed.text_append {a b : String} (ha : IsClosed a.toList) (hb : IsClosed b.toList) :
    IsClosed (a ++ b).toList := by
  rw [String.toList_append]
  exact ha.append hb

/-- The placeholders of a text after one that ends outside quotes are those it has alone. -/
theorem IsClosed.count_append {a : List Char} (ha : IsClosed a) (b : List Char) :
    count none (a ++ b) = count none a + count none b := by
  rw [Placeholder.count_append, ha]

/-- A text that ends outside quotes and has no placeholder. -/
structure IsPlain (cs : List Char) : Prop where
  closed : IsClosed cs
  unmarked : count none cs = 0

instance (cs : List Char) : Decidable (IsPlain cs) :=
  decidable_of_iff (IsClosed cs ∧ count none cs = 0)
    ⟨fun h ↦ ⟨h.1, h.2⟩, fun h ↦ ⟨h.closed, h.unmarked⟩⟩

namespace IsPlain

theorem nil : IsPlain [] := ⟨rfl, rfl⟩

theorem append {a b : List Char} (ha : IsPlain a) (hb : IsPlain b) : IsPlain (a ++ b) := by
  refine ⟨ha.closed.append hb.closed, ?_⟩
  rw [ha.closed.count_append, ha.unmarked, hb.unmarked]

theorem text_append {a b : String} (ha : IsPlain a.toList) (hb : IsPlain b.toList) :
    IsPlain (a ++ b).toList := by
  rw [String.toList_append]
  exact ha.append hb

/-- An opening parenthesis is plain. -/
theorem opening : IsPlain "(".toList := by decide

/-- A closing parenthesis is plain. -/
theorem closing : IsPlain ")".toList := by decide

/-- A text without quotes and question marks is plain. -/
theorem of_forall {cs : List Char} (h : ∀ c ∈ cs, c ≠ '\'' ∧ c ≠ '"' ∧ c ≠ '?') : IsPlain cs := by
  induction cs with
  | nil => exact nil
  | cons c rest ih =>
    rw [List.forall_mem_cons] at h
    obtain ⟨⟨hsingle, hdouble, hmark⟩, hrest⟩ := h
    have hquote : quoteAfter none c = none := by simp [quoteAfter, hsingle, hdouble]
    refine ⟨?_, ?_⟩
    · change quoteAfterAll (quoteAfter none c) rest = none
      rw [hquote]
      exact (ih hrest).closed
    · rw [count, hquote, (ih hrest).unmarked]
      simp [isPlaceholder, hmark]

/-- Plain texts with a plain separator between them are plain. -/
theorem intercalate {separator : String} (hseparator : IsPlain separator.toList)
    {texts : List String} (h : ∀ text ∈ texts, IsPlain text.toList) :
    IsPlain (String.intercalate separator texts).toList := by
  induction texts with
  | nil => exact nil
  | cons first rest ih =>
    rw [List.forall_mem_cons] at h
    cases rest with
    | nil => simpa using h.1
    | cons second rest =>
      rw [String.intercalate_cons_cons]
      exact (h.1.text_append hseparator).text_append (ih h.2)

end IsPlain

/-- A number in decimal is plain. -/
theorem isPlain_decimalDigits (n : Nat) : IsPlain (decimalDigits n) := by
  apply IsPlain.of_forall
  intro c hc
  have hdigit := isDigit_decimalDigits n c hc
  refine ⟨?_, ?_, ?_⟩ <;>
  · rintro rfl
    cases hdigit

/-! ### Names -/

-- Inside the quotes of a name, a character of the name leaves them open and is no placeholder.
private theorem quotedChar_inside (c : Char) :
    quoteAfterAll (some '"') (Identifier.quotedChar c) = some '"' ∧
      count (some '"') (Identifier.quotedChar c) = 0 := by
  rw [Identifier.quotedChar]
  split
  · decide
  · next hc => simp [quoteAfterAll, quoteAfter, count, isPlaceholder, hc]

private theorem quotedChars_inside (name : List Char) :
    quoteAfterAll (some '"') (name.flatMap Identifier.quotedChar) = some '"' ∧
      count (some '"') (name.flatMap Identifier.quotedChar) = 0 := by
  induction name with
  | nil => decide
  | cons c rest ih =>
    obtain ⟨hquote, hcount⟩ := quotedChar_inside c
    rw [List.flatMap_cons, quoteAfterAll_append, count_append, hquote, hcount]
    exact ⟨ih.1, by rw [ih.2]⟩

/-- A quoted name is plain, whatever the name is. -/
theorem isPlain_quote (name : String) : IsPlain (Identifier.quote name).toList := by
  obtain ⟨hquote, hcount⟩ := quotedChars_inside name.toList
  rw [Identifier.toList_quote, Identifier.quoteChars]
  refine ⟨?_, ?_⟩
  · change quoteAfterAll (some '"') (name.toList.flatMap Identifier.quotedChar ++ ['"']) = none
    rw [quoteAfterAll_append, hquote]
    decide
  · change 0 + count (some '"') (name.toList.flatMap Identifier.quotedChar ++ ['"']) = 0
    rw [count_append, hquote, hcount]
    decide

/-- A quoted column with its quoted table is plain. -/
theorem isPlain_qualified (table column : String) :
    IsPlain (Identifier.qualified table column).toList := by
  have hpoint : IsPlain ".".toList := by decide
  exact ((isPlain_quote table).text_append hpoint).text_append (isPlain_quote column)

/-- A quoted column is plain, with or without a table. -/
theorem isPlain_quoteReference (name : String) :
    IsPlain (Identifier.quoteReference name).toList := by
  rw [Identifier.quoteReference]
  split
  · exact isPlain_qualified _ _
  · exact isPlain_quote name

end RecordStore.Placeholder
