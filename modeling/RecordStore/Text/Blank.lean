/-!
# Blank characters

The characters that Unicode gives the property White_Space, and trimming by them. Trimming
removes blanks from both ends and nothing from between.
-/

namespace RecordStore

/-- The first and last code point of each run of characters with the property White_Space. -/
def blankRanges : List (Nat × Nat) :=
  [(0x09, 0x0D), (0x20, 0x20), (0x85, 0x85), (0xA0, 0xA0), (0x1680, 0x1680), (0x2000, 0x200A),
    (0x2028, 0x2029), (0x202F, 0x202F), (0x205F, 0x205F), (0x3000, 0x3000)]

/-- Whether a character has the property White_Space. -/
def isBlankChar (c : Char) : Bool :=
  blankRanges.any fun range ↦ range.1 ≤ c.toNat && c.toNat ≤ range.2

/-- A text without the blanks at its start and at its end. -/
def trimChars (cs : List Char) : List Char :=
  ((cs.dropWhile isBlankChar).reverse.dropWhile isBlankChar).reverse

/-- A text without the blanks at its start and at its end. -/
def trim (text : String) : String := String.ofList (trimChars text.toList)

/-- Whether a text has no character but blanks. -/
def isBlankText (text : String) : Bool := text.toList.all isBlankChar

/-- No letter and no digit of ASCII is blank. -/
theorem not_isBlankChar_of_isAlphanum {c : Char} (h : c.isAlphanum = true) :
    isBlankChar c = false := by
  have hcode : 48 ≤ c.toNat ∧ c.toNat ≤ 122 := by
    change (decide (65 ≤ c.val ∧ c.val ≤ 90) || (97 ≤ c.val && c.val ≤ 122) ||
      (48 ≤ c.val && c.val ≤ 57)) = true at h
    simp only [Bool.or_eq_true, Bool.and_eq_true, decide_eq_true_eq, UInt32.le_iff_toNat_le] at h
    change (65 ≤ c.toNat ∧ c.toNat ≤ 90 ∨ 97 ≤ c.toNat ∧ c.toNat ≤ 122) ∨
      48 ≤ c.toNat ∧ c.toNat ≤ 57 at h
    omega
  simp only [isBlankChar, blankRanges, List.any_cons, List.any_nil, Bool.or_eq_false_iff,
    Bool.and_eq_false_iff, decide_eq_false_iff_not, and_true]
  omega

/-- Trimming a text is trimming its list of characters. -/
@[simp] theorem toList_trim (text : String) : (trim text).toList = trimChars text.toList := by
  simp [trim]

-- What is left after dropping blanks is empty only when there was nothing else.
private theorem dropWhile_isBlankChar_eq_nil_iff (cs : List Char) :
    cs.dropWhile isBlankChar = [] ↔ cs.all isBlankChar = true := by
  induction cs with
  | nil => simp
  | cons c rest ih => by_cases h : isBlankChar c = true <;> simp [h, ih]

/-- Nothing is dropped from a text that does not start with a blank. -/
theorem dropWhile_isBlankChar_eq_self {cs : List Char}
    (h : ∀ c ∈ cs.head?, isBlankChar c = false) : cs.dropWhile isBlankChar = cs := by
  cases cs with
  | nil => rfl
  | cons c rest => rw [List.dropWhile_cons, h c rfl, if_neg Bool.false_ne_true]

/-- A text that neither starts nor ends with a blank is left as it is. -/
theorem trimChars_eq_self {cs : List Char} (hfirst : ∀ c ∈ cs.head?, isBlankChar c = false)
    (hlast : ∀ c ∈ cs.getLast?, isBlankChar c = false) : trimChars cs = cs := by
  rw [← List.head?_reverse] at hlast
  rw [trimChars, dropWhile_isBlankChar_eq_self hfirst, dropWhile_isBlankChar_eq_self hlast,
    List.reverse_reverse]

/-- Blanks around a text are trimmed with those that it has itself. -/
theorem trimChars_append {front cs back : List Char} (hfront : front.all isBlankChar = true)
    (hback : back.all isBlankChar = true) : trimChars (front ++ cs ++ back) = trimChars cs := by
  have hnil := (dropWhile_isBlankChar_eq_nil_iff back).2 hback
  rw [← List.all_reverse] at hback
  rw [List.all_eq_true] at hfront hback
  rw [trimChars, List.append_assoc, List.dropWhile_append_of_pos hfront, List.dropWhile_append]
  split
  · next h =>
    rw [List.isEmpty_iff] at h
    rw [trimChars, h, hnil]
  · rw [List.reverse_append, List.dropWhile_append_of_pos hback, trimChars]

/-- A text is left as it is when it starts and ends with parts that hold characters and no blank. -/
theorem trimChars_between {first last : List Char} (between : List Char)
    (hfirst : first ≠ [] ∧ ∀ c ∈ first, isBlankChar c = false)
    (hlast : last ≠ [] ∧ ∀ c ∈ last, isBlankChar c = false) :
    trimChars (first ++ between ++ last) = first ++ between ++ last := by
  apply trimChars_eq_self
  · intro c hc
    rw [List.append_assoc, List.head?_append, List.head?_eq_some_head hfirst.1,
      Option.some_or] at hc
    cases hc
    exact hfirst.2 _ (List.head_mem hfirst.1)
  · intro c hc
    rw [List.getLast?_append, List.getLast?_eq_some_getLast hlast.1, Option.some_or] at hc
    cases hc
    exact hlast.2 _ (List.getLast_mem hlast.1)

end RecordStore
