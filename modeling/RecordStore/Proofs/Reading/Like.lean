import Mathlib.Data.List.Infix

/-!
# Texts that match a pattern

In a pattern of LIKE a percent sign stands for any text, an underscore for any character, and a
backslash makes the character behind it stand for itself, as every other character does. So a part
between two percent signs is matched by the texts that hold it, if no character of the part has a
meaning in a pattern. If one has, there is a text that matches and does not hold the part.
-/

namespace RecordStore.Reading

/-- Whether a text matches a pattern of LIKE. PostgreSQL refuses a pattern with a backslash at its
end; nothing matches it here. -/
def likeMatches : List Char → List Char → Bool
  | [], text => text.isEmpty
  | '%' :: pattern, text => text.tails.any (likeMatches pattern)
  | '_' :: pattern, _ :: text => likeMatches pattern text
  | '\\' :: c :: pattern, d :: text => c == d && likeMatches pattern text
  | '\\' :: _, _ => false
  | c :: pattern, d :: text => c == d && likeMatches pattern text
  | _ :: _, [] => false

/-- A character that has a meaning in a pattern. -/
def IsPatternMark (c : Char) : Prop := c = '%' ∨ c = '_' ∨ c = '\\'

instance : DecidablePred IsPatternMark :=
  fun c ↦ inferInstanceAs (Decidable (c = '%' ∨ c = '_' ∨ c = '\\'))

variable {pattern part text : List Char}

/-! ### What the characters of a pattern stand for -/

/-- A percent sign stands for any text: the rest of the pattern is matched by an end of the text. -/
theorem likeMatches_percent :
    likeMatches ('%' :: pattern) text = true ↔
      ∃ rest, rest <:+ text ∧ likeMatches pattern rest = true := by
  rw [likeMatches, List.any_eq_true]
  simp only [List.mem_tails]

/-- A character without a meaning stands for itself. -/
theorem likeMatches_cons {c : Char} (h : ¬ IsPatternMark c) :
    likeMatches (c :: pattern) text = true ↔
      ∃ rest, text = c :: rest ∧ likeMatches pattern rest = true := by
  rw [IsPatternMark, not_or, not_or] at h
  cases text with
  | nil => simp [likeMatches, h]
  | cons d rest =>
    have hhead : likeMatches (c :: pattern) (d :: rest) = (c == d && likeMatches pattern rest) := by
      simp [likeMatches, h]
    rw [hhead, Bool.and_eq_true, beq_iff_eq]
    simp only [List.cons.injEq]
    constructor
    · rintro ⟨rfl, hrest⟩
      exact ⟨rest, ⟨rfl, rfl⟩, hrest⟩
    · rintro ⟨_, ⟨rfl, rfl⟩, hrest⟩
      exact ⟨rfl, hrest⟩

/-- The texts that match a part and then a percent sign are those that begin with the part, if no
character of it has a meaning. -/
theorem likeMatches_append_percent (h : ∀ c ∈ part, ¬ IsPatternMark c) :
    likeMatches (part ++ ['%']) text = true ↔ part <+: text := by
  induction part generalizing text with
  | nil =>
    rw [List.nil_append, likeMatches_percent]
    exact iff_of_true ⟨[], List.nil_suffix, rfl⟩ List.nil_prefix
  | cons c part ih =>
    obtain ⟨hc, hpart⟩ := List.forall_mem_cons.1 h
    rw [List.cons_append, likeMatches_cons hc, List.cons_prefix_iff]
    simp only [ih hpart]

/-- The texts that match a part between percent signs are those that hold the part, if no character
of it has a meaning. -/
theorem likeMatches_between_of_plain (h : ∀ c ∈ part, ¬ IsPatternMark c) :
    likeMatches ('%' :: (part ++ ['%'])) text = true ↔ part <:+: text := by
  rw [likeMatches_percent, List.infix_iff_prefix_suffix]
  simp only [likeMatches_append_percent h, and_comm]

/-! ### A text that matches and does not hold the part -/

/-- A text that matches a part between percent signs: nothing for a percent sign, a letter for an
underscore, the character behind a backslash for both. A backslash at the end of the part is in
front of the closing percent sign. -/
def impostor : List Char → List Char
  | [] => []
  | '%' :: part => impostor part
  | '_' :: part => 'x' :: impostor part
  | ['\\'] => ['%']
  | '\\' :: c :: part => c :: impostor part
  | c :: part => c :: impostor part

-- The last case of `impostor` is that of a character without a meaning.
private theorem not_isPatternMark {c : Char} (hpercent : c = '%' → False)
    (hunderscore : c = '_' → False) (hend : c = '\\' → part = [] → False)
    (hescape : ∀ d rest, c = '\\' → part = d :: rest → False) : ¬ IsPatternMark c := by
  rintro (rfl | rfl | rfl)
  · exact hpercent rfl
  · exact hunderscore rfl
  · cases part with
    | nil => exact hend rfl rfl
    | cons d rest => exact hescape d rest rfl rfl

private theorem impostor_cons {c : Char} (h : ¬ IsPatternMark c) :
    impostor (c :: part) = c :: impostor part := by
  rw [IsPatternMark, not_or, not_or] at h
  simp [impostor, h]

private theorem likeMatches_impostor (part : List Char) :
    likeMatches (part ++ ['%']) (impostor part) = true := by
  induction part using impostor.induct with
  | case1 => rfl
  | case2 part ih =>
    rw [impostor, List.cons_append, likeMatches_percent]
    exact ⟨impostor part, List.suffix_rfl, ih⟩
  | case3 part ih => simpa [impostor, likeMatches] using ih
  | case4 => rfl
  | case5 c part ih => simpa [impostor, likeMatches] using ih
  | case6 c part hpercent hunderscore hend hescape ih =>
    have hplain := not_isPatternMark hpercent hunderscore hend hescape
    rw [impostor_cons hplain, List.cons_append, likeMatches_cons hplain]
    exact ⟨impostor part, rfl, ih⟩

private theorem length_impostor_le (part : List Char) :
    (impostor part).length ≤ part.length := by
  induction part using impostor.induct with
  | case1 => exact le_rfl
  | case2 part ih => simpa [impostor] using Nat.le_succ_of_le ih
  | case3 part ih => simpa [impostor] using ih
  | case4 => exact le_rfl
  | case5 c part ih => simpa [impostor] using Nat.le_succ_of_le ih
  | case6 c part hpercent hunderscore hend hescape ih =>
    rw [impostor_cons (not_isPatternMark hpercent hunderscore hend hescape)]
    simpa using ih

-- A text that takes the place of a mark is shorter, or it differs in its first character.
private theorem forall_not_isPatternMark_of_impostor_eq (h : impostor part = part) :
    ∀ c ∈ part, ¬ IsPatternMark c := by
  induction part using impostor.induct with
  | case1 => exact List.forall_mem_nil _
  | case2 part _ =>
    have hshort := length_impostor_le part
    rw [impostor] at h
    rw [h, List.length_cons] at hshort
    omega
  | case3 part _ => simp [impostor] at h
  | case4 => simp [impostor] at h
  | case5 c part _ =>
    have hshort := length_impostor_le part
    have hlength := congrArg List.length h
    simp only [impostor, List.length_cons] at hlength
    omega
  | case6 c part hpercent hunderscore hend hescape ih =>
    have hplain := not_isPatternMark hpercent hunderscore hend hescape
    rw [impostor_cons hplain, List.cons.injEq] at h
    exact List.forall_mem_cons.2 ⟨hplain, ih h.2⟩

/-- A part with a character that has a meaning is not held by some text that matches it between
percent signs. -/
theorem likeMatches_impostor_of_mark (h : ∃ c ∈ part, IsPatternMark c) :
    likeMatches ('%' :: (part ++ ['%'])) (impostor part) = true ∧ ¬ part <:+: impostor part := by
  constructor
  · rw [likeMatches_percent]
    exact ⟨impostor part, List.suffix_rfl, likeMatches_impostor part⟩
  · intro hinfix
    have hequal := hinfix.eq_of_length_le (length_impostor_le part)
    obtain ⟨c, hc, hmark⟩ := h
    exact forall_not_isPatternMark_of_impostor_eq hequal.symm c hc hmark

/-- Matching a part between percent signs is holding the part exactly when no character of the part
has a meaning in a pattern. -/
theorem likeMatches_between_iff :
    (∀ text, likeMatches ('%' :: (part ++ ['%'])) text = true ↔ part <:+: text) ↔
      ∀ c ∈ part, ¬ IsPatternMark c := by
  constructor
  · intro h c hc hmark
    obtain ⟨hmatches, hnot⟩ := likeMatches_impostor_of_mark ⟨c, hc, hmark⟩
    exact hnot ((h _).1 hmatches)
  · intro h text
    exact likeMatches_between_of_plain h

end RecordStore.Reading
