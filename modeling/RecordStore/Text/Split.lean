/-!
# Taking texts apart at a separator

Splitting at every occurrence of a character, at its first and at its last, whether one text occurs
in another, and the length of a text in UTF-8.
-/

namespace RecordStore

/-- The pieces between the occurrences of a separator, the empty ones included. -/
def splitAll (separator : Char) : List Char → List (List Char)
  | [] => [[]]
  | c :: rest =>
    if c = separator then [] :: splitAll separator rest
    else
      match splitAll separator rest with
      | [] => [[c]]
      | piece :: pieces => (c :: piece) :: pieces

/-- What stands before and after the first occurrence of a separator. -/
def splitFirst (separator : Char) : List Char → Option (List Char × List Char)
  | [] => none
  | c :: rest =>
    if c = separator then some ([], rest)
    else (splitFirst separator rest).map fun parts ↦ (c :: parts.1, parts.2)

/-- What stands after the last occurrence of a separator, or the whole text without one. -/
def afterLast (separator : Char) (cs : List Char) : List Char :=
  (cs.reverse.takeWhile (· ≠ separator)).reverse

/-- Whether a text occurs in another as a contiguous part. -/
def occursIn (part : List Char) : List Char → Bool
  | [] => part.isEmpty
  | c :: rest => part.isPrefixOf (c :: rest) || occursIn part rest

/-- The number of bytes of a text in UTF-8. -/
def byteLength : List Char → Nat
  | [] => 0
  | c :: rest => c.utf8Size + byteLength rest

/-- A split text has at least one piece. -/
theorem splitAll_ne_nil (separator : Char) (cs : List Char) : splitAll separator cs ≠ [] := by
  cases cs with
  | nil => simp [splitAll]
  | cons c rest =>
    rw [splitAll]
    split
    · simp
    · split <;> simp

/-- The parts around the first separator, with it between them, are the whole text. -/
theorem eq_append_of_splitFirst {separator : Char} {cs before after : List Char}
    (h : splitFirst separator cs = some (before, after)) :
    cs = before ++ separator :: after ∧ separator ∉ before := by
  induction cs generalizing before with
  | nil => simp [splitFirst] at h
  | cons c rest ih =>
    rw [splitFirst] at h
    split at h
    · rename_i hc
      obtain ⟨rfl, rfl⟩ : [] = before ∧ rest = after := by simpa using h
      simp [hc]
    · rename_i hc
      obtain ⟨parts, hparts, heq⟩ := Option.map_eq_some_iff.1 h
      obtain ⟨rfl, rfl⟩ : c :: parts.1 = before ∧ parts.2 = after := by simpa using heq
      obtain ⟨hrest, hnot⟩ := ih hparts
      exact ⟨by rw [hrest]; rfl, by simp [hnot, Ne.symm hc]⟩

/-- A text without the separator has no first one. -/
theorem splitFirst_of_not_mem {separator : Char} {cs : List Char} (h : separator ∉ cs) :
    splitFirst separator cs = none := by
  induction cs with
  | nil => rfl
  | cons c rest ih =>
    rw [List.mem_cons, not_or] at h
    simp [splitFirst, Ne.symm h.1, ih h.2]

/-- A text is split at a separator that none stands in front of. -/
theorem splitFirst_append {separator : Char} {before : List Char} (h : separator ∉ before)
    (after : List Char) :
    splitFirst separator (before ++ separator :: after) = some (before, after) := by
  induction before with
  | nil => simp [splitFirst]
  | cons c rest ih =>
    rw [List.mem_cons, not_or] at h
    simp [splitFirst, Ne.symm h.1, ih h.2]

/-- The parts around the first separator are told by the whole text. -/
theorem append_separator_inj {separator : Char} {before after first rest : List Char}
    (hbefore : separator ∉ before) (hfirst : separator ∉ first) :
    before ++ separator :: after = first ++ separator :: rest ↔ before = first ∧ after = rest := by
  constructor
  · intro h
    have hparts := splitFirst_append hbefore after
    rw [h, splitFirst_append hfirst] at hparts
    obtain ⟨rfl, rfl⟩ := Prod.mk.inj (Option.some.inj hparts)
    exact ⟨rfl, rfl⟩
  · rintro ⟨rfl, rfl⟩
    rfl

/-- The pieces with the separator between them are the whole text. -/
theorem intercalate_splitAll (separator : Char) (cs : List Char) :
    [separator].intercalate (splitAll separator cs) = cs := by
  induction cs with
  | nil => rfl
  | cons c rest ih =>
    rw [splitAll]
    cases h : splitAll separator rest with
    | nil => exact absurd h (splitAll_ne_nil separator rest)
    | cons piece pieces =>
      rw [h] at ih
      split
      · rename_i hc
        rw [hc, ← ih]
        simp
      · cases pieces <;> simp_all

/-- A text is split on both sides of a separator apart. -/
theorem splitAll_append (separator : Char) (before after : List Char) :
    splitAll separator (before ++ separator :: after) =
      splitAll separator before ++ splitAll separator after := by
  induction before with
  | nil => simp [splitAll]
  | cons c rest ih =>
    rw [List.cons_append, splitAll, splitAll, ih]
    split
    · rfl
    · cases h : splitAll separator rest with
      | nil => exact absurd h (splitAll_ne_nil separator rest)
      | cons piece pieces => rfl

/-- A text without the separator is its only piece. -/
theorem splitAll_of_not_mem {separator : Char} {cs : List Char} (h : separator ∉ cs) :
    splitAll separator cs = [cs] := by
  induction cs with
  | nil => rfl
  | cons c rest ih =>
    rw [List.mem_cons, not_or] at h
    rw [splitAll, if_neg (Ne.symm h.1), ih h.2]

/-- No piece holds the separator. -/
theorem not_mem_of_mem_splitAll {separator : Char} {cs piece : List Char}
    (h : piece ∈ splitAll separator cs) : separator ∉ piece := by
  induction cs generalizing piece with
  | nil => simp_all [splitAll]
  | cons c rest ih =>
    rw [splitAll] at h
    split at h
    · rcases List.mem_cons.1 h with rfl | h
      · simp
      · exact ih h
    · next hc =>
      cases hrest : splitAll separator rest with
      | nil => exact absurd hrest (splitAll_ne_nil separator rest)
      | cons first pieces =>
        rw [hrest] at h ih
        rcases List.mem_cons.1 h with rfl | h
        · simp [Ne.symm hc, ih]
        · exact ih (List.mem_cons_of_mem _ h)

/-- Pieces without the separator are got back from the text that has it between them. -/
theorem splitAll_intercalate {separator : Char} {pieces : List (List Char)} (hne : pieces ≠ [])
    (h : ∀ piece ∈ pieces, separator ∉ piece) :
    splitAll separator ([separator].intercalate pieces) = pieces := by
  induction pieces with
  | nil => exact absurd rfl hne
  | cons first rest ih =>
    rw [List.forall_mem_cons] at h
    cases rest with
    | nil => simpa using splitAll_of_not_mem h.1
    | cons second more =>
      have hrest := ih (by simp) h.2
      rw [List.intercalate_cons_cons, List.append_assoc, List.singleton_append, splitAll_append,
        splitAll_of_not_mem h.1, hrest]
      rfl

/-- The pieces of a text are the ones that lack the separator and give the text with it between
them. -/
theorem splitAll_eq_iff {separator : Char} {cs : List Char} {pieces : List (List Char)} :
    splitAll separator cs = pieces ↔
      pieces ≠ [] ∧ (∀ piece ∈ pieces, separator ∉ piece) ∧
        cs = [separator].intercalate pieces := by
  constructor
  · rintro rfl
    exact ⟨splitAll_ne_nil separator cs, fun _ ↦ not_mem_of_mem_splitAll,
      (intercalate_splitAll separator cs).symm⟩
  · rintro ⟨hne, hpieces, rfl⟩
    exact splitAll_intercalate hne hpieces

/-- A text has one piece exactly when it is that piece and lacks the separator. -/
theorem splitAll_eq_singleton_iff {separator : Char} {cs piece : List Char} :
    splitAll separator cs = [piece] ↔ separator ∉ piece ∧ cs = piece := by
  rw [splitAll_eq_iff]
  simp

/-- A text has two pieces exactly when it is the two with a separator between them, and they lack
it. -/
theorem splitAll_eq_pair_iff {separator : Char} {cs first second : List Char} :
    splitAll separator cs = [first, second] ↔
      separator ∉ first ∧ separator ∉ second ∧ cs = first ++ separator :: second := by
  rw [splitAll_eq_iff]
  simp [and_assoc]

-- The characters of a text without the separator, read backwards, pass the test of `afterLast`.
private theorem forall_mem_reverse_ne {separator : Char} {cs : List Char}
    (h : separator ∉ cs) : ∀ c ∈ cs.reverse, decide (c ≠ separator) = true := by
  intro c hc
  rw [decide_eq_true_eq]
  rintro rfl
  exact h (List.mem_reverse.1 hc)

/-- What comes after the last separator is found whatever stands before it. -/
theorem afterLast_append {separator : Char} {before after : List Char}
    (h : separator ∉ after) : afterLast separator (before ++ separator :: after) = after := by
  have hrev : (before ++ separator :: after).reverse =
      after.reverse ++ separator :: before.reverse := by simp
  rw [afterLast, hrev, List.takeWhile_append_of_pos (forall_mem_reverse_ne h),
    List.takeWhile_cons]
  simp

/-- A text without the separator is what comes after it. -/
theorem afterLast_of_not_mem {separator : Char} {cs : List Char} (h : separator ∉ cs) :
    afterLast separator cs = cs := by
  have hrev : cs.reverse = cs.reverse ++ [] := by simp
  rw [afterLast, hrev, List.takeWhile_append_of_pos (forall_mem_reverse_ne h)]
  simp

/-- What comes after the last separator holds none. -/
theorem not_mem_afterLast (separator : Char) (cs : List Char) :
    separator ∉ afterLast separator cs := by
  intro h
  have hall : (cs.reverse.takeWhile (· ≠ separator)).all (· ≠ separator) = true :=
    List.all_takeWhile
  have hne := List.all_eq_true.1 hall separator (List.mem_reverse.1 h)
  simp at hne

/-- The length in bytes adds up. -/
@[simp] theorem byteLength_append (a b : List Char) :
    byteLength (a ++ b) = byteLength a + byteLength b := by
  induction a with
  | nil => rw [List.nil_append, byteLength, Nat.zero_add]
  | cons c rest ih => rw [List.cons_append, byteLength, byteLength, ih, Nat.add_assoc]

/-- A text has no bytes exactly when it is empty. -/
theorem byteLength_eq_zero_iff {cs : List Char} : byteLength cs = 0 ↔ cs = [] := by
  cases cs with
  | nil => simp [byteLength]
  | cons c rest =>
    have hpos := Char.utf8Size_pos c
    simp only [byteLength, reduceCtorEq, iff_false]
    omega

end RecordStore
