import RecordStore.Proofs.Placeholder.OpenQuote

/-!
# A text cut where casts are written

The places of a statement need not fit its text: they can be out of order, inside a character or
behind the end. Casts are written from the first place on, as long as the text can be cut at the
places in their order, and at its end once. The parts between the cuts are numbered as they are
without casts, so nothing else of the text changes, whatever the places are.
-/

namespace RecordStore

namespace Placeholder

/-- The byte offsets at which the parts of a text meet; `offset` is the one of the first part. -/
def boundaries (offset : Nat) : List (List Char) → List Nat
  | [] => []
  | [_] => []
  | part :: next :: rest =>
    (offset + byteLength part) :: boundaries (offset + byteLength part) (next :: rest)

/-- A text cut where casts can be written: from the first place on, in the order of the places, and
at its end once at most. -/
structure IsCut (offset : Nat) (places : List Nat) (cs : List Char) (parts : List (List Char)) :
    Prop where
  flatten_eq : parts.flatten = cs
  inOrder : boundaries offset parts <+: places
  onceAtEnd : (boundaries offset parts).count (offset + byteLength cs) ≤ 1

/-- The parts of a text, each with its placeholders numbered on from the parts before it, in the
quote that these leave open. -/
def numberParts (quote : Option Char) (marks : Nat) : List (List Char) → List (List Char)
  | [] => []
  | part :: rest =>
    numberMarks quote marks part ::
      numberParts (quoteAfterAll quote part) (marks + count quote part) rest

/-- A text and the parts that its casts cut it into, step by step: a place that is reached cuts in
front of the next character, one at the end of the text cuts there, and any other waits. -/
inductive Walked : Nat → List Nat → List Char → List (List Char) → Prop where
  | done {offset : Nat} {places : List Nat} (h : places.head? ≠ some offset) :
    Walked offset places [] [[]]
  | reachedAtEnd (offset : Nat) (later : List Nat) : Walked offset (offset :: later) [] [[], []]
  | reached {offset : Nat} {places : List Nat} {c : Char} {rest part : List Char}
    {parts : List (List Char)} (h : Walked offset places (c :: rest) (part :: parts)) :
    Walked offset (offset :: places) (c :: rest) ([] :: part :: parts)
  | waits {offset : Nat} {places : List Nat} {c : Char} {rest part : List Char}
    {parts : List (List Char)} (hplace : places.head? ≠ some offset)
    (h : Walked (offset + c.utf8Size) places rest (part :: parts)) :
    Walked offset places (c :: rest) ((c :: part) :: parts)

/-! ### Boundaries -/

/-- A character belongs to the part that it stands in front of. -/
theorem boundaries_cons (offset : Nat) (c : Char) (part : List Char) (parts : List (List Char)) :
    boundaries offset ((c :: part) :: parts) =
      boundaries (offset + c.utf8Size) (part :: parts) := by
  cases parts with
  | nil => rfl
  | cons next rest =>
    have hoffset : offset + byteLength (c :: part) = offset + c.utf8Size + byteLength part := by
      rw [byteLength, Nat.add_assoc]
    rw [boundaries, boundaries, hoffset]

/-- The parts of an empty text meet at its offset alone. -/
theorem eq_of_mem_boundaries {parts : List (List Char)} (h : parts.flatten = []) (offset : Nat) :
    ∀ p ∈ boundaries offset parts, p = offset := by
  induction parts with
  | nil => simp [boundaries]
  | cons part rest ih =>
    rw [List.flatten_cons, List.append_eq_nil_iff] at h
    obtain ⟨rfl, hrest⟩ := h
    cases rest with
    | nil => simp [boundaries]
    | cons next more =>
      have hoffset : offset + byteLength [] = offset := by simp [byteLength]
      rw [boundaries, hoffset, List.forall_mem_cons]
      exact ⟨rfl, ih hrest⟩

/-! ### Numbered parts -/

/-- The parts come to the text numbered as a whole. -/
theorem flatten_numberParts (quote : Option Char) (marks : Nat) (parts : List (List Char)) :
    (numberParts quote marks parts).flatten = numberMarks quote marks parts.flatten := by
  induction parts generalizing quote marks with
  | nil => rfl
  | cons part rest ih =>
    rw [numberParts, List.flatten_cons, List.flatten_cons, numberMarks_append, ih]

/-- The first parts are numbered without regard to those behind them. -/
theorem take_numberParts (n : Nat) (quote : Option Char) (marks : Nat)
    (parts : List (List Char)) :
    (numberParts quote marks parts).take n = numberParts quote marks (parts.take n) := by
  induction parts generalizing n quote marks with
  | nil => simp [numberParts]
  | cons part rest ih =>
    cases n with
    | zero => rfl
    | succ n => rw [numberParts, List.take_succ_cons, List.take_succ_cons, numberParts, ih]

/-- A number leaves no quote open and closes none: it stands outside quotes. -/
theorem quoteAfterAll_numberMarks (quote : Option Char) (marks : Nat) (cs : List Char) :
    quoteAfterAll quote (numberMarks quote marks cs) = quoteAfterAll quote cs := by
  induction cs generalizing quote marks with
  | nil => rfl
  | cons c rest ih =>
    rw [numberMarks]
    by_cases hmark : isPlaceholder quote c = true
    · rw [if_pos hmark]
      obtain ⟨hquote, rfl⟩ : quote = none ∧ c = '?' := by simpa [isPlaceholder] using hmark
      subst hquote
      have hdigits := (isPlain_decimalDigits (marks + 1)).closed
      change quoteAfterAll none (decimalDigits (marks + 1) ++ _) = quoteAfterAll none rest
      rw [quoteAfterAll_append, hdigits]
      exact ih none (marks + 1)
    · rw [if_neg hmark]
      exact ih (quoteAfter quote c) marks

/-- Casts between the parts leave the quote open that the text leaves open. -/
theorem quoteAfterAll_intercalate_numberParts {quote : Option Char} (h : IsQuote quote)
    (marks : Nat) (parts : List (List Char)) :
    quoteAfterAll quote (castText.intercalate (numberParts quote marks parts)) =
      quoteAfterAll quote parts.flatten := by
  have hcast : IsInert castText := by decide
  induction parts generalizing quote marks with
  | nil => rfl
  | cons part rest ih =>
    have hpart := isQuote_quoteAfterAll h part
    rw [List.flatten_cons, quoteAfterAll_append]
    cases rest with
    | nil =>
      rw [numberParts, numberParts, List.intercalate_singleton]
      exact quoteAfterAll_numberMarks quote marks part
    | cons next more =>
      have hrest := ih hpart (marks + count quote part)
      rw [numberParts] at hrest
      rw [numberParts, numberParts, List.intercalate_cons_cons, quoteAfterAll_append,
        quoteAfterAll_append, quoteAfterAll_numberMarks, hcast.quoteAfterAll_eq hpart, hrest]

/-! ### The walk -/

/-- Every text is cut, whatever the places are. -/
theorem exists_walked (offset : Nat) (places : List Nat) (cs : List Char) :
    ∃ part parts, Walked offset places cs (part :: parts) := by
  induction cs generalizing offset places with
  | nil =>
    by_cases h : places.head? = some offset
    · obtain ⟨later, rfl⟩ := List.head?_eq_some_iff.1 h
      exact ⟨_, _, .reachedAtEnd offset later⟩
    · exact ⟨_, _, .done h⟩
  | cons c rest ih =>
    -- The places that are reached here are taken one by one.
    induction places with
    | nil =>
      obtain ⟨part, parts, h⟩ := ih (offset + c.utf8Size) []
      exact ⟨_, _, .waits (by simp) h⟩
    | cons place later ihplaces =>
      by_cases hplace : place = offset
      · subst hplace
        obtain ⟨part, parts, h⟩ := ihplaces
        exact ⟨_, _, .reached h⟩
      · obtain ⟨part, parts, h⟩ := ih (offset + c.utf8Size) (place :: later)
        exact ⟨_, _, .waits (by simpa using hplace) h⟩

namespace Walked

variable {offset : Nat} {places : List Nat} {cs : List Char} {parts : List (List Char)}

-- A character has bytes, so the end of a text is behind the places that are reached in front of it.
private theorem end_ne (offset : Nat) (c : Char) (rest : List Char) :
    offset ≠ offset + byteLength (c :: rest) := by
  have hpos := Char.utf8Size_pos c
  rw [byteLength]
  omega

private theorem boundaries_nil_cons (offset : Nat) (part : List Char) (parts : List (List Char)) :
    boundaries offset ([] :: part :: parts) = offset :: boundaries offset (part :: parts) := rfl

/-- The walk cuts the text where casts can be written. -/
theorem isCut (h : Walked offset places cs parts) : IsCut offset places cs parts := by
  induction h with
  | done hplace => exact ⟨rfl, List.nil_prefix, by simp [boundaries]⟩
  | reachedAtEnd offset later =>
    refine ⟨rfl, ?_, ?_⟩
    · rw [boundaries_nil_cons, List.prefix_cons_inj]
      exact List.nil_prefix
    · simp [boundaries, byteLength]
  | @reached offset places c rest part parts h ih =>
    refine ⟨ih.flatten_eq, ?_, ?_⟩
    · rw [boundaries_nil_cons, List.prefix_cons_inj]
      exact ih.inOrder
    · rw [boundaries_nil_cons, List.count_cons_of_ne (end_ne offset c rest)]
      exact ih.onceAtEnd
  | @waits offset places c rest part parts hplace h ih =>
    refine ⟨?_, ?_, ?_⟩
    · rw [← ih.flatten_eq]
      rfl
    · rw [boundaries_cons]
      exact ih.inOrder
    · rw [boundaries_cons, byteLength, ← Nat.add_assoc]
      exact ih.onceAtEnd

-- What is cut further on, with the first place as its first cut.
private theorem isCut_of_reached {c : Char} {rest : List Char} {part next : List Char}
    {more : List (List Char)}
    (h : IsCut offset (offset :: places) (c :: rest) (part :: next :: more)) :
    part = [] ∧ IsCut offset places (c :: rest) (next :: more) := by
  obtain ⟨hplace, hlater⟩ := List.cons_prefix_cons.1 h.inOrder
  have hpart : part = [] := byteLength_eq_zero_iff.1 (by omega)
  subst hpart
  refine ⟨rfl, h.flatten_eq, hlater, ?_⟩
  have hcount := h.onceAtEnd
  rwa [boundaries_nil_cons, List.count_cons_of_ne (end_ne offset c rest)] at hcount

-- Where the first place waits, the first character belongs to the first part.
private theorem isCut_of_waits {c : Char} {rest : List Char} {part next : List Char}
    {more : List (List Char)} (hplace : places.head? ≠ some offset)
    (h : IsCut offset places (c :: rest) (part :: next :: more)) :
    ∃ behind, part = c :: behind ∧
      IsCut (offset + c.utf8Size) places rest (behind :: next :: more) := by
  cases part with
  | nil =>
    obtain ⟨later, rfl⟩ := h.inOrder
    exact absurd rfl hplace
  | cons d behind =>
    obtain ⟨rfl, hrest⟩ := List.cons.inj h.flatten_eq
    have horder := h.inOrder
    have hcount := h.onceAtEnd
    rw [boundaries_cons] at horder hcount
    rw [byteLength, ← Nat.add_assoc] at hcount
    exact ⟨behind, rfl, hrest, horder, hcount⟩

/-- No other cut has more places. -/
theorem longest (h : Walked offset places cs parts) {other : List (List Char)}
    (hother : IsCut offset places cs other) :
    (boundaries offset other).length ≤ (boundaries offset parts).length := by
  induction h generalizing other with
  | @done offset places hplace =>
    have hmem := eq_of_mem_boundaries hother.flatten_eq offset
    cases hcuts : boundaries offset other with
    | nil => exact Nat.zero_le _
    | cons p later =>
      rw [hcuts] at hmem
      obtain ⟨rest, hplaces⟩ := hother.inOrder
      rw [hcuts, hmem p (by simp)] at hplaces
      rw [← hplaces] at hplace
      exact absurd rfl hplace
  | reachedAtEnd offset later =>
    have hmem := eq_of_mem_boundaries hother.flatten_eq offset
    have hcount := hother.onceAtEnd
    rw [byteLength, Nat.add_zero, List.count_eq_length.2 fun p hp ↦ (hmem p hp).symm] at hcount
    exact hcount
  | reached h ih =>
    -- One part alone has no boundary.
    rcases other with _ | ⟨part, _ | ⟨next, more⟩⟩
    · exact Nat.zero_le _
    · exact Nat.zero_le _
    · obtain ⟨rfl, hmore⟩ := isCut_of_reached hother
      exact Nat.succ_le_succ (ih hmore)
  | waits hplace h ih =>
    rcases other with _ | ⟨part, _ | ⟨next, more⟩⟩
    · exact Nat.zero_le _
    · exact Nat.zero_le _
    · obtain ⟨behind, rfl, hbehind⟩ := isCut_of_waits hplace hother
      rw [boundaries_cons, boundaries_cons]
      exact ih hbehind

/-! ### The text of the parts -/

-- A place that is reached writes a cast and nothing else.
private theorem number_reached (quote : Option Char) (offset marks : Nat) (places : List Nat)
    (c : Char) (rest : List Char) :
    number quote offset marks (offset :: places) (c :: rest) =
      castText ++ number quote offset marks places (c :: rest) := by
  simp [number]

-- Where the next place waits, the next character is written as without casts.
private theorem number_waits {places : List Nat} (h : places.head? ≠ some offset)
    (quote : Option Char) (marks : Nat) (c : Char) (rest : List Char) :
    number quote offset marks places (c :: rest) =
      numberMarks quote marks [c] ++
        number (quoteAfter quote c) (offset + c.utf8Size)
          (marks + count quote [c]) places rest := by
  have hreached : places.takeWhile (· = offset) = [] ∧ places.dropWhile (· = offset) = places := by
    cases places with
    | nil => exact ⟨rfl, rfl⟩
    | cons place later =>
      have hplace : place ≠ offset := by simpa using h
      simp [hplace]
  rw [number, hreached.1, hreached.2]
  cases hmark : isPlaceholder quote c <;> simp [numberMarks, count, hmark]

-- The first character of a part is numbered in front of the rest of it.
private theorem intercalate_numberParts_cons (quote : Option Char) (marks : Nat) (c : Char)
    (part : List Char) (parts : List (List Char)) :
    castText.intercalate (numberParts quote marks ((c :: part) :: parts)) =
      numberMarks quote marks [c] ++
        castText.intercalate
          (numberParts (quoteAfter quote c) (marks + count quote [c]) (part :: parts)) := by
  have hnumber := numberMarks_append quote marks [c] part
  have hcount := count_append quote [c] part
  have hquote : quoteAfterAll quote [c] = quoteAfter quote c := rfl
  have hrest : quoteAfterAll quote (c :: part) = quoteAfterAll (quoteAfter quote c) part := rfl
  rw [List.singleton_append, hquote] at hnumber hcount
  rw [numberParts, numberParts, hnumber, hcount, hrest, ← Nat.add_assoc]
  generalize numberParts _ _ parts = later
  cases later with
  | nil => simp
  | cons next more => simp

/-- Casts are written between the parts, and the parts as without casts. -/
theorem number_eq (h : Walked offset places cs parts) (quote : Option Char) (marks : Nat) :
    number quote offset marks places cs = castText.intercalate (numberParts quote marks parts) := by
  induction h generalizing quote marks with
  | done hplace => simp [number, numberParts, numberMarks, hplace]
  | reachedAtEnd offset later => simp [number, numberParts, numberMarks]
  | reached h ih =>
    rw [number_reached, ih]
    simp [numberParts, numberMarks, quoteAfterAll, count]
  | waits hplace h ih => rw [number_waits hplace, ih, intercalate_numberParts_cons]

end Walked

end Placeholder

namespace Statement

open Placeholder

/-- Whatever places a statement records, its text is cut where casts can be written, at as many of
the places as it can be cut at in their order, and comes to its parts numbered as they are without
casts, with a cast between each two of them. The casts open no quote and close none: up to each part
the quote is open that is open there in the text. -/
theorem casts_between_parts (s : Statement) :
    ∃ parts : List (List Char),
      IsCut 0 s.casts s.sql.toList parts ∧
      (∀ other, IsCut 0 s.casts s.sql.toList other →
        (boundaries 0 other).length ≤ (boundaries 0 parts).length) ∧
      (withArgs s.sql s.args).toPostgres = String.ofList (numberParts none 0 parts).flatten ∧
      s.toPostgres = String.ofList (castText.intercalate (numberParts none 0 parts)) ∧
      ∀ n, quoteAfterAll none (castText.intercalate ((numberParts none 0 parts).take n)) =
        quoteAfterAll none (parts.take n).flatten := by
  obtain ⟨part, rest, h⟩ := exists_walked 0 s.casts s.sql.toList
  refine ⟨part :: rest, h.isCut, fun other hother ↦ h.longest hother, ?_, ?_, ?_⟩
  · rw [flatten_numberParts, h.isCut.flatten_eq, ← String.toList_inj, String.toList_ofList,
      toList_toPostgres_withArgs]
  · rw [toPostgres, h.number_eq]
  · intro n
    rw [take_numberParts, quoteAfterAll_intercalate_numberParts (.inl rfl)]

/-- Behind a character of two bytes a place is reached as often as it is recorded; one inside that
character is never reached and holds up all behind it. -/
example :
    (⟨"é = ?", [.null], [2, 2, 0]⟩ : Statement).toPostgres = "é::text::text = $1" ∧
      (⟨"é = ?", [.null], [1, 2]⟩ : Statement).toPostgres = "é = $1" ∧
      (⟨"é = ?", [.null], [6, 6]⟩ : Statement).toPostgres = "é = $1::text" := by decide

end Statement

end RecordStore
