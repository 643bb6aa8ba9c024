import Mathlib.Data.List.Chain
import Mathlib.Data.List.TakeWhile
import RecordStore.Proofs.Placeholder.Direct

/-!
# Quoted segments

A text is taken apart at its quotes: a quote mark outside quotes opens a segment, which goes up to
the next mark of the same kind or to the end of the text. Numbering changes nothing in such a
segment, and between them nothing but the placeholders. So the numbered text has the same segments,
and where every number can be told from the text around it the placeholders can be put back.
-/

namespace RecordStore

namespace Placeholder

/-- Whether a character opens a quoted segment where no other one is open. -/
def isQuoteMark (c : Char) : Bool := c = '\'' || c = '"'

/-- A part of a text: what stands outside quotes, or a quoted segment with its marks. -/
inductive Segment where
  | unquoted (cs : List Char)
  | quoted (cs : List Char)
deriving DecidableEq

/-- The characters of a part. -/
def Segment.text : Segment → List Char
  | .unquoted cs => cs
  | .quoted cs => cs

-- What stands behind a segment is shorter than the text that the segment opens in.
private theorem length_behind_lt {cs rest : List Char} {mark : Char}
    (h : cs.dropWhile (!isQuoteMark ·) = mark :: rest) :
    ((rest.dropWhile (· ≠ mark)).drop 1).length < cs.length := by
  have hrest := (List.dropWhile_suffix (!isQuoteMark ·) (l := cs)).length_le
  have hbehind := (List.dropWhile_suffix (· ≠ mark) (l := rest)).length_le
  rw [h, List.length_cons] at hrest
  rw [List.length_drop]
  omega

/-- The parts of a text: unquoted ones with a quoted one between each two of them. A segment that is
not closed has no text behind it. -/
def segments (cs : List Char) : List Segment :=
  match _ : cs.dropWhile (!isQuoteMark ·) with
  | [] => [.unquoted cs]
  | mark :: rest =>
    let behind := rest.dropWhile (· ≠ mark)
    .unquoted (cs.takeWhile (!isQuoteMark ·)) ::
      .quoted (mark :: (rest.takeWhile (· ≠ mark) ++ behind.take 1)) :: segments (behind.drop 1)
termination_by cs.length
decreasing_by exact length_behind_lt ‹_›

/-- A text and its parts, by where its first segment ends: there is none, it goes up to the end of
the text, or it is closed in front of further parts. -/
inductive Segmented : List Char → List Segment → Prop where
  | plain {cs : List Char} (hcs : ∀ c ∈ cs, isQuoteMark c = false) :
    Segmented cs [.unquoted cs]
  | unclosed {cs inside : List Char} {mark : Char} (hcs : ∀ c ∈ cs, isQuoteMark c = false)
    (hmark : isQuoteMark mark = true) (hinside : mark ∉ inside) :
    Segmented (cs ++ mark :: inside) [.unquoted cs, .quoted (mark :: inside), .unquoted []]
  | closed {cs inside rest : List Char} {mark : Char} {parts : List Segment}
    (hcs : ∀ c ∈ cs, isQuoteMark c = false) (hmark : isQuoteMark mark = true)
    (hinside : mark ∉ inside) (hrest : Segmented rest parts) :
    Segmented (cs ++ mark :: (inside ++ mark :: rest))
      (.unquoted cs :: .quoted (mark :: (inside ++ [mark])) :: parts)

/-- The text with its placeholders numbered from the one after `marks` on; all of it is outside
quotes. -/
def numberUnquoted (marks : Nat) : List Char → List Char
  | [] => []
  | c :: rest =>
    if c = '?' then '$' :: (decimalDigits (marks + 1) ++ numberUnquoted (marks + 1) rest)
    else c :: numberUnquoted marks rest

/-- Parts with the placeholders of the unquoted ones numbered on from part to part. -/
def numberSegments (marks : Nat) : List Segment → List Segment
  | [] => []
  | .unquoted cs :: rest =>
    .unquoted (numberUnquoted marks cs) :: numberSegments (marks + cs.count '?') rest
  | .quoted cs :: rest => .quoted cs :: numberSegments marks rest

/-- The text with each `$` and the digits behind it turned back into a placeholder. -/
def unnumber : List Char → List Char
  | [] => []
  | c :: rest =>
    if c = '$' ∧ rest.head?.any Char.isDigit then '?' :: unnumber (rest.dropWhile Char.isDigit)
    else c :: unnumber rest
termination_by cs => cs.length
decreasing_by
  · have hrest := (List.dropWhile_suffix Char.isDigit (l := rest)).length_le
    rw [List.length_cons]
    omega
  · exact Nat.lt_succ_self _

/-- The text of parts, with the numbers outside quotes turned back into placeholders. -/
def unnumberSegments : List Segment → List Char
  | [] => []
  | .unquoted cs :: rest => unnumber cs ++ unnumberSegments rest
  | .quoted cs :: rest => cs ++ unnumberSegments rest

/-- A part in which every number that stands for a placeholder can be told from the text: outside
quotes there is no `$`, and behind no placeholder a digit. -/
def Segment.NumbersApart : Segment → Prop
  | .unquoted cs => '$' ∉ cs ∧ cs.IsChain fun c next ↦ c = '?' → next.isDigit = false
  | .quoted _ => True

instance (part : Segment) : Decidable part.NumbersApart :=
  match part with
  | .unquoted cs => inferInstanceAs (Decidable ('$' ∉ cs ∧
      cs.IsChain fun c next ↦ c = '?' → next.isDigit = false))
  | .quoted _ => .isTrue trivial

/-- Whether no number of a numbered text is taken for something else. -/
def NumbersApart (cs : List Char) : Prop := ∀ part ∈ segments cs, part.NumbersApart

instance (cs : List Char) : Decidable (NumbersApart cs) :=
  inferInstanceAs (Decidable (∀ part ∈ segments cs, part.NumbersApart))

/-! ### Taking a text apart -/

-- What stands in front of the first character of a kind, and the text from there on.
private theorem while_append {cs : List Char} {stop : Char} (rest : List Char) {p : Char → Bool}
    (hcs : ∀ c ∈ cs, p c = true) (hstop : p stop = false) :
    (cs ++ stop :: rest).takeWhile p = cs ∧
      (cs ++ stop :: rest).dropWhile p = stop :: rest := by
  rw [List.takeWhile_append_of_pos hcs, List.dropWhile_append_of_pos hcs]
  simp [hstop]

private theorem forall_ne {mark : Char} {inside : List Char} (h : mark ∉ inside) :
    ∀ c ∈ inside, decide (c ≠ mark) = true := by
  intro c hc
  rw [decide_eq_true_eq]
  exact ne_of_mem_of_not_mem hc h

/-- A text without quote marks is one unquoted part. -/
theorem segments_of_forall {cs : List Char} (hcs : ∀ c ∈ cs, isQuoteMark c = false) :
    segments cs = [.unquoted cs] := by
  have hnone : cs.dropWhile (!isQuoteMark ·) = [] := by
    rw [List.dropWhile_eq_nil_iff]
    simpa using hcs
  rw [segments]
  split
  · rfl
  · next h => simp [hnone] at h

/-- A text with a quote mark is what stands in front of the first one, the segment that this opens,
and the parts of the text behind the segment. -/
theorem segments_append {cs : List Char} (hcs : ∀ c ∈ cs, isQuoteMark c = false) {mark : Char}
    (hmark : isQuoteMark mark = true) (rest : List Char) :
    segments (cs ++ mark :: rest) =
      .unquoted cs ::
        .quoted (mark :: (rest.takeWhile (· ≠ mark) ++ (rest.dropWhile (· ≠ mark)).take 1)) ::
        segments ((rest.dropWhile (· ≠ mark)).drop 1) := by
  have hfront : ∀ c ∈ cs, (!isQuoteMark c) = true := by simpa using hcs
  have hstop : (!isQuoteMark mark) = false := by simp [hmark]
  obtain ⟨htake, hdrop⟩ := while_append rest (p := (!isQuoteMark ·)) hfront hstop
  rw [segments]
  split
  · next h => simp [hdrop] at h
  · next first more h =>
    obtain ⟨rfl, rfl⟩ : mark = first ∧ rest = more := by simpa [hdrop] using h
    rw [htake]

/-- A text is taken apart in one way. -/
theorem Segmented.segments_eq {cs : List Char} {parts : List Segment} (h : Segmented cs parts) :
    segments cs = parts := by
  induction h with
  | plain hcs => exact segments_of_forall hcs
  | @unclosed cs inside mark hcs hmark hinside =>
    have hempty : segments [] = [.unquoted []] := segments_of_forall (by simp)
    have hbehind : inside.dropWhile (· ≠ mark) = [] :=
      List.dropWhile_eq_nil_iff.2 (forall_ne hinside)
    rw [segments_append hcs hmark, hbehind, List.takeWhile_eq_self_iff.2 (forall_ne hinside),
      List.take_nil, List.drop_nil, List.append_nil, hempty]
  | @closed cs inside rest mark parts hcs hmark hinside hrest ih =>
    have hstop : decide (mark ≠ mark) = false := by simp
    obtain ⟨htake, hdrop⟩ := while_append rest (p := (· ≠ mark)) (forall_ne hinside) hstop
    rw [segments_append hcs hmark, htake, hdrop]
    simp [ih]

-- What the first character of no such kind is, and what stands in front of it.
private theorem of_dropWhile_eq_cons {p : Char → Bool} {cs rest : List Char} {stop : Char}
    (h : cs.dropWhile p = stop :: rest) :
    cs.takeWhile p ++ stop :: rest = cs ∧ (∀ c ∈ cs.takeWhile p, p c = true) ∧
      p stop = false := by
  refine ⟨?_, fun c hc ↦ List.mem_takeWhile_imp hc, ?_⟩
  · rw [← h, List.takeWhile_append_dropWhile]
  · have hstop := List.head?_dropWhile_not p cs
    rw [h] at hstop
    simpa using hstop

private theorem not_mem_takeWhile (mark : Char) (cs : List Char) :
    mark ∉ cs.takeWhile (· ≠ mark) := by
  intro hmem
  simpa using List.mem_takeWhile_imp hmem

/-- Every text can be taken apart. -/
theorem segmented_segments (cs : List Char) : Segmented cs (segments cs) := by
  fun_induction segments cs with
  | case1 cs h =>
    rw [List.dropWhile_eq_nil_iff] at h
    exact .plain (by simpa using h)
  | case2 cs mark rest h behind ih =>
    obtain ⟨hcs, hfront, hmark⟩ := of_dropWhile_eq_cons h
    have hfront : ∀ c ∈ cs.takeWhile (!isQuoteMark ·), isQuoteMark c = false := by
      simpa using hfront
    have hmark : isQuoteMark mark = true := by simpa using hmark
    have hinside := not_mem_takeWhile mark rest
    cases hbehind : behind with
    | nil =>
      have hrest : rest.takeWhile (· ≠ mark) = rest :=
        List.takeWhile_eq_self_iff.2 (List.dropWhile_eq_nil_iff.1 hbehind)
      have hparts := Segmented.unclosed hfront hmark hinside
      rw [hrest, hcs] at hparts
      rw [hrest, List.take_nil, List.drop_nil, List.append_nil, segments_of_forall (by simp)]
      exact hparts
    | cons last after =>
      obtain ⟨hrest, -, hlast⟩ := of_dropWhile_eq_cons hbehind
      obtain rfl : last = mark := by simpa using hlast
      rw [hbehind] at ih
      have hparts := Segmented.closed hfront hmark hinside ih
      rw [List.drop_one, List.tail_cons, hrest, hcs] at hparts
      exact hparts

/-- The parts of a text, one after another, are the text. -/
theorem Segmented.flatMap_text {cs : List Char} {parts : List Segment} (h : Segmented cs parts) :
    parts.flatMap Segment.text = cs := by
  induction h with
  | plain hcs => simp [Segment.text]
  | unclosed hcs hmark hinside => simp [Segment.text]
  | closed hcs hmark hinside hrest ih => simp [Segment.text, ih]

/-! ### Numbering part by part -/

private theorem quoteAfter_of_not_mark {c : Char} (hc : isQuoteMark c = false) :
    quoteAfter none c = none := by
  simp only [isQuoteMark, Bool.or_eq_false_iff, decide_eq_false_iff_not] at hc
  simp [quoteAfter, hc]

/-- What stands outside quotes is numbered on its own, and what follows it goes on from there. -/
theorem numberMarks_unquoted {cs : List Char} (hcs : ∀ c ∈ cs, isQuoteMark c = false)
    (marks : Nat) (rest : List Char) :
    numberMarks none marks (cs ++ rest) =
      numberUnquoted marks cs ++ numberMarks none (marks + cs.count '?') rest := by
  induction cs generalizing marks with
  | nil => rfl
  | cons c cs ih =>
    rw [List.forall_mem_cons] at hcs
    rw [List.cons_append, numberMarks, quoteAfter_of_not_mark hcs.1, ih hcs.2, ih hcs.2,
      numberUnquoted]
    by_cases hc : c = '?'
    · simp [isPlaceholder, hc, Nat.add_comm, Nat.add_left_comm]
    · simp [isPlaceholder, hc]

/-- What stands in an open segment stays as it is. -/
theorem numberMarks_inside {mark : Char} {inside : List Char} (h : mark ∉ inside) (marks : Nat)
    (rest : List Char) :
    numberMarks (some mark) marks (inside ++ rest) =
      inside ++ numberMarks (some mark) marks rest := by
  induction inside with
  | nil => rfl
  | cons c inside ih =>
    rw [List.mem_cons, not_or] at h
    have hquote : quoteAfter (some mark) c = some mark := by simp [quoteAfter, Ne.symm h.1]
    rw [List.cons_append, numberMarks, hquote, ih h.2]
    rfl

/-- A mark that opens a segment stays, and so does one that closes it. -/
theorem numberMarks_mark {mark : Char} (h : isQuoteMark mark = true) (marks : Nat)
    (rest : List Char) :
    numberMarks none marks (mark :: rest) = mark :: numberMarks (some mark) marks rest ∧
      numberMarks (some mark) marks (mark :: rest) = mark :: numberMarks none marks rest := by
  have hquote : mark = '\'' ∨ mark = '"' := by simpa [isQuoteMark] using h
  have hne : mark ≠ '?' := by rcases hquote with rfl | rfl <;> decide
  refine ⟨?_, ?_⟩
  · simp [numberMarks, isPlaceholder, quoteAfter, hquote, hne]
  · simp [numberMarks, isPlaceholder, quoteAfter]

private theorem isQuoteMark_of_isDigit {c : Char} (h : c.isDigit = true) :
    isQuoteMark c = false := by
  rw [isQuoteMark, Bool.or_eq_false_iff, decide_eq_false_iff_not, decide_eq_false_iff_not]
  refine ⟨?_, ?_⟩ <;> rintro rfl <;> exact absurd h (by decide)

/-- Numbering opens no segment. -/
theorem isQuoteMark_numberUnquoted {cs : List Char} (hcs : ∀ c ∈ cs, isQuoteMark c = false)
    (marks : Nat) : ∀ c ∈ numberUnquoted marks cs, isQuoteMark c = false := by
  induction cs generalizing marks with
  | nil => exact List.forall_mem_nil _
  | cons c cs ih =>
    rw [List.forall_mem_cons] at hcs
    rw [numberUnquoted]
    split
    · rw [List.forall_mem_cons, List.forall_mem_append]
      exact ⟨by decide, fun d hd ↦ isQuoteMark_of_isDigit (isDigit_decimalDigits _ d hd),
        ih hcs.2 _⟩
    · rw [List.forall_mem_cons]
      exact ⟨hcs.1, ih hcs.2 _⟩

/-- The numbered text has the parts of the text, with the unquoted ones numbered. -/
theorem Segmented.number {cs : List Char} {parts : List Segment} (h : Segmented cs parts)
    (marks : Nat) : Segmented (numberMarks none marks cs) (numberSegments marks parts) := by
  induction h generalizing marks with
  | @plain cs hcs =>
    have htext := numberMarks_unquoted hcs marks []
    rw [List.append_nil, numberMarks, List.append_nil] at htext
    rw [htext]
    exact .plain (isQuoteMark_numberUnquoted hcs marks)
  | @unclosed cs inside mark hcs hmark hinside =>
    have htext := numberMarks_inside hinside (marks + cs.count '?') []
    rw [List.append_nil, numberMarks, List.append_nil] at htext
    rw [numberMarks_unquoted hcs, (numberMarks_mark hmark _ _).1, htext]
    exact .unclosed (isQuoteMark_numberUnquoted hcs marks) hmark hinside
  | @closed cs inside rest mark parts hcs hmark hinside hrest ih =>
    rw [numberMarks_unquoted hcs, (numberMarks_mark hmark _ _).1, numberMarks_inside hinside,
      (numberMarks_mark hmark _ _).2]
    exact .closed (isQuoteMark_numberUnquoted hcs marks) hmark hinside (ih _)

/-! ### Putting placeholders back -/

-- What is written for the first character of a text is no digit when that character is none.
private theorem head?_numberUnquoted {cs : List Char} (h : ∀ c ∈ cs.head?, c.isDigit = false)
    (marks : Nat) : ∀ c ∈ (numberUnquoted marks cs).head?, c.isDigit = false := by
  cases cs with
  | nil => exact h
  | cons c cs =>
    rw [numberUnquoted]
    split
    · simp
    · simpa using h

private theorem unnumber_number {n : Nat} {rest : List Char}
    (hrest : ∀ c ∈ rest.head?, c.isDigit = false) :
    unnumber ('$' :: (decimalDigits n ++ rest)) = '?' :: unnumber rest := by
  have hdigits := isDigit_decimalDigits n
  have hfirst : (decimalDigits n ++ rest).head?.any Char.isDigit = true := by
    cases hcs : decimalDigits n with
    | nil => exact absurd hcs Nat.toDigits_ne_nil
    | cons c cs => simpa using hdigits c (by simp [hcs])
  have hbehind : (decimalDigits n ++ rest).dropWhile Char.isDigit = rest := by
    rw [List.dropWhile_append_of_pos hdigits]
    cases rest with
    | nil => rfl
    | cons c rest =>
      rw [List.dropWhile_cons_of_neg]
      simpa using hrest
  rw [unnumber, if_pos ⟨rfl, hfirst⟩, hbehind]

private theorem unnumber_cons {c : Char} (h : c ≠ '$') (rest : List Char) :
    unnumber (c :: rest) = c :: unnumber rest := by
  rw [unnumber, if_neg (fun hc ↦ h hc.1)]

/-- Numbers that can be told from the text are turned back into the placeholders. -/
theorem unnumber_numberUnquoted {cs : List Char} (hsign : '$' ∉ cs)
    (hnext : cs.IsChain fun c next ↦ c = '?' → next.isDigit = false) (marks : Nat) :
    unnumber (numberUnquoted marks cs) = cs := by
  induction cs generalizing marks with
  | nil => rw [numberUnquoted, unnumber]
  | cons c cs ih =>
    rw [List.mem_cons, not_or] at hsign
    rw [List.isChain_cons] at hnext
    rw [numberUnquoted]
    split
    · next hc =>
      have hrest := head?_numberUnquoted (fun next h ↦ hnext.1 next h hc) (marks + 1)
      rw [unnumber_number hrest, ih hsign.2 hnext.2, hc]
    · rw [unnumber_cons (Ne.symm hsign.1), ih hsign.2 hnext.2]

/-- Parts whose numbers can be told from their texts give back the text they are the parts of. -/
theorem unnumberSegments_numberSegments {parts : List Segment}
    (h : ∀ part ∈ parts, part.NumbersApart) (marks : Nat) :
    unnumberSegments (numberSegments marks parts) = parts.flatMap Segment.text := by
  induction parts generalizing marks with
  | nil => rfl
  | cons part parts ih =>
    rw [List.forall_mem_cons] at h
    cases part with
    | quoted cs =>
      rw [numberSegments, unnumberSegments, ih h.2, List.flatMap_cons]
      rfl
    | unquoted cs =>
      obtain ⟨hsign, hnext⟩ := h.1
      rw [numberSegments, unnumberSegments, ih h.2, List.flatMap_cons,
        unnumber_numberUnquoted hsign hnext]
      rfl

end Placeholder

namespace Statement

open Placeholder

/-- A text is its parts, and without casts the parts of the numbered text are those of the text,
the quoted ones as they are and the unquoted ones with their placeholders numbered. So where the
numbers can be told from the text the numbered text gives the text back, and no other such text is
numbered to the same. -/
theorem segments_toPostgres (sql : String) (args : List Json) :
    (segments sql.toList).flatMap Segment.text = sql.toList ∧
      segments (withArgs sql args).toPostgres.toList = numberSegments 0 (segments sql.toList) ∧
      (NumbersApart sql.toList →
        unnumberSegments (segments (withArgs sql args).toPostgres.toList) = sql.toList ∧
        ∀ (other : String) (otherArgs : List Json), NumbersApart other.toList →
          (withArgs other otherArgs).toPostgres = (withArgs sql args).toPostgres →
            other = sql) := by
  have hsegments (sql : String) (args : List Json) :
      segments (withArgs sql args).toPostgres.toList =
        numberSegments 0 (segments sql.toList) := by
    rw [toList_toPostgres_withArgs]
    exact ((segmented_segments sql.toList).number 0).segments_eq
  have hback (sql : String) (args : List Json) (h : NumbersApart sql.toList) :
      unnumberSegments (segments (withArgs sql args).toPostgres.toList) = sql.toList := by
    rw [hsegments, unnumberSegments_numberSegments h,
      (segmented_segments sql.toList).flatMap_text]
  refine ⟨(segmented_segments sql.toList).flatMap_text, hsegments sql args, ?_⟩
  intro h
  refine ⟨hback sql args h, ?_⟩
  intro other otherArgs hother heq
  rw [← String.toList_inj, ← hback other otherArgs hother, heq, hback sql args h]

/-- A quote written twice ends one segment and opens the next, a quote of the other kind inside a
segment does neither, and a segment that is not closed goes up to the end. -/
theorem segments_toPostgres_quotes :
    NumbersApart "? || 'it''s ?' || ? || \"it's ?".toList ∧
      segments (withArgs "? || 'it''s ?' || ? || \"it's ?" []).toPostgres.toList =
        [.unquoted "$1 || ".toList, .quoted "'it'".toList, .unquoted [],
          .quoted "'s ?'".toList, .unquoted " || $2 || ".toList, .quoted "\"it's ?".toList,
          .unquoted []] ∧
      unnumberSegments
          (segments (withArgs "? || 'it''s ?' || ? || \"it's ?" []).toPostgres.toList) =
        "? || 'it''s ?' || ? || \"it's ?".toList := by
  have hapart : NumbersApart "? || 'it''s ?' || ? || \"it's ?".toList := by decide +kernel
  obtain ⟨-, hsegments, hback⟩ := segments_toPostgres "? || 'it''s ?' || ? || \"it's ?" []
  exact ⟨hapart, hsegments.trans (by decide +kernel), (hback hapart).1⟩

end Statement

end RecordStore
