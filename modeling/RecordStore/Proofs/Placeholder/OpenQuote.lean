import RecordStore.Proofs.Placeholder.Placed

/-!
# Statements behind an open quote

Hand-written text may end inside a quote, and what stands behind it is then inside that quote: its
casts are written as ever and its question marks stay. So what a statement comes to behind another
one is told by the quote that is open there and by the number of marks so far.
-/

namespace RecordStore

namespace Placeholder

/-- What a question mark comes to: the mark of a number, or inside a quote itself. -/
def markText (quote : Option Char) (k : Nat) : String :=
  if quote.isNone then "$" ++ String.ofList (decimalDigits k) else "?"

/-- A quote that a text can leave open. -/
def IsQuote (quote : Option Char) : Prop := quote = none ∨ quote = some '\'' ∨ quote = some '"'

private theorem isQuote_quoteAfter {quote : Option Char} (h : IsQuote quote) (c : Char) :
    IsQuote (quoteAfter quote c) := by
  cases quote with
  | none =>
    rw [quoteAfter]
    split
    · next hc =>
      rcases hc with rfl | rfl
      · exact .inr (.inl rfl)
      · exact .inr (.inr rfl)
    · exact .inl rfl
  | some mark =>
    rw [quoteAfter]
    split
    · exact .inl rfl
    · exact h

theorem isQuote_quoteAfterAll {quote : Option Char} (h : IsQuote quote) (cs : List Char) :
    IsQuote (quoteAfterAll quote cs) := by
  induction cs generalizing quote with
  | nil => exact h
  | cons c rest ih => exact ih (isQuote_quoteAfter h c)

/-- A text without question marks and quotes. -/
def IsInert (cs : List Char) : Prop := ∀ c ∈ cs, c ≠ '?' ∧ c ≠ '\'' ∧ c ≠ '"'

instance (cs : List Char) : Decidable (IsInert cs) :=
  List.decidableBAll (fun c ↦ c ≠ '?' ∧ c ≠ '\'' ∧ c ≠ '"') cs

/-- A text without quotes leaves open what is open in front of it. -/
theorem IsInert.quoteAfterAll_eq {cs : List Char} (h : IsInert cs) {quote : Option Char}
    (hquote : IsQuote quote) : quoteAfterAll quote cs = quote := by
  induction cs with
  | nil => rfl
  | cons c rest ih =>
    obtain ⟨⟨-, hsingle, hdouble⟩, hrest⟩ := List.forall_mem_cons.1 h
    have hafter : quoteAfter quote c = quote := by
      rcases hquote with rfl | rfl | rfl <;> simp [quoteAfter, hsingle, hdouble]
    change quoteAfterAll (quoteAfter quote c) rest = quote
    rw [hafter]
    exact ih hrest

end Placeholder

open Placeholder

namespace Statement

/-- The quote that a statement leaves open. -/
def openQuote (s : Statement) : Option Char := quoteAfterAll none s.sql.toList

/-- The text that a statement comes to behind a number of marks and an open quote. -/
def numberedIn (quote : Option Char) (marks : Nat) (s : Statement) : String :=
  String.ofList (number quote 0 marks s.casts s.sql.toList)

theorem isQuote_openQuote (s : Statement) : IsQuote s.openQuote :=
  isQuote_quoteAfterAll (.inl rfl) _

variable {s : Statement}

/-- A statement with all its casts in it leaves to a further one the quote that it opens and the
marks that it counts, and nothing else. -/
theorem CastsPlaced.numberedIn_append (hs : s.CastsPlaced) (t : Statement) (quote : Option Char)
    (marks : Nat) :
    (s ++ t).numberedIn quote marks = s.numberedIn quote marks ++
      t.numberedIn (quoteAfterAll quote s.sql.toList) (marks + count quote s.sql.toList) := by
  have hlater : ∀ p ∈ t.casts.map (byteLength s.sql.toList + ·),
      0 + byteLength s.sql.toList ≤ p := by
    intro p hp
    obtain ⟨place, -, rfl⟩ := List.mem_map.1 hp
    omega
  have hmove := pieces_move (byteLength s.sql.toList) (quoteAfterAll quote s.sql.toList) 0
    (marks + count quote s.sql.toList) t.casts t.sql.toList
  rw [numberedIn, numberedIn, numberedIn, number_eq_flatMap, number_eq_flatMap, number_eq_flatMap,
    sql_append, casts_append, String.toList_append,
    Placeholder.pieces_append hs.placed hlater quote marks t.sql.toList, List.flatMap_append,
    String.ofList_append, Nat.zero_add, ← hmove]
  rfl

/-- What stands behind a statement with all its casts in it changes nothing in front. -/
theorem CastsPlaced.toPostgres_append_statement (hs : s.CastsPlaced) (t : Statement) :
    (s ++ t).toPostgres = s.toPostgres ++ t.numberedIn s.openQuote s.marks := by
  have happend := hs.numberedIn_append t none 0
  rw [Nat.zero_add] at happend
  exact happend

/-- A text without question marks stays as it is behind any quote. -/
theorem numberedIn_ofText {text : String} (h : '?' ∉ text.toList) (quote : Option Char)
    (marks : Nat) : (ofText text).numberedIn quote marks = text := by
  have hpieces := flatMap_pieces_nil quote 0 marks text.toList
  rw [numberMarks_of_count_eq_zero (count_of_not_mem h quote)] at hpieces
  rw [numberedIn, number_eq_flatMap]
  change String.ofList ((Placeholder.pieces quote 0 marks [] text.toList).flatMap Piece.text) = text
  rw [hpieces, String.ofList_toList]

/-! ### Statements that leave the quote as it is -/

/-- How many numbers are given to placeholders behind a quote: none where one is open. -/
def numbersGiven (quote : Option Char) (placeholders : Nat) : Nat :=
  if quote.isNone then placeholders else 0

/-- Without placeholders no number is given. -/
theorem numbersGiven_zero (quote : Option Char) : numbersGiven quote 0 = 0 := by
  cases quote <;> rfl

/-- A statement that comes to a text behind a number of marks and an open quote, and leaves that
quote open behind its own placeholders. -/
structure Spans (quote : Option Char) (marks placeholders : Nat) (text : String)
    (s : Statement) : Prop where
  placed : s.CastsPlaced
  quote_eq : quoteAfterAll quote s.sql.toList = quote
  count_eq : count quote s.sql.toList = numbersGiven quote placeholders
  numberedIn_eq : s.numberedIn quote marks = text

namespace Spans

variable {t : Statement} {quote : Option Char} {marks n m : Nat} {a b : String}

/-- A text without question marks and quotes comes to itself. -/
theorem ofText {text : String} (htext : IsInert text.toList) (hquote : IsQuote quote)
    (marks : Nat) : Spans quote marks 0 text (.ofText text) := by
  have hmark : '?' ∉ text.toList := fun hmem ↦ (htext _ hmem).1 rfl
  refine ⟨.ofText text, htext.quoteAfterAll_eq hquote, ?_, numberedIn_ofText hmark quote marks⟩
  rw [Statement.ofText, count_of_not_mem hmark]
  cases quote <;> rfl

/-- What goes on behind the first statement is numbered from its last placeholder on. -/
theorem append (hs : Spans quote marks n a s)
    (ht : Spans quote (marks + numbersGiven quote n) m b t) :
    Spans quote marks (n + m) (a ++ b) (s ++ t) where
  placed := hs.placed.append ht.placed
  quote_eq := by
    rw [sql_append, String.toList_append, quoteAfterAll_append, hs.quote_eq, ht.quote_eq]
  count_eq := by
    rw [sql_append, String.toList_append, count_append, hs.quote_eq, hs.count_eq, ht.count_eq]
    cases quote <;> rfl
  numberedIn_eq := by
    rw [hs.placed.numberedIn_append, hs.quote_eq, hs.count_eq, hs.numberedIn_eq, ht.numberedIn_eq]

theorem text_append {text : String} (htext : IsInert text.toList) (hquote : IsQuote quote)
    (hs : Spans quote marks n a s) : Spans quote marks n (text ++ a) (text ++ s) := by
  have hspans := (ofText htext hquote marks).append (t := s) (m := n) (b := a)
  rw [numbersGiven_zero, Nat.add_zero, Nat.zero_add] at hspans
  exact hspans hs

theorem append_text {text : String} (htext : IsInert text.toList) (hquote : IsQuote quote)
    (hs : Spans quote marks n a s) : Spans quote marks n (a ++ text) (s ++ text) :=
  hs.append (ofText htext hquote _)

/-- Between what stands in front of it and behind it, such a statement comes to its text, and what
stands behind goes on with the numbers. -/
theorem toPostgres {head : Statement} (hhead : head.CastsPlaced)
    (hs : Spans head.openQuote head.marks n a s) (rest : Statement) :
    (head ++ (s ++ rest)).toPostgres = head.toPostgres ++
      (a ++ rest.numberedIn head.openQuote (head.marks + numbersGiven head.openQuote n)) := by
  rw [hhead.toPostgres_append_statement, hs.placed.numberedIn_append, hs.quote_eq, hs.count_eq,
    hs.numberedIn_eq]

end Spans

end Statement

end RecordStore
