import RecordStore.Proofs.Placeholder.Quotes

/-!
# Numbered text as pieces

The text with numbered placeholders is made of pieces: a character that is kept, a cast, or a mark
with its number. The marks of a text are numbered in order without gaps, and numbering from a later
mark on shifts them all. When every cast of a text is reached inside it, what is written after it is
numbered as if it stood alone and shifted by the marks before.
-/

namespace RecordStore.Placeholder

/-- What stands for a character, or between two characters, in numbered text. -/
inductive Piece where
  | kept (c : Char)
  | cast
  | mark (k : Nat)
deriving DecidableEq

namespace Piece

/-- The text of a piece. -/
def text : Piece → List Char
  | .kept c => [c]
  | .cast => castText
  | .mark k => '$' :: decimalDigits k

/-- The number of a mark. -/
def mark? : Piece → Option Nat
  | .mark k => some k
  | _ => none

/-- The piece after `marks` further marks. -/
def shift (marks : Nat) : Piece → Piece
  | .mark k => .mark (marks + k)
  | piece => piece

end Piece

/-- The pieces of a text, as `number` writes them. -/
def pieces (quote : Option Char) (offset marks : Nat) (places : List Nat) : List Char → List Piece
  | [] => if places.head? = some offset then [.cast] else []
  | c :: rest =>
    let reached := places.takeWhile (· = offset)
    let later := places.dropWhile (· = offset)
    let following := quoteAfter quote c
    reached.map (fun _ ↦ .cast) ++
      if isPlaceholder quote c then
        .mark (marks + 1) :: pieces following (offset + c.utf8Size) (marks + 1) later rest
      else .kept c :: pieces following (offset + c.utf8Size) marks later rest

/-- Numbered text is the text of its pieces. -/
theorem number_eq_flatMap (quote : Option Char) (offset marks : Nat) (places : List Nat)
    (cs : List Char) :
    number quote offset marks places cs =
      (pieces quote offset marks places cs).flatMap Piece.text := by
  induction cs generalizing quote offset marks places with
  | nil =>
    rw [number, pieces]
    split <;> simp [Piece.text]
  | cons c rest ih =>
    rw [number, pieces]
    simp only [ih, List.flatMap_append, List.flatMap_map]
    split <;> simp [Piece.text]

/-- Numbering after further marks shifts the marks. -/
theorem pieces_add (quote : Option Char) (offset n marks : Nat) (places : List Nat)
    (cs : List Char) :
    pieces quote offset (n + marks) places cs =
      (pieces quote offset marks places cs).map (Piece.shift n) := by
  induction cs generalizing quote offset marks places with
  | nil =>
    rw [pieces, pieces]
    split <;> simp [Piece.shift]
  | cons c rest ih =>
    rw [pieces, pieces]
    simp only [Nat.add_assoc n marks 1, ih, List.map_append, List.map_map]
    split <;> simp [Piece.shift, Function.comp_def]

private theorem filterMap_cast (places : List Nat) :
    (places.map fun _ ↦ Piece.cast).filterMap Piece.mark? = [] := by
  induction places with
  | nil => rfl
  | cons _ rest ih => simp [Piece.mark?]

/-- The marks of a text are numbered in order, one for each placeholder. -/
theorem filterMap_mark? (quote : Option Char) (offset marks : Nat) (places : List Nat)
    (cs : List Char) :
    (pieces quote offset marks places cs).filterMap Piece.mark? =
      List.range' (marks + 1) (count quote cs) := by
  induction cs generalizing quote offset marks places with
  | nil =>
    rw [pieces, count]
    split <;> simp [Piece.mark?]
  | cons c rest ih =>
    rw [pieces, count, List.filterMap_append, filterMap_cast, List.nil_append]
    split
    · rw [List.filterMap_cons, ih]
      simp [Piece.mark?, Nat.add_comm 1, List.range'_succ]
    · rw [List.filterMap_cons, ih]
      simp [Piece.mark?]

/-! ### Places inside a text -/

/-- Every place is reached in front of a character of the text. -/
def Placed (offset : Nat) (places : List Nat) : List Char → Prop
  | [] => places = []
  | c :: rest => Placed (offset + c.utf8Size) (places.dropWhile (· = offset)) rest

/-- A text without places has them all in it. -/
theorem placed_nil (offset : Nat) (cs : List Char) : Placed offset [] cs := by
  induction cs generalizing offset with
  | nil => rfl
  | cons c rest ih => exact ih _

-- Places behind a character are neither reached nor passed at the character.
private theorem while_append_of_forall_lt {offset : Nat} {later : List Nat}
    (hlater : ∀ p ∈ later, offset < p) (places : List Nat) :
    (places ++ later).takeWhile (· = offset) = places.takeWhile (· = offset) ∧
      (places ++ later).dropWhile (· = offset) = places.dropWhile (· = offset) ++ later := by
  induction places with
  | nil =>
    cases later with
    | nil => simp
    | cons p rest =>
      have hp : p ≠ offset := by
        have hlt := hlater p (by simp)
        omega
      simp [hp]
  | cons p rest ih =>
    by_cases hp : p = offset
    · simpa [hp] using ih
    · simp [hp]

private theorem forall_lt_of_forall_le {offset : Nat} {c : Char} {rest : List Char}
    {later : List Nat} (h : ∀ p ∈ later, offset + byteLength (c :: rest) ≤ p) :
    (∀ p ∈ later, offset < p) ∧
      ∀ p ∈ later, offset + c.utf8Size + byteLength rest ≤ p := by
  have hlength : byteLength (c :: rest) = c.utf8Size + byteLength rest := by simp [byteLength]
  have hpos := Char.utf8Size_pos c
  refine ⟨?_, ?_⟩
  · intro p hp
    have hle := h p hp
    omega
  · intro p hp
    have hle := h p hp
    omega

/-- Text with all its places in it keeps its pieces in front of further text, whose pieces are those
that it has from there on. -/
theorem pieces_append {offset : Nat} {places : List Nat} {a : List Char}
    (ha : Placed offset places a) {later : List Nat}
    (hlater : ∀ p ∈ later, offset + byteLength a ≤ p) (quote : Option Char) (marks : Nat)
    (b : List Char) :
    pieces quote offset marks (places ++ later) (a ++ b) =
      pieces quote offset marks places a ++
        pieces (quoteAfterAll quote a) (offset + byteLength a) (marks + count quote a) later b := by
  induction a generalizing quote offset marks places with
  | nil =>
    obtain rfl : places = [] := ha
    simp [pieces, count, quoteAfterAll, byteLength]
  | cons c rest ih =>
    obtain ⟨hlt, hle⟩ := forall_lt_of_forall_le hlater
    obtain ⟨htake, hdrop⟩ := while_append_of_forall_lt hlt places
    have hoffset : offset + byteLength (c :: rest) = offset + c.utf8Size + byteLength rest := by
      simp [byteLength, Nat.add_assoc]
    have hquote : quoteAfterAll quote (c :: rest) = quoteAfterAll (quoteAfter quote c) rest := rfl
    rw [List.cons_append, pieces, pieces, htake, hdrop, hoffset, hquote, count, List.append_assoc]
    congr 1
    split
    · rw [List.cons_append, ih ha hle, Nat.add_assoc marks 1]
    · rw [List.cons_append, ih ha hle, Nat.zero_add]

/-- Texts with their places in them have them in one text, the second ones moved. -/
theorem Placed.append {offset : Nat} {places later : List Nat} {a b : List Char}
    (ha : Placed offset places a) (hlater : ∀ p ∈ later, offset + byteLength a ≤ p)
    (hb : Placed (offset + byteLength a) later b) : Placed offset (places ++ later) (a ++ b) := by
  induction a generalizing offset places with
  | nil =>
    obtain rfl : places = [] := ha
    simpa [byteLength] using hb
  | cons c rest ih =>
    obtain ⟨hlt, hle⟩ := forall_lt_of_forall_le hlater
    obtain ⟨-, hdrop⟩ := while_append_of_forall_lt hlt places
    rw [List.cons_append, Placed, hdrop]
    apply ih ha hle
    simpa [byteLength, Nat.add_assoc] using hb

private theorem while_map_add (n offset : Nat) (places : List Nat) :
    (places.map (n + ·)).takeWhile (· = n + offset) =
        (places.takeWhile (· = offset)).map (n + ·) ∧
      (places.map (n + ·)).dropWhile (· = n + offset) =
        (places.dropWhile (· = offset)).map (n + ·) := by
  induction places with
  | nil => exact ⟨rfl, rfl⟩
  | cons p rest ih =>
    by_cases hp : p = offset
    · simpa [hp] using ih
    · simp [hp]

/-- Moving a text and its places together changes no piece. -/
theorem pieces_move (n : Nat) (quote : Option Char) (offset marks : Nat) (places : List Nat)
    (cs : List Char) :
    pieces quote (n + offset) marks (places.map (n + ·)) cs =
      pieces quote offset marks places cs := by
  induction cs generalizing quote offset marks places with
  | nil =>
    rw [pieces, pieces, List.head?_map]
    cases places.head? <;> simp
  | cons c rest ih =>
    obtain ⟨htake, hdrop⟩ := while_map_add n offset places
    simp only [pieces, htake, hdrop, Nat.add_assoc n offset, ih, List.map_map]
    rfl

/-- Moving a text and its places together leaves the places in the text. -/
theorem Placed.move {offset : Nat} {places : List Nat} {cs : List Char}
    (h : Placed offset places cs) (n : Nat) : Placed (n + offset) (places.map (n + ·)) cs := by
  induction cs generalizing offset places with
  | nil =>
    obtain rfl : places = [] := h
    rfl
  | cons c rest ih =>
    obtain ⟨-, hdrop⟩ := while_map_add n offset places
    rw [Placed, hdrop, Nat.add_assoc]
    exact ih h

end RecordStore.Placeholder

namespace RecordStore.Statement

open Placeholder

/-! ### Pieces of statements -/

/-- The pieces of a statement's text as PostgreSQL takes it. -/
def pieces (s : Statement) : List Piece := Placeholder.pieces none 0 0 s.casts s.sql.toList

/-- The number of placeholders of a statement. -/
def marks (s : Statement) : Nat := count none s.sql.toList

/-- The text of a statement with its placeholders numbered after further marks. -/
def numbered (s : Statement) (marks : Nat) : List Char :=
  (s.pieces.map (Piece.shift marks)).flatMap Piece.text

/-- A statement whose text ends outside quotes and has all its casts in it. -/
structure Settled (s : Statement) : Prop where
  closed : IsClosed s.sql.toList
  placed : Placed 0 s.casts s.sql.toList

private theorem shift_zero : Piece.shift 0 = id := by
  funext piece
  cases piece <;> simp [Piece.shift]

/-- A statement as PostgreSQL takes it is numbered after no marks. -/
theorem toPostgres_eq (s : Statement) : s.toPostgres = String.ofList (s.numbered 0) := by
  rw [toPostgres, number_eq_flatMap, numbered, shift_zero, List.map_id]
  rfl

/-- The marks of a statement as PostgreSQL takes it are numbered from one on, without gaps. -/
theorem filterMap_mark? (s : Statement) :
    s.pieces.filterMap Piece.mark? = List.range' 1 s.marks :=
  Placeholder.filterMap_mark? none 0 0 s.casts s.sql.toList

variable {s t : Statement}

/-- Statements one after the other have all their casts in them when each has its own in it. -/
theorem placed_append (hs : Placed 0 s.casts s.sql.toList) (ht : Placed 0 t.casts t.sql.toList) :
    Placed 0 (s ++ t).casts (s ++ t).sql.toList := by
  have hmove := ht.move (byteLength s.sql.toList)
  rw [Nat.add_comm] at hmove
  rw [sql_append, casts_append, String.toList_append]
  apply hs.append _ hmove
  intro p hp
  obtain ⟨q, -, rfl⟩ := List.mem_map.1 hp
  omega

namespace Settled

/-- After a settled statement, a further one keeps its pieces and shifts its marks. -/
theorem pieces_append (hs : s.Settled) (t : Statement) :
    (s ++ t).pieces = s.pieces ++ t.pieces.map (Piece.shift s.marks) := by
  have hlater : ∀ p ∈ t.casts.map (byteLength s.sql.toList + ·),
      0 + byteLength s.sql.toList ≤ p := by
    intro p hp
    obtain ⟨q, -, rfl⟩ := List.mem_map.1 hp
    omega
  have happend := Placeholder.pieces_append hs.placed hlater none 0 t.sql.toList
  have hrest : Placeholder.pieces none (byteLength s.sql.toList) s.marks
      (t.casts.map (byteLength s.sql.toList + ·)) t.sql.toList =
      t.pieces.map (Piece.shift s.marks) :=
    (pieces_move _ none 0 s.marks t.casts t.sql.toList).trans
      (pieces_add none 0 s.marks 0 t.casts t.sql.toList)
  rw [pieces, sql_append, casts_append, String.toList_append, happend, hs.closed, Nat.zero_add,
    Nat.zero_add, ← hrest]
  rfl

/-- The placeholders of a statement after a settled one add up. -/
theorem marks_append (hs : s.Settled) (t : Statement) : (s ++ t).marks = s.marks + t.marks := by
  rw [marks, sql_append, String.toList_append, hs.closed.count_append]
  rfl

/-- The text of a statement after a settled one is numbered after the marks of that one. -/
theorem numbered_append (hs : s.Settled) (t : Statement) (marks : Nat) :
    (s ++ t).numbered marks = s.numbered marks ++ t.numbered (marks + s.marks) := by
  have hshift : Piece.shift marks ∘ Piece.shift s.marks = Piece.shift (marks + s.marks) := by
    funext piece
    cases piece <;> simp [Piece.shift, Nat.add_assoc]
  rw [numbered, hs.pieces_append, List.map_append, List.map_map, hshift, List.flatMap_append]
  rfl

/-- Settled statements are settled one after the other. -/
theorem append (hs : s.Settled) (ht : t.Settled) : (s ++ t).Settled := by
  refine ⟨?_, ?_⟩
  · rw [sql_append, String.toList_append]
    exact hs.closed.append ht.closed
  · exact placed_append hs.placed ht.placed

/-- A text that ends outside quotes is a settled statement, with any arguments. -/
theorem withArgs {sql : String} (h : IsClosed sql.toList) (args : List Json) :
    (Statement.withArgs sql args).Settled := ⟨h, placed_nil 0 _⟩

theorem ofText {sql : String} (h : IsClosed sql.toList) : (Statement.ofText sql).Settled :=
  withArgs h []

end Settled

end RecordStore.Statement
