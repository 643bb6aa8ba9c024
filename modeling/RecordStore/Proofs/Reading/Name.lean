import Mathlib.Data.List.Infix
import RecordStore.Sql.Identifier

/-!
# Reading names

SQL text is read from its front: a reader gives what it has read and the text behind that. A quoted
identifier ends at its first quote that is not written twice, so commas, parentheses and keywords
inside of it end nothing. A column is one such identifier, or two with a point between them.
-/

namespace RecordStore.Reading

/-- The text behind a word at the front of a text. -/
def skip? (word : String) (cs : List Char) : Option (List Char) :=
  word.toList.isPrefixOf? cs

/-- The characters of a name whose opening quote has been read, and the text behind the name. -/
def nameRest? : List Char → Option (List Char × List Char)
  | [] => none
  | c :: rest =>
    if c = '"' then
      match rest with
      | '"' :: more => (nameRest? more).map (Prod.map ('"' :: ·) id)
      | _ => some ([], rest)
    else (nameRest? rest).map (Prod.map (c :: ·) id)

/-- The name in the quoted identifier at the front of a text, and the text behind it. -/
def name? (cs : List Char) : Option (String × List Char) :=
  (skip? "\"" cs).bind fun rest ↦ (nameRest? rest).map (Prod.map String.ofList id)

/-- The table and the column in the qualified column at the front of a text, and the text behind
it. -/
def column? (cs : List Char) : Option ((String × String) × List Char) := do
  let (table, behindTable) ← name? cs
  let behindPoint ← skip? "." behindTable
  let (column, behind) ← name? behindPoint
  return ((table, column), behind)

/-- The names of the column at the front of a text, one or two with a point between them, and the
text behind them. -/
def columnNames? (cs : List Char) : Option (List String × List Char) :=
  match column? cs with
  | some ((table, column), behind) => some ([table, column], behind)
  | none => (name? cs).map fun read ↦ ([read.1], read.2)

/-- Items with commas between them at the front of a text, at least one, and the text behind
them. -/
def list? {α : Type} (item? : List Char → Option (α × List Char)) (cs : List Char) :
    Option (List α × List Char) :=
  match item? cs with
  | none => none
  | some (x, rest) =>
    match skip? ", " rest with
    | none => some ([x], rest)
    | some more =>
      -- An item that takes nothing would be read without an end.
      if more.length < cs.length then (list? item? more).map (Prod.map (x :: ·) id) else none
termination_by cs.length

/-- One reader after another reads what both do. -/
theorem bind_eq_some {α β : Type} {first : Option α} {x : α} {next : α → Option β} {y : β}
    (hfirst : first = some x) (hnext : next x = some y) : (first >>= next) = some y := by
  rw [hfirst]
  exact hnext

/-- A word at the front is read. -/
@[simp] theorem skip?_append (word : String) (after : List Char) :
    skip? word (word.toList ++ after) = some after :=
  List.isPrefixOf?_eq_some_iff_append_eq.2 rfl

/-- A word is not read where another character stands. -/
theorem skip?_eq_none {word : String} {c : Char} {more : List Char}
    (hword : word.toList = c :: more) {cs : List Char} (h : cs.head? ≠ some c) :
    skip? word cs = none := by
  rw [skip?, Option.eq_none_iff_forall_ne_some]
  intro rest hrest
  rw [← List.isPrefixOf?_eq_some_iff_append_eq.1 hrest, hword] at h
  exact h rfl

/-- A text that starts with a word starts with no character that the word does not start with. -/
theorem head?_append_ne (word : String) {d : Char} (h : word.toList.head?.any (· ≠ d) = true)
    (after : List Char) : (word.toList ++ after).head? ≠ some d := by
  cases hword : word.toList with
  | nil => simp [hword] at h
  | cons c more => simpa [hword] using h

-- A character that is no quote belongs to the name.
private theorem nameRest?_cons {c : Char} (h : c ≠ '"') (rest : List Char) :
    nameRest? (c :: rest) = (nameRest? rest).map (Prod.map (c :: ·) id) := by
  rw [nameRest?.eq_def]
  exact if_neg h

-- By induction on the name: its own quotes come in pairs, and the closing one is single.
private theorem nameRest?_append (name : List Char) {after : List Char}
    (h : after.head? ≠ some '"') :
    nameRest? (name.flatMap Identifier.quotedChar ++ '"' :: after) = some (name, after) := by
  induction name with
  | nil =>
    rw [List.flatMap_nil, List.nil_append, nameRest?.eq_def]
    dsimp only
    rw [if_pos rfl]
    split
    · exact absurd rfl h
    · rfl
  | cons c name ih =>
    rw [List.flatMap_cons, List.append_assoc, Identifier.quotedChar]
    split
    · next hc =>
      subst hc
      simp [nameRest?, ih]
    · next hc =>
      rw [List.singleton_append, nameRest?_cons hc, ih]
      rfl

/-- A quoted identifier is read as the name, whatever characters that has. -/
theorem name?_quote (name : String) {after : List Char} (h : after.head? ≠ some '"') :
    name? ((Identifier.quote name).toList ++ after) = some (name, after) := by
  have hquote : (Identifier.quote name).toList ++ after =
      "\"".toList ++ (name.toList.flatMap Identifier.quotedChar ++ '"' :: after) := by
    simp [Identifier.quoteChars]
  rw [name?, hquote, skip?_append, Option.bind_some, nameRest?_append name.toList h]
  simp

/-- A qualified column is read as its table and its column, whatever points and quotes they have. -/
theorem column?_qualified (table column : String) {after : List Char}
    (h : after.head? ≠ some '"') :
    column? ((Identifier.qualified table column).toList ++ after) =
      some ((table, column), after) := by
  have hcs : (Identifier.qualified table column).toList ++ after =
      (Identifier.quote table).toList ++
        (".".toList ++ ((Identifier.quote column).toList ++ after)) := by
    simp [Identifier.qualified]
  rw [column?, hcs]
  refine bind_eq_some (name?_quote table (head?_append_ne "." (by decide) _)) ?_
  refine bind_eq_some (skip?_append "." _) ?_
  exact bind_eq_some (name?_quote column h) rfl

/-- A quoted name with no point behind it is read as the only name of its column. -/
theorem columnNames?_quote (name : String) {after : List Char}
    (hquote : after.head? ≠ some '"') (hpoint : after.head? ≠ some '.') :
    columnNames? ((Identifier.quote name).toList ++ after) = some ([name], after) := by
  have hname := name?_quote name hquote
  have hcolumn : column? ((Identifier.quote name).toList ++ after) = none := by
    rw [column?, hname]
    change (skip? "." after).bind _ = none
    rw [skip?_eq_none rfl hpoint, Option.bind_none]
  rw [columnNames?, hcolumn, hname]
  rfl

/-- A qualified column is read as the names of its table and of itself. -/
theorem columnNames?_qualified (table column : String) {after : List Char}
    (h : after.head? ≠ some '"') :
    columnNames? ((Identifier.qualified table column).toList ++ after) =
      some ([table, column], after) := by
  rw [columnNames?, column?_qualified table column h]

/-- Whether a text can stand behind a list of names: it goes on neither with the last name nor with
another one. -/
def EndsList (after : List Char) : Prop := after.head? ≠ some '"' ∧ after.head? ≠ some ','

/-- A word that starts with neither a quote nor a comma ends a list. -/
theorem endsList_append (word : String)
    (h : word.toList.head?.any (fun c ↦ c ≠ '"' ∧ c ≠ ',') = true) (after : List Char) :
    EndsList (word.toList ++ after) := by
  cases hword : word.toList with
  | nil => simp [hword] at h
  | cons c more => simpa [hword, EndsList] using h

/-- Items with commas between them are read one after another when each of them can be read. -/
theorem list?_intercalate {α β : Type} {item? : List Char → Option (α × List Char)}
    {write : β → String} {value : β → α}
    (hitem : ∀ x after, after.head? ≠ some '"' →
      item? ((write x).toList ++ after) = some (value x, after))
    {xs : List β} (hne : xs ≠ []) {after : List Char} (h : EndsList after) :
    list? item? ((String.intercalate ", " (xs.map write)).toList ++ after) =
      some (xs.map value, after) := by
  induction xs with
  | nil => exact absurd rfl hne
  | cons x rest ih =>
    cases rest with
    | nil =>
      rw [list?, List.map_singleton, String.intercalate_singleton, hitem x after h.1]
      dsimp only
      rw [skip?_eq_none rfl h.2]
      rfl
    | cons y ys =>
      have htext : (String.intercalate ", " ((x :: y :: ys).map write)).toList ++ after =
          (write x).toList ++ (", ".toList ++
            ((String.intercalate ", " ((y :: ys).map write)).toList ++ after)) := by
        simp [String.intercalate_cons_cons]
      rw [htext, list?, hitem x _ (head?_append_ne ", " (by decide) _)]
      dsimp only
      rw [skip?_append]
      dsimp only
      rw [ih (by simp), if_pos (by simp; omega)]
      rfl

end RecordStore.Reading
