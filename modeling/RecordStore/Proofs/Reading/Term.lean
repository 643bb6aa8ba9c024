import RecordStore.Proofs.Reading.Lexeme

/-!
# Terms of SQL text

The parentheses of a text nest: a term is a token, or a list of terms between two parentheses. A
text has terms exactly when its lexemes are those of the terms in order, so its terms are unique.
-/

namespace RecordStore.Reading

/-- A token, or the terms between two parentheses. -/
inductive Term where
  | token (t : Token)
  | paren (inside : List Term)

mutual

/-- The lexemes of a term. -/
def Term.lexemes : Term → List Lexeme
  | .token t => [.token t]
  | .paren inside => .opening :: (termLexemes inside ++ [.closing])

/-- The lexemes of terms in order. -/
def termLexemes : List Term → List Lexeme
  | [] => []
  | t :: rest => t.lexemes ++ termLexemes rest

end

/-- The terms read so far: those since the last parenthesis that is still open, then those in front
of it, and so on outwards. -/
abbrev Stack := List (List Term)

/-- The stack after a lexeme; none when a parenthesis is closed that was not opened. -/
def Lexeme.push? : Lexeme → Stack → Option Stack
  | .opening, stack => some ([] :: stack)
  | .token t, inside :: stack => some ((inside ++ [.token t]) :: stack)
  | .closing, inside :: outside :: stack => some ((outside ++ [.paren inside]) :: stack)
  | _, _ => none

/-- The stack after lexemes. -/
def pushAll? : List Lexeme → Stack → Option Stack
  | [], stack => some stack
  | l :: rest, stack => (l.push? stack).bind (pushAll? rest)

/-- The terms that lexemes nest to; none when a parenthesis is left open or closed too often. -/
def nest? (ls : List Lexeme) : Option (List Term) :=
  match pushAll? ls [[]] with
  | some [ts] => some ts
  | _ => none

/-- The terms of a text. -/
def terms? (cs : List Char) : Option (List Term) := (lexemes? cs).bind nest?

/-- The terms of two lists have the lexemes of both. -/
theorem termLexemes_append (a b : List Term) :
    termLexemes (a ++ b) = termLexemes a ++ termLexemes b := by
  induction a with
  | nil => rfl
  | cons t rest ih => simp [termLexemes, ih]

/-- Tokens are their own lexemes. -/
theorem termLexemes_map_token (ts : List Token) : termLexemes (ts.map .token) = ts.map .token := by
  induction ts with
  | nil => rfl
  | cons t rest ih => simp [termLexemes, Term.lexemes, ih]

/-- Lexemes are pushed one list after the other. -/
theorem pushAll?_append (a b : List Lexeme) (stack : Stack) :
    pushAll? (a ++ b) stack = (pushAll? a stack).bind (pushAll? b) := by
  induction a generalizing stack with
  | nil => rfl
  | cons l rest ih =>
    simp only [List.cons_append, pushAll?, Option.bind_assoc]
    congr 1
    funext later
    exact ih later

mutual

/-- Pushing the lexemes of a term adds the term. -/
theorem pushAll?_term (t : Term) (inside : List Term) (stack : Stack) :
    pushAll? t.lexemes (inside :: stack) = some ((inside ++ [t]) :: stack) := by
  match t with
  | .token t => rfl
  | .paren ts =>
    rw [Term.lexemes, pushAll?]
    change pushAll? (termLexemes ts ++ [.closing]) ([] :: inside :: stack) = _
    rw [pushAll?_append, pushAll?_termLexemes ts]
    rfl

/-- Pushing the lexemes of terms adds the terms. -/
theorem pushAll?_termLexemes (ts : List Term) (inside : List Term) (stack : Stack) :
    pushAll? (termLexemes ts) (inside :: stack) = some ((inside ++ ts) :: stack) := by
  match ts with
  | [] => simp [termLexemes, pushAll?]
  | t :: rest =>
    rw [termLexemes, pushAll?_append, pushAll?_term t]
    change pushAll? (termLexemes rest) ((inside ++ [t]) :: stack) = _
    rw [pushAll?_termLexemes rest]
    simp

end

/-- The lexemes that a stack has been read from. -/
def stackLexemes : Stack → List Lexeme
  | [] => []
  | [bottom] => termLexemes bottom
  | inside :: stack => stackLexemes stack ++ .opening :: termLexemes inside

/-- A lexeme that is pushed is read after those of the stack. -/
theorem stackLexemes_of_push? {l : Lexeme} {stack later : Stack} (h : l.push? stack = some later)
    (hne : stack ≠ []) : stackLexemes later = stackLexemes stack ++ [l] ∧ later ≠ [] := by
  cases stack with
  | nil => exact absurd rfl hne
  | cons inside outer =>
    cases l with
    | opening =>
      obtain rfl : [] :: inside :: outer = later := by simpa [Lexeme.push?] using h
      simp [stackLexemes, termLexemes]
    | token t =>
      obtain rfl : (inside ++ [.token t]) :: outer = later := by simpa [Lexeme.push?] using h
      cases outer with
      | nil => simp [stackLexemes, termLexemes_append, termLexemes, Term.lexemes]
      | cons outside deeper =>
        simp [stackLexemes, termLexemes_append, termLexemes, Term.lexemes]
    | closing =>
      cases outer with
      | nil => simp [Lexeme.push?] at h
      | cons outside deeper =>
        obtain rfl : (outside ++ [.paren inside]) :: deeper = later := by
          simpa [Lexeme.push?] using h
        cases deeper with
        | nil => simp [stackLexemes, termLexemes_append, termLexemes, Term.lexemes]
        | cons next deepest =>
          simp [stackLexemes, termLexemes_append, termLexemes, Term.lexemes]

/-- Lexemes that are pushed are read after those of the stack. -/
theorem stackLexemes_of_pushAll? {ls : List Lexeme} {stack later : Stack}
    (h : pushAll? ls stack = some later) (hne : stack ≠ []) :
    stackLexemes later = stackLexemes stack ++ ls := by
  induction ls generalizing stack with
  | nil =>
    obtain rfl : stack = later := by simpa [pushAll?] using h
    simp
  | cons l rest ih =>
    rw [pushAll?] at h
    obtain ⟨middle, hl, hrest⟩ := Option.bind_eq_some_iff.1 h
    obtain ⟨hmiddle, hmiddle_ne⟩ := stackLexemes_of_push? hl hne
    rw [ih hrest hmiddle_ne, hmiddle]
    simp

/-- Lexemes nest to terms exactly when they are the lexemes of the terms. -/
theorem nest?_eq_some_iff {ls : List Lexeme} {ts : List Term} :
    nest? ls = some ts ↔ ls = termLexemes ts := by
  constructor
  · intro h
    rw [nest?] at h
    split at h
    · next inside hpush =>
      obtain rfl : inside = ts := by simpa using h
      exact (stackLexemes_of_pushAll? hpush (by simp)).symm
    · simp at h
  · rintro rfl
    rw [nest?, pushAll?_termLexemes ts]
    rfl

/-- A text has terms exactly when it has their lexemes. -/
theorem terms?_eq_some_iff {cs : List Char} {ts : List Term} :
    terms? cs = some ts ↔ lexemes? cs = some (termLexemes ts) := by
  rw [terms?, Option.bind_eq_some_iff]
  constructor
  · rintro ⟨ls, hls, hts⟩
    rw [hls, nest?_eq_some_iff.1 hts]
  · intro h
    exact ⟨_, h, nest?_eq_some_iff.2 rfl⟩

/-- Two texts under a conjunction have the terms of both with the keyword between them. -/
theorem terms?_append_separator {a b : List Char} {ta tb : List Term} (ha : terms? a = some ta)
    (c : Conjunction) (hb : terms? b = some tb) :
    terms? (a ++ c.separator.toList ++ b) = some (ta ++ .token (connective c) :: tb) := by
  rw [terms?_eq_some_iff] at ha hb ⊢
  rw [lexemes?_append_separator ha, hb]
  simp [termLexemes_append, termLexemes, Term.lexemes]

/-- A text in parentheses is one term. -/
theorem terms?_paren {a : List Char} {ts : List Term} (h : terms? a = some ts) :
    terms? ('(' :: (a ++ [')'])) = some [.paren ts] := by
  rw [terms?_eq_some_iff] at h ⊢
  rw [lexemes?_paren h]
  simp [termLexemes, Term.lexemes]

end RecordStore.Reading
