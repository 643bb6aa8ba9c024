import RecordStore.Sql.Expr

/-!
# Lexemes of SQL text

SQL text is read as words, quoted parts, symbols and parentheses; white space only parts them. A
word is a longest run of word characters, so a keyword stands alone wherever white space, a
parenthesis, a quote or an operator is next to it. Texts that open a comment, an escape string or a
dollar quote have no reading here, and neither has a text that ends inside quotes.
-/

namespace RecordStore.Reading

/-- A unit of SQL text that is no parenthesis. -/
inductive Token where
  | word (cs : List Char)
  | quoted (mark : Char) (cs : List Char)
  | symbol (c : Char)
deriving DecidableEq

/-- A unit of SQL text. -/
inductive Lexeme where
  | token (t : Token)
  | opening
  | closing
deriving DecidableEq

/-- Whether a token is a keyword, given in upper case. Keywords are read without regard to case. -/
def Token.isKeyword (keyword : List Char) : Token → Bool
  | .word cs => cs.map Char.toUpper = keyword
  | _ => false

/-- The characters of words: letters, digits, underscores, dollar signs, points, and every character
outside ASCII. -/
def isWordChar (c : Char) : Bool :=
  c.isAlphanum || c = '_' || c = '$' || c = '.' || 128 ≤ c.toNat

/-- The white space of SQL. -/
def isSpaceChar (c : Char) : Bool := c ∈ [' ', '\t', '\n', '\r', '\x0c']

/-- Whether a character opens a part that has no reading: a comment, an escape string or a dollar
quote. The word in front of it and the character after it decide. -/
def opensUnread (pending : List Char) (c : Char) (next : Option Char) : Bool :=
  (c = '-' && next = some '-') || (c = '/' && next = some '*') ||
    (c = '\'' && (pending = ['e'] || pending = ['E'])) || (c = '$' && pending.head? = some '$')

/-- The word that ends here, if one has begun. -/
def flush (pending : List Char) : List Lexeme :=
  if pending.isEmpty then [] else [.token (.word pending)]

/-- What a character outside words and quotes stands for. -/
def charLexemes (c : Char) : List Lexeme :=
  if isSpaceChar c then []
  else if c = '(' then [.opening]
  else if c = ')' then [.closing]
  else [.token (.symbol c)]

/-- The lexemes of a text that starts in an open quote, if any, and with the characters that are
pending: those of the quote or of a word that has begun. -/
def lexemesFrom (quote : Option Char) (pending : List Char) : List Char → Option (List Lexeme)
  | [] => if quote.isSome then none else some (flush pending)
  | c :: rest =>
    match quote with
    | some mark =>
      if c = mark then (lexemesFrom none [] rest).map (.token (.quoted mark pending) :: ·)
      else lexemesFrom (some mark) (pending ++ [c]) rest
    | none =>
      if opensUnread pending c rest.head? then none
      else if isWordChar c then lexemesFrom none (pending ++ [c]) rest
      else if c = '\'' ∨ c = '"' then
        (lexemesFrom (some c) [] rest).map (flush pending ++ ·)
      else (lexemesFrom none [] rest).map (flush pending ++ charLexemes c ++ ·)

/-- The lexemes of a text. -/
def lexemes? (cs : List Char) : Option (List Lexeme) := lexemesFrom none [] cs

/-! ### Texts one after another -/

/-- The characters that end a word and begin nothing: a blank and the parentheses. -/
def isBreakChar (c : Char) : Bool := c ∈ [' ', '(', ')']

private theorem eq_of_isBreakChar {c : Char} (h : isBreakChar c = true) :
    c = ' ' ∨ c = '(' ∨ c = ')' := by
  simpa [isBreakChar] using h

-- A breaking character neither opens an unread part nor completes one that a character before
-- opens.
private theorem opensUnread_break (pending : List Char) {c : Char} (h : isBreakChar c = true)
    (next : Option Char) : opensUnread pending c next = false := by
  obtain rfl | rfl | rfl := eq_of_isBreakChar h <;> simp [opensUnread]

private theorem opensUnread_append_break {pending : List Char} {c d : Char} {rest after : List Char}
    (hd : isBreakChar d = true) (h : opensUnread pending c rest.head? = false) :
    opensUnread pending c (rest ++ d :: after).head? = false := by
  cases rest with
  | cons e rest => exact h
  | nil =>
    obtain rfl | rfl | rfl := eq_of_isBreakChar hd <;> simpa [opensUnread] using h

/-- A text that is read is read the same in front of a breaking character. -/
theorem lexemesFrom_append {quote : Option Char} {pending cs : List Char} {ls : List Lexeme}
    (h : lexemesFrom quote pending cs = some ls) {d : Char} (hd : isBreakChar d = true)
    (after : List Char) :
    lexemesFrom quote pending (cs ++ d :: after) =
      (lexemesFrom none [] after).map (ls ++ charLexemes d ++ ·) := by
  induction cs generalizing quote pending ls with
  | nil =>
    cases quote with
    | some mark => simp [lexemesFrom] at h
    | none =>
      have hls : flush pending = ls := by simpa [lexemesFrom] using h
      have hword : isWordChar d = false := by
        obtain rfl | rfl | rfl := eq_of_isBreakChar hd <;> decide
      have hquote : ¬(d = '\'' ∨ d = '"') := by
        obtain rfl | rfl | rfl := eq_of_isBreakChar hd <;> decide
      simp [lexemesFrom, opensUnread_break pending hd, hword, hquote, hls]
  | cons c rest ih =>
    cases quote with
    | some mark =>
      simp only [List.cons_append, lexemesFrom] at h ⊢
      split at h
      · next hc =>
        obtain ⟨more, hmore, rfl⟩ := Option.map_eq_some_iff.1 h
        simp only [hc, ↓reduceIte, ih hmore, Option.map_map]
        rfl
      · next hc => simp only [hc, ↓reduceIte, ih h]
    | none =>
      simp only [List.cons_append, lexemesFrom] at h ⊢
      cases ho : opensUnread pending c rest.head? with
      | true => simp [ho] at h
      | false =>
        rw [opensUnread_append_break hd ho]
        simp only [ho, Bool.false_eq_true, ↓reduceIte] at h ⊢
        split at h
        · next hw => simp only [hw, ↓reduceIte, ih h]
        · next hw =>
          simp only [hw, ↓reduceIte, Bool.false_eq_true]
          split at h
          all_goals
            next hq =>
            obtain ⟨more, hmore, rfl⟩ := Option.map_eq_some_iff.1 h
            simp only [hq, ↓reduceIte, ih hmore, Option.map_map]
            congr 1
            funext ls
            simp [List.append_assoc]

/-- The keyword of a conjunction. -/
def keyword : Conjunction → List Char
  | .and => ['A', 'N', 'D']
  | .or => ['O', 'R']

/-- The keyword of a conjunction as it is written between filters. -/
def connective (c : Conjunction) : Token := .word (keyword c)

-- A keyword with a blank after it is one word.
private theorem lexemes?_keyword (c : Conjunction) (cs : List Char) :
    lexemes? (keyword c ++ ' ' :: cs) = (lexemes? cs).map (.token (connective c) :: ·) := by
  have hbreak : isBreakChar ' ' = true := rfl
  have hword : lexemesFrom none [] (keyword c) = some [.token (connective c)] := by
    cases c <;> decide
  rw [lexemes?, lexemesFrom_append hword hbreak]
  rfl

/-- Two texts under a conjunction have the lexemes of both with the keyword between them. -/
theorem lexemes?_append_separator {a : List Char} {ls : List Lexeme} (h : lexemes? a = some ls)
    (c : Conjunction) (b : List Char) :
    lexemes? (a ++ c.separator.toList ++ b) =
      (lexemes? b).map (ls ++ .token (connective c) :: ·) := by
  have hsep : c.separator.toList = ' ' :: (keyword c ++ [' ']) := by cases c <;> decide
  have hbreak : isBreakChar ' ' = true := rfl
  have htext : a ++ c.separator.toList ++ b = a ++ ' ' :: (keyword c ++ ' ' :: b) := by
    simp [hsep]
  rw [htext, lexemes?, lexemesFrom_append h hbreak]
  change (lexemes? (keyword c ++ ' ' :: b)).map _ = _
  rw [lexemes?_keyword, Option.map_map]
  congr 1
  funext more
  simp [charLexemes, isSpaceChar]

/-- A text in parentheses has its lexemes between the two parentheses. -/
theorem lexemes?_paren {a : List Char} {ls : List Lexeme} (h : lexemes? a = some ls) :
    lexemes? ('(' :: (a ++ [')'])) = some (.opening :: (ls ++ [.closing])) := by
  have hclose : lexemesFrom none [] (a ++ [')']) = some (ls ++ [.closing]) := by
    rw [lexemesFrom_append h rfl]
    simp [lexemesFrom, flush, charLexemes, isSpaceChar]
  have hnone : lexemesFrom none [] [] = some [] := rfl
  have hbreak : isBreakChar '(' = true := rfl
  have hopen := lexemesFrom_append hnone hbreak (a ++ [')'])
  rw [hclose] at hopen
  exact hopen

end RecordStore.Reading
