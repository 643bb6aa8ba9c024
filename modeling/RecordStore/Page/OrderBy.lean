import RecordStore.Sql.SortDirective

/-!
# The sort parameter of a request

Entries are separated by commas and trimmed. An entry is `column`, `column word` with one space, or
`word(column)`; the word `asc` in any case sorts upwards, and any other word or none downwards. An
entry of another form is dropped.
-/

namespace RecordStore

namespace OrderBy

/-- Whether a character may stand inside the brackets of an entry. -/
def isBracketed (c : Char) : Bool := !(c = '(' || c = ')' || isBlankChar c)

/-- The word and the column of an entry `word(column)`. -/
def bracketForm? (entry : List Char) : Option (List Char × List Char) :=
  let word := entry.takeWhile Char.isAlpha
  match entry.dropWhile Char.isAlpha with
  | '(' :: rest =>
    let column := rest.takeWhile isBracketed
    if rest.dropWhile isBracketed = [')'] ∧ word ≠ [] ∧ column ≠ [] then some (word, column)
    else none
  | _ => none

/-- The word and the column of an entry, the word being empty when there is none. -/
def wordAndColumn? (entry : List Char) : Option (List Char × List Char) :=
  match bracketForm? entry with
  | some parts => some parts
  | none =>
    match splitAll ' ' entry with
    | [column] => some ([], column)
    | [column, word] => some (word, column)
    | _ => none

/-- The direction of a word: upwards for `asc` in any case, and else downwards. -/
def direction (word : List Char) : SortDirection :=
  if word.map Char.toLower = ['a', 's', 'c'] then .ascending else .descending

/-- The directive of one entry. -/
def entry? (entry : List Char) : Option SortDirective :=
  match wordAndColumn? entry with
  | some (word, column) =>
    if Identifier.isReference Char.isAlpha column then
      some ⟨String.ofList column, direction word⟩
    else none
  | none => none

/-- The directives of a sort parameter, in order. -/
def directives (parameter : String) : List SortDirective :=
  (splitAll ',' parameter.toList).filterMap fun entry ↦ entry? (trimChars entry)

/-- A directive as a request writes it, with its direction in lower case. -/
def requestText (d : SortDirective) : String := d.column ++ " " ++ d.direction.lowerKeyword

/-- The directives of a sort parameter as texts. -/
def parse (parameter : String) : List String := (directives parameter).map requestText

end OrderBy

end RecordStore
