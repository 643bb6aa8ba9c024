import RecordStore.Sql.Identifier
import RecordStore.Text.Blank

/-!
# Sort directives

A sort directive is a column reference and a direction, ascending when none is given. Directives
are read without regard to case, and two characters outside ASCII that fold to a letter of ASCII,
the long s and the Kelvin sign, pass as that letter.
-/

namespace RecordStore

/-- The direction of a sort. -/
inductive SortDirection where
  | ascending
  | descending
deriving DecidableEq

namespace SortDirection

/-- The keyword of a direction. -/
def keyword : SortDirection → String
  | .ascending => "ASC"
  | .descending => "DESC"

/-- The keyword of a direction in lower case. -/
def lowerKeyword : SortDirection → String
  | .ascending => "asc"
  | .descending => "desc"

end SortDirection

/-- A column and the direction it is sorted in. -/
structure SortDirective where
  column : String
  direction : SortDirection
deriving DecidableEq

namespace SortDirective

/-- A character without its case: the lower-case letter of ASCII that it folds to, if any. -/
def foldCase (c : Char) : Char :=
  if c = '\u017F' then 's' else if c = '\u212A' then 'k' else c.toLower

/-- The direction that a word names, in any case. -/
def direction? (word : List Char) : Option SortDirection :=
  let folded := word.map foldCase
  if folded = ['a', 's', 'c'] then some .ascending
  else if folded = ['d', 'e', 's', 'c'] then some .descending
  else none

/-- The directive that a text with no blanks around it holds. -/
def ofChars? (cs : List Char) : Option SortDirective :=
  let column := cs.takeWhile fun c ↦ !isBlankChar c
  let rest := cs.dropWhile fun c ↦ !isBlankChar c
  if Identifier.isReference (fun c ↦ (foldCase c).isAlpha) column then
    match rest with
    | [] => some ⟨String.ofList column, .ascending⟩
    | _ => (direction? (rest.dropWhile isBlankChar)).map fun d ↦ ⟨String.ofList column, d⟩
  else none

/-- The directive that a text holds: a column reference and, after blanks, a direction. -/
def ofText? (text : String) : Option SortDirective := ofChars? (trimChars text.toList)

/-- The directive as SQL: the column as it was given and the keyword. -/
def text (d : SortDirective) : String := d.column ++ " " ++ d.direction.keyword

/-- The normal form of a directive's text; none for a text that holds no directive. -/
def normalize? (directive : String) : Option String := (ofText? directive).map text

end SortDirective

end RecordStore
