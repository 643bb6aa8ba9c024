import RecordStore.Integer.Text
import RecordStore.Sql.Statement

/-!
# Numbered placeholders

PostgreSQL numbers its placeholders: the k-th `?` outside quotes becomes `$k`. A quote is opened by
`'` or `"` and closed by the same character, and nothing inside it changes. Where the next place of
a statement is reached, `::text` is written in front of the character that stands there; a place
that is passed without being reached holds up the places after it.
-/

namespace RecordStore

namespace Placeholder

/-- The quote that is open after a character, given the one that is open before it. -/
def quoteAfter (quote : Option Char) (c : Char) : Option Char :=
  match quote with
  | none => if c = '\'' ∨ c = '"' then some c else none
  | some mark => if c = mark then none else some mark

/-- The quote that is open after a text. -/
def quoteAfterAll (quote : Option Char) (cs : List Char) : Option Char := cs.foldl quoteAfter quote

/-- Whether a character is a placeholder where it stands. -/
def isPlaceholder (quote : Option Char) (c : Char) : Bool := quote.isNone && c = '?'

/-- The number of placeholders of a text. -/
def count (quote : Option Char) : List Char → Nat
  | [] => 0
  | c :: rest => (if isPlaceholder quote c then 1 else 0) + count (quoteAfter quote c) rest

/-- The cast that makes a column read as text. -/
def castText : List Char := [':', ':', 't', 'e', 'x', 't']

/-- The text with its placeholders numbered from the one after `marks` on and its casts written.
`offset` is the byte offset of the text and `places` holds the places not reached so far. -/
def number (quote : Option Char) (offset marks : Nat) (places : List Nat) :
    List Char → List Char
  | [] => if places.head? = some offset then castText else []
  | c :: rest =>
    let reached := places.takeWhile (· = offset)
    let later := places.dropWhile (· = offset)
    let following := quoteAfter quote c
    reached.flatMap (fun _ ↦ castText) ++
      if isPlaceholder quote c then
        '$' :: (decimalDigits (marks + 1) ++
          number following (offset + c.utf8Size) (marks + 1) later rest)
      else c :: number following (offset + c.utf8Size) marks later rest

end Placeholder

/-- The text of a statement as PostgreSQL takes it. -/
def Statement.toPostgres (s : Statement) : String :=
  String.ofList (Placeholder.number none 0 0 s.casts s.sql.toList)

end RecordStore
