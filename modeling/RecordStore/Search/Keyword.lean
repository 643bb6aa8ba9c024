import RecordStore.Json.Printer
import RecordStore.Sql.Expr
import RecordStore.Sql.Identifier

/-!
# Keyword search

A keyword option asks that a column equals a value or holds its text. A group combines options
under one conjunction and compiles to a filter. An option without a value, or whose column is not a
plain column reference, takes no part.
-/

namespace RecordStore

/-- How a column is compared with a keyword. -/
inductive KeywordMatch where
  /-- The column equals the value. -/
  | exact
  /-- The column holds the value's text. -/
  | wildcard
deriving DecidableEq

/-- A column and the keyword it is compared with. -/
structure KeywordOption where
  kind : KeywordMatch
  key : String
  value : Json
deriving DecidableEq

/-- Keyword options under one conjunction. -/
structure KeywordGroup where
  conjunction : Conjunction
  options : List KeywordOption
deriving DecidableEq

namespace KeywordOption

/-- Whether a value is a keyword: null and the empty text are none. -/
def isKeyword : Json → Bool
  | .null => false
  | .string s => !s.isEmpty
  | _ => true

/-- Whether an option takes part in its group. -/
def isApplicable (o : KeywordOption) : Bool :=
  !o.key.isEmpty && isKeyword o.value && Identifier.isColumnReference o.key

/-- The text that a wildcard looks for: a text itself, or the JSON text of another value. -/
def searchedText : Json → String
  | .string s => s
  | v => v.text

/-- The pattern of texts that hold a given one. The text stands in it as it is. -/
def holding (text : String) : String := "%" ++ text ++ "%"

/-- The comparison that an option stands for. -/
def toExpr (o : KeywordOption) : Expr :=
  match o.kind with
  | .exact => .compare o.key "=" o.value
  | .wildcard => .compare o.key "LIKE" (.string (holding (searchedText o.value)))

/-- One option for each column, all with one kind and one value. -/
def forColumns (kind : KeywordMatch) (columns : List String) (value : Json) :
    List KeywordOption :=
  columns.map fun column ↦ ⟨kind, column, value⟩

end KeywordOption

namespace KeywordGroup

/-- The filter of a group: none without an applicable option, the comparison itself for one, and
otherwise a group of comparisons under the same conjunction. -/
def compile (g : KeywordGroup) : Option Expr :=
  match (g.options.filter KeywordOption.isApplicable).map KeywordOption.toExpr with
  | [] => none
  | [only] => some only
  | members => some (.group g.conjunction members)

/-- The group that looks for a text in any of several columns. -/
def anywhere (text : String) (columns : List String) : KeywordGroup :=
  ⟨.or, KeywordOption.forColumns .wildcard columns (.string text)⟩

end KeywordGroup

end RecordStore
