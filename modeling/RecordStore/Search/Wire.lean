import RecordStore.Json.Record
import RecordStore.Search.Keyword

/-!
# Keyword groups as JSON

A group is an object with `condition` and `options`, an option one with `type`, `key` and `value`.
Every member has to be there; a value may be null.
-/

namespace RecordStore

namespace KeywordMatch

/-- The name of a kind of match. -/
def name : KeywordMatch → String
  | .exact => "must_match"
  | .wildcard => "wildcard"

/-- The kind of match with a name. -/
def ofName? (name : String) : Option KeywordMatch :=
  if name = "must_match" then some .exact
  else if name = "wildcard" then some .wildcard
  else none

end KeywordMatch

namespace Conjunction

/-- The name of a conjunction. -/
def name : Conjunction → String
  | .and => "and"
  | .or => "or"

/-- The conjunction with a name. -/
def ofName? (name : String) : Option Conjunction :=
  if name = "and" then some .and else if name = "or" then some .or else none

end Conjunction

namespace KeywordOption

/-- An option as JSON. -/
def toJson (o : KeywordOption) : Json :=
  (Fields.ofList
    [("type", .string o.kind.name), ("key", .string o.key), ("value", o.value)]).toJson

/-- The option that a value holds. -/
def ofJson? (v : Json) : Option KeywordOption := do
  let [some kind, some key, some value] ← v.members? ["type", "key", "value"] | none
  return ⟨← kind.tag?.bind KeywordMatch.ofName?, ← key.string?, value⟩

end KeywordOption

namespace KeywordGroup

/-- A group as JSON. -/
def toJson (g : KeywordGroup) : Json :=
  (Fields.ofList
    [("condition", .string g.conjunction.name),
      ("options", .array (g.options.map KeywordOption.toJson))]).toJson

/-- The group that a value holds. -/
def ofJson? (v : Json) : Option KeywordGroup := do
  let [some condition, some options] ← v.members? ["condition", "options"] | none
  let items ← options.items?
  return ⟨← condition.tag?.bind Conjunction.ofName?, ← items.mapM KeywordOption.ofJson?⟩

end KeywordGroup

end RecordStore
