import RecordStore.Json.Fields

/-!
# Records as JSON

A record with named members is written as an object. It is read from an object, whose other names
are ignored, or from an array that holds the members in their order and nothing after them. A tag
is written as a text, and is read from one or from an object with that one name and the value null.
-/

namespace RecordStore

namespace Json

/-- The value of each member of a record, none for one that is absent. -/
def members? (names : List String) : Json → Option (List (Option Json))
  | .object entries => some (names.map fun name ↦ Fields.lookup name entries)
  | .array items =>
    if items.length ≤ names.length then
      some (items.map some ++ List.replicate (names.length - items.length) none)
    else none
  | _ => none

/-- The name of a tag. -/
def tag? : Json → Option String
  | .string name => some name
  | .object [(name, .null)] => some name
  | _ => none

/-- The text that a value is. -/
def string? : Json → Option String
  | .string s => some s
  | _ => none

/-- The items that a value has as an array. -/
def items? : Json → Option (List Json)
  | .array items => some items
  | _ => none

/-- The signed 64-bit integer that a value is. -/
def int64? : Json → Option Int64
  | .number n => n.toInt64?
  | _ => none

/-- The texts that a value has as an array of texts. -/
def strings? (v : Json) : Option (List String) := v.items?.bind fun items ↦ items.mapM string?

end Json

end RecordStore
