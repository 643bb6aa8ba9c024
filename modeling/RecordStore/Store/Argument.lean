import RecordStore.Json.Basic

/-!
# Bound arguments

The arguments of a statement reach the database with a type: a scalar with its own, an array or an
object as JSON, and null as a text that is null.
-/

namespace RecordStore

/-- A value with the type that it is bound with. -/
inductive Argument where
  | text (s : Option String)
  | bool (b : Bool)
  | int8 (n : Int64)
  | float8 (x : Binary64)
  | jsonb (v : Json)
deriving DecidableEq

/-- A JSON value bound as an argument. A number that is no signed 64-bit integer is bound as the
real nearest to it. -/
def Argument.ofJson : Json → Argument
  | .null => .text none
  | .bool b => .bool b
  | .number n =>
    match n.toInt64? with
    | some word => .int8 word
    | none => .float8 n.toReal
  | .string s => .text (some s)
  | .array items => .jsonb (.array items)
  | .object entries => .jsonb (.object entries)

end RecordStore
