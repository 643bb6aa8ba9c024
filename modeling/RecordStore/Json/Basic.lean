import RecordStore.Json.Number

/-!
# JSON values

A value is null, a truth value, a number, a text, an array or an object. The entries of an object
stand in the order of their names, each name once; `Fields` builds such lists. Values are compared
in two ways: as data, which keeps `0.0` and `-0.0` apart, and by value, which does not.
-/

namespace RecordStore

/-- A JSON value. -/
inductive Json where
  | null
  | bool (b : Bool)
  | number (n : Number)
  | string (s : String)
  | array (items : List Json)
  | object (entries : List (String × Json))
deriving Inhabited

namespace Json

/-- An integer as a JSON value. -/
def int (n : Int) : Json := .number (.integer n)

/-- Whether a value is null. -/
def isNull : Json → Bool
  | .null => true
  | _ => false

/-- Whether a value is a text. -/
def isString : Json → Bool
  | .string _ => true
  | _ => false

/-- Whether a value is an array. -/
def isArray : Json → Bool
  | .array _ => true
  | _ => false

/-- Whether a key with this value has not been assigned yet: null, zero of either kind, or the
empty text. -/
def isUnassigned : Json → Bool
  | .null => true
  | .number n => n.isZero
  | .string s => s.isEmpty
  | _ => false

mutual

/-- Whether two values have one shape, the same texts and numbers that match. -/
def alike (same : Number → Number → Bool) : Json → Json → Bool
  | .null, .null => true
  | .bool a, .bool b => a = b
  | .number m, .number n => same m n
  | .string s, .string t => s = t
  | .array xs, .array ys => alikeItems same xs ys
  | .object xs, .object ys => alikeEntries same xs ys
  | _, _ => false

/-- Whether two lists of values are alike one by one. -/
def alikeItems (same : Number → Number → Bool) : List Json → List Json → Bool
  | [], [] => true
  | x :: xs, y :: ys => x.alike same y && alikeItems same xs ys
  | _, _ => false

/-- Whether two lists of entries have the same names and values that are alike, one by one. -/
def alikeEntries (same : Number → Number → Bool) :
    List (String × Json) → List (String × Json) → Bool
  | [], [] => true
  | (k, x) :: xs, (l, y) :: ys => k = l && x.alike same y && alikeEntries same xs ys
  | _, _ => false

end

/-- Whether two values are equal as values: numbers of one kind by their value, all else exactly. -/
def sameValue : Json → Json → Bool := alike Number.sameValue

-- Being alike with numbers matched exactly is equality; the three parts are proved together.
mutual

private theorem alike_eq_iff (x y : Json) :
    x.alike (fun m n ↦ decide (m = n)) y = true ↔ x = y := by
  cases x <;> cases y <;> simp [alike]
  case array.array xs ys => exact alikeItems_eq_iff xs ys
  case object.object xs ys => exact alikeEntries_eq_iff xs ys

private theorem alikeItems_eq_iff (xs ys : List Json) :
    alikeItems (fun m n ↦ decide (m = n)) xs ys = true ↔ xs = ys := by
  match xs, ys with
  | [], [] => simp [alikeItems]
  | [], _ :: _ => simp [alikeItems]
  | _ :: _, [] => simp [alikeItems]
  | x :: xs, y :: ys => simp [alikeItems, alike_eq_iff x y, alikeItems_eq_iff xs ys]

private theorem alikeEntries_eq_iff (xs ys : List (String × Json)) :
    alikeEntries (fun m n ↦ decide (m = n)) xs ys = true ↔ xs = ys := by
  match xs, ys with
  | [], [] => simp [alikeEntries]
  | [], _ :: _ => simp [alikeEntries]
  | _ :: _, [] => simp [alikeEntries]
  | (k, x) :: xs, (l, y) :: ys =>
    simp [alikeEntries, alike_eq_iff x y, alikeEntries_eq_iff xs ys, and_assoc]

end

/-- Equality of values as data is decided by comparing them part by part. -/
instance : DecidableEq Json := fun x y ↦ decidable_of_iff _ (alike_eq_iff x y)

end Json

end RecordStore
