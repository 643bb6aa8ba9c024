import RecordStore.Sql.Expr
import RecordStore.Sql.Identifier

/-!
# Conditions of one operation

A condition narrows a single operation: by the primary key, by the value of a column, or by
hand-written SQL. An equality also pins the value that a new row gets.
-/

namespace RecordStore

/-- A condition of one operation. -/
inductive Condition where
  /-- The primary key is the value, or one of the values of an array. -/
  | primaryKey (value : Json)
  /-- The column is the value. -/
  | equal (column : String) (value : Json)
  /-- Hand-written SQL with its arguments. -/
  | raw (sql : String) (args : List Json)
deriving DecidableEq

namespace Condition

/-- A column that is already quoted compared with a value; null is tested by `IS NULL`. -/
def equality (column : String) (value : Json) : Expr :=
  if value.isNull then .raw (column ++ " IS NULL") [] else .raw (column ++ " = ?") [value]

/-- A column that is already quoted compared with several values; none of them is never met. -/
def membership (column : String) (values : List Json) : Expr :=
  if values.isEmpty then .raw "1 = 0" []
  else
    .raw (column ++ " IN (" ++ String.intercalate ", " (values.map fun _ ↦ "?") ++ ")") values

/-- The filter of a condition on a table. -/
def toExpr (table primaryKey : String) : Condition → Expr
  | .primaryKey (.array values) => membership (Identifier.qualified table primaryKey) values
  | .primaryKey value => equality (Identifier.qualified table primaryKey) value
  | .equal column value => equality (Identifier.quoteReference column) value
  | .raw sql args => .raw sql args

/-- The column, without its table, and the value that a new row takes from a condition. -/
def pinned? (primaryKey : String) : Condition → Option (String × Json)
  | .primaryKey value =>
    if value.isArray || value.isNull then none else some (primaryKey, value)
  | .equal column value =>
    if value.isNull then none
    else some (String.ofList (afterLast '.' column.toList), value)
  | .raw _ _ => none

/-- The primary key is compared with every value but an array. -/
theorem toExpr_primaryKey {value : Json} (h : value.isArray = false) (table primaryKey : String) :
    (Condition.primaryKey value).toExpr table primaryKey =
      equality (Identifier.qualified table primaryKey) value := by
  cases value with
  | array values => cases h
  | _ => rfl

end Condition

end RecordStore
