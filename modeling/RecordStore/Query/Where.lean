import RecordStore.Query.Basic
import RecordStore.Sql.Conditions

/-!
# Which rows a statement is about

The filters of a query, then the conditions of the operation, then the scope that leaves out rows
marked as deleted. What writes nothing is dropped before.
-/

namespace RecordStore

namespace Query

/-- The filters of a query and the conditions of an operation, without the scope. -/
def callerFilters (q : Query) (conds : List Condition) : List Expr :=
  Expr.nonEmpty (q.filters ++ conds.map (Condition.toExpr q.table q.primaryKey))

/-- The filter that leaves out rows marked as deleted. -/
def scope (q : Query) : List Expr :=
  match q.identity.softDelete with
  | some column =>
    if q.includesDeleted then []
    else [.raw (Identifier.qualified q.table column ++ " IS NULL") []]
  | none => []

/-- The body of a WHERE clause; none without a filter. -/
def body? (exprs : List Expr) : Option Statement :=
  if exprs.isEmpty then none else some (conditions exprs)

/-- A WHERE clause with a blank before it; nothing without a filter. -/
def whereClause (exprs : List Expr) : Statement :=
  match body? exprs with
  | some body => " WHERE " ++ body
  | none => ∅

/-- The body of the WHERE clause of a read. -/
def whereBody? (q : Query) (conds : List Condition) : Option Statement :=
  body? (q.callerFilters conds ++ q.scope)

end Query

end RecordStore
