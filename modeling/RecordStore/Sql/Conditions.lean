import RecordStore.Sql.Expr
import RecordStore.Sql.Statement

/-!
# Filters as SQL

A filter that writes nothing is left out. A group with one member left is that member; one with
more stands in parentheses. Hand-written SQL gets parentheses when it stands beside another filter
and holds ` AND ` or ` OR ` in any case.
-/

namespace RecordStore

/-- Whether hand-written SQL needs parentheses beside other filters. No character outside ASCII
has an upper-case form that completes one of the two words. -/
def hasConjunction (sql : String) : Bool :=
  let upper := sql.toList.map Char.toUpper
  occursIn [' ', 'A', 'N', 'D', ' '] upper || occursIn [' ', 'O', 'R', ' '] upper

namespace Expr

mutual

/-- A filter as SQL; `beside` tells that it stands beside another one. -/
def render (beside : Bool) : Expr → Statement
  | .raw sql args =>
    .withArgs (if beside && hasConjunction sql then "(" ++ sql ++ ")" else sql) args
  | .compare column op arg =>
    ⟨column ++ " " ++ op ++ " ?", [arg],
      if arg.isString then [byteLength column.toList] else []⟩
  | .group conjunction members =>
    match renderMembers (beside || 1 < (nonEmpty members).length) members with
    | [] => ∅
    | [only] => only
    | parts => "(" ++ Statement.join conjunction.separator parts ++ ")"

/-- The filters of a list that write something, each as SQL. -/
def renderMembers (beside : Bool) : List Expr → List Statement
  | [] => []
  | e :: rest =>
    if e.isEmpty then renderMembers beside rest else e.render beside :: renderMembers beside rest

end

end Expr

/-- The conjunction of filters as SQL, without parentheses around it. -/
def conditions (exprs : List Expr) : Statement :=
  Statement.join Conjunction.and.separator
    (Expr.renderMembers (1 < (Expr.nonEmpty exprs).length) exprs)

namespace Expr

/-- What is written for a list of filters is written for those that write something. -/
theorem renderMembers_eq_map (beside : Bool) (exprs : List Expr) :
    renderMembers beside exprs = (nonEmpty exprs).map (render beside) := by
  induction exprs with
  | nil => simp [renderMembers, nonEmpty]
  | cons e rest ih => cases h : e.isEmpty <;> simp_all [renderMembers, nonEmpty]

end Expr

end RecordStore
