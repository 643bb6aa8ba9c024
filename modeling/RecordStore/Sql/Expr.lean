import RecordStore.Json.Basic
import RecordStore.Text.Blank

/-!
# Filter expressions

A filter is a fragment of hand-written SQL, a comparison of a column with one value, or a group of
filters under one conjunction. Placeholders are written `?`.
-/

namespace RecordStore

/-- How the members of a group are combined. -/
inductive Conjunction where
  | and
  | or
deriving DecidableEq

/-- The text between two members of a group. -/
def Conjunction.separator : Conjunction → String
  | .and => " AND "
  | .or => " OR "

/-- A filter. -/
inductive Expr where
  /-- Hand-written SQL with one argument for each placeholder. -/
  | raw (sql : String) (args : List Json)
  /-- A column, an operator and the value on its right. Both texts stand in the SQL as they are. -/
  | compare (column op : String) (arg : Json)
  /-- Members combined under one conjunction. -/
  | group (conjunction : Conjunction) (members : List Expr)

namespace Expr

mutual

/-- Whether a filter writes nothing: blank SQL, no column, or members that all write nothing. -/
def isEmpty : Expr → Bool
  | .raw sql _ => isBlankText sql
  | .compare column _ _ => column.isEmpty
  | .group _ members => allEmpty members

/-- Whether every filter of a list writes nothing. -/
def allEmpty : List Expr → Bool
  | [] => true
  | e :: rest => e.isEmpty && allEmpty rest

end

/-- The filters of a list that write something. -/
def nonEmpty (exprs : List Expr) : List Expr := exprs.filter fun e ↦ !e.isEmpty

/-- A list of filters writes nothing exactly when none of them writes something. -/
theorem allEmpty_iff (exprs : List Expr) : allEmpty exprs = true ↔ nonEmpty exprs = [] := by
  induction exprs with
  | nil => simp [allEmpty, nonEmpty]
  | cons e rest ih =>
    cases h : e.isEmpty <;> simp_all [allEmpty, nonEmpty]

end Expr

end RecordStore
