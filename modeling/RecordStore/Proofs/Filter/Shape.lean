import Mathlib.Data.List.Forall2
import RecordStore.Sql.Conditions
import RecordStore.Sql.Placeholder

/-!
# Filters of one shape

Two filters have one shape when they differ in values alone. Such filters come to the same text with
as many arguments. Only one thing of a value is visible in the text that PostgreSQL takes: whether a
column is compared with a text, since it is cast then. So a shape comes in two strengths: `typed`
tells whether the values of comparisons agree in this too.
-/

namespace RecordStore

namespace Statement

/-- Statements of one text with as many arguments, and with the same casts if they are `typed`. -/
structure SameShape (typed : Prop) (s t : Statement) : Prop where
  sql : s.sql = t.sql
  args : s.args.length = t.args.length
  casts : typed → s.casts = t.casts

namespace SameShape

variable {typed : Prop} {s t s' t' : Statement}

theorem refl (s : Statement) : s.SameShape typed s := ⟨rfl, rfl, fun _ ↦ rfl⟩

theorem withArgs (sql : String) {args args' : List Json} (h : args.length = args'.length) :
    (Statement.withArgs sql args).SameShape typed (Statement.withArgs sql args') :=
  ⟨rfl, h, fun _ ↦ rfl⟩

theorem append (h : s.SameShape typed t) (h' : s'.SameShape typed t') :
    (s ++ s').SameShape typed (t ++ t') where
  sql := by rw [sql_append, sql_append, h.sql, h'.sql]
  args := by rw [args_append, args_append, List.length_append, List.length_append, h.args, h'.args]
  casts := by
    intro htyped
    rw [casts_append, casts_append, h.casts htyped, h'.casts htyped, h.sql]

/-- The same text in front and behind keeps one shape. -/
theorem between (h : s.SameShape typed t) (front back : String) :
    (front ++ s ++ back).SameShape typed (front ++ t ++ back) :=
  ((refl (ofText front)).append h).append (refl (ofText back))

theorem join (separator : String) {parts parts' : List Statement}
    (h : List.Forall₂ (SameShape typed) parts parts') :
    (Statement.join separator parts).SameShape typed (Statement.join separator parts') := by
  induction h with
  | nil => exact refl _
  | cons hfirst hrest ih =>
    cases hrest with
    | nil => exact hfirst
    | cons _ _ => exact hfirst.append ((refl (ofText separator)).append ih)

/-- PostgreSQL takes statements of one shape as the same text when their casts agree. -/
theorem toPostgres (h : s.SameShape typed t) (htyped : typed) : s.toPostgres = t.toPostgres := by
  rw [Statement.toPostgres, Statement.toPostgres, h.sql, h.casts htyped]

end SameShape

end Statement

namespace Expr

/-- Filters that differ in values alone: hand-written SQL has as many arguments in both, and if they
are `typed`, a comparison is with a text in both or in neither. -/
inductive SameShape (typed : Prop) : Expr → Expr → Prop where
  | raw {sql : String} {args args' : List Json} (h : args.length = args'.length) :
    SameShape typed (.raw sql args) (.raw sql args')
  | compare {column op : String} {arg arg' : Json}
    (h : typed → arg.isString = arg'.isString) :
    SameShape typed (.compare column op arg) (.compare column op arg')
  | group {c : Conjunction} {members members' : List Expr}
    (h : List.Forall₂ (SameShape typed) members members') :
    SameShape typed (.group c members) (.group c members')

variable {typed : Prop}

mutual

/-- A filter has the shape of itself. -/
theorem SameShape.refl (e : Expr) : e.SameShape typed e := by
  match e with
  | .raw sql args => exact .raw rfl
  | .compare column op arg => exact .compare fun _ ↦ rfl
  | .group c members => exact .group (SameShape.forall₂_refl members)

/-- Filters have the shapes of themselves. -/
theorem SameShape.forall₂_refl (exprs : List Expr) :
    List.Forall₂ (SameShape typed) exprs exprs := by
  match exprs with
  | [] => exact .nil
  | e :: rest => exact .cons (SameShape.refl e) (SameShape.forall₂_refl rest)

end

mutual

/-- Of filters of one shape, both write something or neither does. -/
theorem SameShape.isEmpty_eq {e e' : Expr} (h : e.SameShape typed e') :
    e.isEmpty = e'.isEmpty := by
  match e, h with
  | .raw sql args, .raw _ => rfl
  | .compare column op arg, .compare _ => rfl
  | .group c members, .group hmembers => exact SameShape.allEmpty_eq hmembers

/-- Of lists of filters of one shape, both write something or neither does. -/
theorem SameShape.allEmpty_eq {exprs exprs' : List Expr}
    (h : List.Forall₂ (SameShape typed) exprs exprs') : allEmpty exprs = allEmpty exprs' := by
  match exprs, h with
  | [], .nil => rfl
  | e :: rest, .cons he hrest =>
    rw [allEmpty, allEmpty, SameShape.isEmpty_eq he, SameShape.allEmpty_eq hrest]

end

/-- Filters of one shape write something at the same places. -/
theorem SameShape.nonEmpty {exprs exprs' : List Expr}
    (h : List.Forall₂ (SameShape typed) exprs exprs') :
    List.Forall₂ (SameShape typed) (nonEmpty exprs) (Expr.nonEmpty exprs') := by
  apply List.rel_filter _ h
  intro e e' he
  simp only [he.isEmpty_eq]

mutual

/-- Filters of one shape come to statements of one shape. -/
theorem SameShape.render {e e' : Expr} (h : e.SameShape typed e') (beside : Bool) :
    (e.render beside).SameShape typed (e'.render beside) := by
  match e, e', h with
  | .raw sql args, _, .raw hargs =>
    rw [Expr.render, Expr.render]
    exact .withArgs _ hargs
  | .compare column op arg, _, .compare harg =>
    rw [Expr.render, Expr.render]
    refine ⟨rfl, rfl, ?_⟩
    intro htyped
    rw [harg htyped]
  | .group c members, .group _ members', .group hmembers =>
    have hlength := (SameShape.nonEmpty hmembers).length_eq
    rw [Expr.render, Expr.render, ← hlength]
    have hparts := SameShape.renderMembers hmembers
      (beside || decide (1 < (Expr.nonEmpty members).length))
    generalize Expr.renderMembers _ members = parts at hparts ⊢
    generalize Expr.renderMembers _ members' = parts' at hparts ⊢
    cases hparts with
    | nil => exact .refl _
    | cons hfirst hrest =>
      cases hrest with
      | nil => exact hfirst
      | cons hsecond hrest =>
        exact (Statement.SameShape.join _ (.cons hfirst (.cons hsecond hrest))).between "(" ")"

/-- Lists of filters of one shape come to statements of one shape, one by one. -/
theorem SameShape.renderMembers {exprs exprs' : List Expr}
    (h : List.Forall₂ (SameShape typed) exprs exprs') (beside : Bool) :
    List.Forall₂ (Statement.SameShape typed) (Expr.renderMembers beside exprs)
      (Expr.renderMembers beside exprs') := by
  match exprs, h with
  | [], .nil =>
    rw [Expr.renderMembers]
    exact .nil
  | e :: rest, .cons he hrest =>
    rw [Expr.renderMembers, Expr.renderMembers, ← SameShape.isEmpty_eq he]
    split
    · exact SameShape.renderMembers hrest beside
    · exact .cons (SameShape.render he beside) (SameShape.renderMembers hrest beside)

end

/-- Conjunctions of filters of one shape are statements of one shape. -/
theorem SameShape.conditions {exprs exprs' : List Expr}
    (h : List.Forall₂ (SameShape typed) exprs exprs') :
    (conditions exprs).SameShape typed (RecordStore.conditions exprs') := by
  rw [RecordStore.conditions, RecordStore.conditions, (SameShape.nonEmpty h).length_eq]
  exact .join _ (SameShape.renderMembers h _)

end Expr

end RecordStore
