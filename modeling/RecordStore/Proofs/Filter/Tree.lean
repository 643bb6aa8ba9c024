import Mathlib.Data.List.Forall2
import RecordStore.Sql.Conditions

/-!
# Trees of filters

What is proved of the statement of a filter is proved for its leaves, for a member that is alone in
its group, and for several members with parentheses around them. Members that write nothing take no
part, and neither do the leaves in them.
-/

namespace RecordStore.Expr

mutual

/-- The leaves of a filter that are written, from left to right. -/
def leaves : Expr → List Expr
  | .raw sql args => [.raw sql args]
  | .compare column op arg => [.compare column op arg]
  | .group _ members => leavesOf members

/-- The leaves of those filters of a list that write something. -/
def leavesOf : List Expr → List Expr
  | [] => []
  | e :: rest => if e.isEmpty then leavesOf rest else e.leaves ++ leavesOf rest

end

/-- A list of filters has the leaves of those that write something. -/
theorem leavesOf_eq_flatMap (exprs : List Expr) :
    leavesOf exprs = (nonEmpty exprs).flatMap leaves := by
  induction exprs with
  | nil => simp [leavesOf, nonEmpty]
  | cons e rest ih => cases h : e.isEmpty <;> simp_all [leavesOf, nonEmpty]

/-- Two lists of filters have the leaves of both. -/
theorem leavesOf_append (a b : List Expr) : leavesOf (a ++ b) = leavesOf a ++ leavesOf b := by
  rw [leavesOf_eq_flatMap, leavesOf_eq_flatMap, leavesOf_eq_flatMap, nonEmpty, List.filter_append,
    List.flatMap_append]
  rfl

/-- Whether a filter is no group. -/
def isLeaf : Expr → Bool
  | .group _ _ => false
  | _ => true

mutual

/-- No leaf is a group. -/
theorem isLeaf_of_mem_leaves (e : Expr) : ∀ l ∈ e.leaves, l.isLeaf = true := by
  match e with
  | .raw sql args => simp [leaves, isLeaf]
  | .compare column op arg => simp [leaves, isLeaf]
  | .group c members =>
    rw [leaves]
    exact isLeaf_of_mem_leavesOf members

/-- No leaf of a list of filters is a group. -/
theorem isLeaf_of_mem_leavesOf (exprs : List Expr) : ∀ l ∈ leavesOf exprs, l.isLeaf = true := by
  match exprs with
  | [] => simp [leavesOf]
  | e :: rest =>
    rw [leavesOf]
    split
    · exact isLeaf_of_mem_leavesOf rest
    · rw [List.forall_mem_append]
      exact ⟨isLeaf_of_mem_leaves e, isLeaf_of_mem_leavesOf rest⟩

end

/-- The arguments that a leaf brings along. -/
def ownArgs : Expr → List Json
  | .raw _ args => args
  | .compare _ _ arg => [arg]
  | .group _ _ => []

/-- A property of filters and their statements, each beside others or not, that groups inherit from
their members. -/
structure Inherited (P : Bool → Expr → Statement → Prop) : Prop where
  /-- A group with one member left has the statement of that member. -/
  alone : ∀ {beside c members only s}, nonEmpty members = [only] → P beside only s →
    P beside (.group c members) s
  /-- A group with more members has their statements in parentheses. -/
  group : ∀ {beside c members parts}, 1 < (nonEmpty members).length →
    List.Forall₂ (P true) (nonEmpty members) parts →
    P beside (.group c members) ("(" ++ Statement.join c.separator parts ++ ")")

/-- What the statements of filters have, whatever the filters are, each of the statements has. -/
theorem forall_of_forall₂ {P : Statement → Prop} {exprs : List Expr} {parts : List Statement}
    (h : List.Forall₂ (fun _ s ↦ P s) exprs parts) : ∀ part ∈ parts, P part := by
  induction h with
  | nil => exact List.forall_mem_nil _
  | cons hs _ ih =>
    rw [List.forall_mem_cons]
    exact ⟨hs, ih⟩

variable {P : Bool → Expr → Statement → Prop}

mutual

/-- A filter that writes something has an inherited property when its leaves have it, both beside
others and, unless the filter is beside others itself, alone. -/
theorem Inherited.render (hP : Inherited P) (e : Expr) (beside : Bool) (hne : e.isEmpty = false)
    (h : ∀ l ∈ e.leaves, ∀ b, (beside = true → b = true) → P b l (l.render b)) :
    P beside e (e.render beside) := by
  match e with
  | .raw sql args => exact h _ (by simp [leaves]) beside id
  | .compare column op arg => exact h _ (by simp [leaves]) beside id
  | .group c members =>
    have hmembers := hP.renderMembers members (beside || decide (1 < (nonEmpty members).length)) (by
      intro l hl b hb
      apply h l (by simpa [leaves] using hl) b
      intro hbeside
      exact hb (by simp [hbeside]))
    have hlength := hmembers.length_eq
    rw [Expr.render]
    match hparts :
      Expr.renderMembers (beside || decide (1 < (nonEmpty members).length)) members with
    | [] =>
      rw [hparts] at hlength
      rw [isEmpty, (allEmpty_iff members).2 (List.eq_nil_of_length_eq_zero hlength)] at hne
      cases hne
    | [only] =>
      rw [hparts] at hmembers hlength
      obtain ⟨e, he⟩ := List.length_eq_one_iff.1 hlength
      rw [he] at hmembers
      cases hmembers with
      | cons honly _ => exact hP.alone he (by simpa using honly)
    | first :: second :: rest =>
      rw [hparts] at hmembers hlength
      have hmany : 1 < (nonEmpty members).length := by
        rw [hlength, List.length_cons, List.length_cons]
        omega
      rw [decide_eq_true hmany, Bool.or_true] at hmembers
      exact hP.group hmany hmembers

/-- The filters of a list that write something have an inherited property when their leaves have
it. -/
theorem Inherited.renderMembers (hP : Inherited P) (exprs : List Expr) (beside : Bool)
    (h : ∀ l ∈ leavesOf exprs, ∀ b, (beside = true → b = true) → P b l (l.render b)) :
    List.Forall₂ (P beside) (nonEmpty exprs) (Expr.renderMembers beside exprs) := by
  match exprs with
  | [] =>
    rw [Expr.renderMembers]
    exact .nil
  | e :: rest =>
    rw [Expr.renderMembers, nonEmpty, List.filter_cons]
    rw [leavesOf] at h
    cases he : e.isEmpty with
    | true =>
      rw [if_pos he] at h
      exact hP.renderMembers rest beside h
    | false =>
      rw [if_neg (by simp [he])] at h
      refine .cons (hP.render e beside he ?_) (hP.renderMembers rest beside ?_)
      · intro l hl
        exact h l (List.mem_append_left _ hl)
      · intro l hl
        exact h l (List.mem_append_right _ hl)

end

end RecordStore.Expr
