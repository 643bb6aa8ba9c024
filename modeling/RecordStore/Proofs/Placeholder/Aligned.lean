import RecordStore.Proofs.Filter.Tree
import RecordStore.Proofs.Placeholder.Quotes

/-!
# Placeholders in step with arguments

A statement is aligned when it ends outside quotes and has as many placeholders as arguments.
Aligned statements are aligned one after the other, so a statement that is made of aligned fragments
is aligned at the end of each of them. Filters are made of their leaves, with separators and
parentheses between them.
-/

namespace RecordStore

open Placeholder

namespace Statement

/-- A statement that ends outside quotes and has one argument for each placeholder. -/
structure Aligned (s : Statement) : Prop where
  closed : IsClosed s.sql.toList
  count_eq : count none s.sql.toList = s.args.length

instance (s : Statement) : Decidable s.Aligned :=
  decidable_of_iff (IsClosed s.sql.toList ∧ count none s.sql.toList = s.args.length)
    ⟨fun h ↦ ⟨h.1, h.2⟩, fun h ↦ ⟨h.closed, h.count_eq⟩⟩

namespace Aligned

theorem empty : (∅ : Statement).Aligned := ⟨rfl, rfl⟩

theorem append {s t : Statement} (hs : s.Aligned) (ht : t.Aligned) : (s ++ t).Aligned := by
  refine ⟨?_, ?_⟩
  · rw [sql_append, String.toList_append]
    exact hs.closed.append ht.closed
  · rw [sql_append, String.toList_append, hs.closed.count_append, hs.count_eq, ht.count_eq,
      args_append, List.length_append]

theorem ofText {sql : String} (h : IsPlain sql.toList) : (Statement.ofText sql).Aligned :=
  ⟨h.closed, h.unmarked⟩

/-- A text with one argument for each placeholder stays so behind a plain text. -/
theorem behind {front sql : String} {args : List Json} (hfront : IsPlain front.toList)
    (hclosed : IsClosed sql.toList) (hcount : count none sql.toList = args.length) :
    (Statement.withArgs (front ++ sql) args).Aligned := by
  refine ⟨hfront.closed.text_append hclosed, ?_⟩
  change count none (front ++ sql).toList = args.length
  rw [String.toList_append, hfront.closed.count_append, hfront.unmarked, Nat.zero_add, hcount]

end Aligned

/-- Statements one after another. -/
def concat : List Statement → Statement
  | [] => ∅
  | s :: rest => s ++ concat rest

@[simp] theorem concat_append (a b : List Statement) : concat (a ++ b) = concat a ++ concat b := by
  induction a with
  | nil => exact (empty_append _).symm
  | cons s rest ih => rw [List.cons_append, concat, concat, ih, append_assoc]

/-- Aligned fragments are an aligned statement. -/
theorem aligned_concat {fragments : List Statement} (h : ∀ f ∈ fragments, f.Aligned) :
    (concat fragments).Aligned := by
  induction fragments with
  | nil => exact .empty
  | cons f rest ih =>
    rw [List.forall_mem_cons] at h
    exact h.1.append (ih h.2)

/-- Lists of fragments with a text between them. -/
def joinFragments (separator : String) : List (List Statement) → List Statement
  | [] => []
  | [only] => only
  | first :: second :: rest =>
    first ++ ofText separator :: joinFragments separator (second :: rest)

/-- Fragments with a text between them are the statements they make with that text between them. -/
theorem concat_joinFragments (separator : String) (parts : List (List Statement)) :
    concat (joinFragments separator parts) = join separator (parts.map concat) := by
  induction parts with
  | nil => rfl
  | cons first rest ih =>
    cases rest with
    | nil => rfl
    | cons second rest =>
      rw [joinFragments, concat_append, concat, ih]
      rfl

theorem aligned_joinFragments {separator : String} (hseparator : IsPlain separator.toList)
    {parts : List (List Statement)} (h : ∀ part ∈ parts, ∀ f ∈ part, f.Aligned) :
    ∀ f ∈ joinFragments separator parts, f.Aligned := by
  induction parts with
  | nil => exact List.forall_mem_nil _
  | cons first rest ih =>
    rw [List.forall_mem_cons] at h
    cases rest with
    | nil => exact h.1
    | cons second rest =>
      rw [joinFragments, List.forall_mem_append, List.forall_mem_cons]
      exact ⟨h.1, .ofText hseparator, ih h.2⟩

end Statement

namespace Expr

open Statement

/-- A leaf that is aligned: hand-written SQL with one argument for each placeholder, or the
comparison of a plain column by a plain operator. -/
def IsAlignedLeaf : Expr → Prop
  | .raw sql args => (Statement.withArgs sql args).Aligned
  | .compare column op _ => IsPlain column.toList ∧ IsPlain op.toList
  | .group _ _ => False

instance (l : Expr) : Decidable l.IsAlignedLeaf :=
  match l with
  | .raw sql args => inferInstanceAs (Decidable (Statement.withArgs sql args).Aligned)
  | .compare column op _ =>
    inferInstanceAs (Decidable (IsPlain column.toList ∧ IsPlain op.toList))
  | .group _ _ => .isFalse id

mutual

/-- The fragments of a filter: its leaves, and the separators and parentheses of its groups. -/
def fragments (beside : Bool) : Expr → List Statement
  | .raw sql args => [(Expr.raw sql args).render beside]
  | .compare column op arg => [(Expr.compare column op arg).render beside]
  | .group c members =>
    match memberFragments (beside || 1 < (nonEmpty members).length) members with
    | [] => []
    | [only] => only
    | parts => .ofText "(" :: (joinFragments c.separator parts ++ [.ofText ")"])

/-- The fragments of those filters of a list that write something. -/
def memberFragments (beside : Bool) : List Expr → List (List Statement)
  | [] => []
  | e :: rest =>
    if e.isEmpty then memberFragments beside rest
    else e.fragments beside :: memberFragments beside rest

end

/-- The fragments of the conjunction of filters. -/
def conditionFragments (exprs : List Expr) : List Statement :=
  joinFragments Conjunction.and.separator (memberFragments (1 < (nonEmpty exprs).length) exprs)

mutual

/-- A filter is its fragments. -/
theorem concat_fragments (beside : Bool) (e : Expr) :
    concat (e.fragments beside) = e.render beside := by
  match e with
  | .raw sql args => rw [fragments, concat, concat, append_empty]
  | .compare column op arg => rw [fragments, concat, concat, append_empty]
  | .group c members =>
    rw [fragments, render,
      ← map_concat_memberFragments (beside || decide (1 < (nonEmpty members).length)) members]
    match memberFragments (beside || decide (1 < (nonEmpty members).length)) members with
    | [] => rfl
    | [only] => rfl
    | first :: second :: rest =>
      change concat (_ :: (_ ++ [_])) = _
      rw [concat, concat_append, concat_joinFragments, concat, concat, append_empty,
        ← append_assoc]
      rfl

/-- Filters are their fragments. -/
theorem map_concat_memberFragments (beside : Bool) (exprs : List Expr) :
    (memberFragments beside exprs).map concat = renderMembers beside exprs := by
  match exprs with
  | [] => rw [memberFragments, renderMembers, List.map_nil]
  | e :: rest =>
    rw [memberFragments, renderMembers]
    split
    · exact map_concat_memberFragments beside rest
    · rw [List.map_cons, concat_fragments beside e, map_concat_memberFragments beside rest]

end

/-- The conjunction of filters is its fragments. -/
theorem concat_conditionFragments (exprs : List Expr) :
    concat (conditionFragments exprs) = conditions exprs := by
  rw [conditionFragments, concat_joinFragments, map_concat_memberFragments]
  rfl

/-! ### Aligned leaves -/

private theorem aligned_render_raw {sql : String} {args : List Json}
    (h : (Statement.withArgs sql args).Aligned) (beside : Bool) :
    ((Expr.raw sql args).render beside).Aligned := by
  rw [render]
  cases beside && hasConjunction sql with
  | false => exact h
  | true =>
    have hparen := (Aligned.append (.ofText IsPlain.opening) h).append
      (.ofText IsPlain.closing)
    have htext : Statement.ofText "(" ++ Statement.withArgs sql args ++ Statement.ofText ")" =
        Statement.withArgs ("(" ++ sql ++ ")") args := by
      change "(" ++ Statement.withArgs sql args ++ ")" = _
      simp [Statement.withArgs]
    rwa [htext] at hparen

private theorem aligned_render_compare {column op : String} (h : IsPlain column.toList)
    (hop : IsPlain op.toList) (beside : Bool) (arg : Json) :
    ((Expr.compare column op arg).render beside).Aligned := by
  have hend : IsClosed " ?".toList ∧ count none " ?".toList = 1 := by decide
  have hblank : IsPlain " ".toList := by decide
  have hfront := (h.text_append hblank).text_append hop
  rw [render]
  refine ⟨?_, ?_⟩
  · exact hfront.closed.text_append hend.1
  · rw [String.toList_append, hfront.closed.count_append, hfront.unmarked, hend.2]
    rfl

mutual

/-- A filter with aligned leaves has aligned fragments. -/
theorem aligned_fragments (beside : Bool) (e : Expr) (h : ∀ l ∈ e.leaves, l.IsAlignedLeaf) :
    ∀ f ∈ e.fragments beside, f.Aligned := by
  match e with
  | .raw sql args =>
    have hleaf : (Statement.withArgs sql args).Aligned := h (.raw sql args) (by simp [leaves])
    rw [fragments, List.forall_mem_singleton]
    exact aligned_render_raw hleaf beside
  | .compare column op arg =>
    obtain ⟨hcolumn, hop⟩ : IsPlain column.toList ∧ IsPlain op.toList :=
      h (.compare column op arg) (by simp [leaves])
    rw [fragments, List.forall_mem_singleton]
    exact aligned_render_compare hcolumn hop beside arg
  | .group c members =>
    have hplain : IsPlain c.separator.toList := by cases c <;> decide
    have hmembers := aligned_memberFragments
      (beside || decide (1 < (nonEmpty members).length)) members (by simpa [leaves] using h)
    rw [fragments]
    split
    · exact List.forall_mem_nil _
    · next only honly =>
      rw [honly, List.forall_mem_singleton] at hmembers
      exact hmembers
    · rw [List.forall_mem_cons, List.forall_mem_append, List.forall_mem_singleton]
      exact ⟨.ofText IsPlain.opening, aligned_joinFragments hplain hmembers,
        .ofText IsPlain.closing⟩

/-- Filters with aligned leaves have aligned fragments. -/
theorem aligned_memberFragments (beside : Bool) (exprs : List Expr)
    (h : ∀ l ∈ leavesOf exprs, l.IsAlignedLeaf) :
    ∀ part ∈ memberFragments beside exprs, ∀ f ∈ part, f.Aligned := by
  match exprs with
  | [] =>
    rw [memberFragments]
    exact List.forall_mem_nil _
  | e :: rest =>
    rw [memberFragments]
    rw [leavesOf] at h
    split
    · next he =>
      rw [if_pos he] at h
      exact aligned_memberFragments beside rest h
    · next he =>
      rw [if_neg he, List.forall_mem_append] at h
      rw [List.forall_mem_cons]
      exact ⟨aligned_fragments beside e h.1, aligned_memberFragments beside rest h.2⟩

end

/-- The conjunction of filters with aligned leaves has aligned fragments. -/
theorem aligned_conditionFragments {exprs : List Expr}
    (h : ∀ l ∈ leavesOf exprs, l.IsAlignedLeaf) :
    ∀ f ∈ conditionFragments exprs, f.Aligned :=
  aligned_joinFragments (by decide) (aligned_memberFragments _ exprs h)

end Expr

end RecordStore
