import RecordStore.Proofs.Filter.Tree

/-!
# Filters that write nothing

A filter is empty exactly when the conjunction of it alone has no text, no argument and no cast.
What is not empty writes a text that is not blank, alone and beside others, so it is there to be
seen in every conjunction that it is a member of.
-/

namespace RecordStore

/-- A text in two parts is blank when both parts are. -/
theorem isBlankText_append (a b : String) :
    isBlankText (a ++ b) = (isBlankText a && isBlankText b) := by
  rw [isBlankText, String.toList_append, List.all_append]
  rfl

namespace Expr

/-! ### Empty filters and their leaves -/

mutual

/-- No leaf of a filter that writes something is empty. -/
theorem isEmpty_of_mem_leaves (e : Expr) (he : e.isEmpty = false) :
    ∀ l ∈ e.leaves, l.isEmpty = false := by
  match e with
  | .raw sql args =>
    rw [leaves, List.forall_mem_singleton]
    exact he
  | .compare column op arg =>
    rw [leaves, List.forall_mem_singleton]
    exact he
  | .group c members =>
    rw [leaves]
    exact isEmpty_of_mem_leavesOf members

/-- No leaf of those filters of a list that write something is empty. -/
theorem isEmpty_of_mem_leavesOf (exprs : List Expr) :
    ∀ l ∈ leavesOf exprs, l.isEmpty = false := by
  match exprs with
  | [] =>
    rw [leavesOf]
    exact List.forall_mem_nil _
  | e :: rest =>
    rw [leavesOf]
    split
    · exact isEmpty_of_mem_leavesOf rest
    · next he =>
      rw [List.forall_mem_append]
      exact ⟨isEmpty_of_mem_leaves e (Bool.eq_false_iff.2 he), isEmpty_of_mem_leavesOf rest⟩

end

private theorem isBlankText_render_leaf {l : Expr} (hleaf : l.isLeaf = true)
    (hl : l.isEmpty = false) (beside : Bool) : isBlankText (l.render beside).sql = false := by
  have hopening : isBlankText "(" = false := by decide
  have hmark : isBlankText " ?" = false := by decide
  cases l with
  | group c members => cases hleaf
  | raw sql args =>
    rw [isEmpty] at hl
    rw [render, Statement.withArgs]
    dsimp only
    split
    · rw [isBlankText_append, isBlankText_append, hopening, Bool.false_and, Bool.false_and]
    · exact hl
  | compare column op arg =>
    rw [render]
    dsimp only
    rw [isBlankText_append, hmark, Bool.and_false]

-- Parentheses are no blanks.
private theorem inherited_not_blank :
    Inherited fun _ _ s ↦ isBlankText s.sql = false where
  alone := fun _ h ↦ h
  group := by
    intro beside c members parts _ _
    have hopening : isBlankText "(" = false := by decide
    change isBlankText ("(" ++ (Statement.join c.separator parts).sql ++ ")") = false
    rw [isBlankText_append, isBlankText_append, hopening, Bool.false_and, Bool.false_and]

/-- A filter that is not empty writes a text that is not blank. -/
theorem isBlankText_render {e : Expr} (he : e.isEmpty = false) (beside : Bool) :
    isBlankText (e.render beside).sql = false := by
  refine inherited_not_blank.render e beside he ?_
  intro l hl b _
  exact isBlankText_render_leaf (isLeaf_of_mem_leaves e l hl) (isEmpty_of_mem_leaves e he l hl) b

/-! ### Conjunctions -/

/-- A filter that writes nothing: the conjunction of it alone is the statement that says nothing. -/
def WritesNothing (e : Expr) : Prop := conditions [e] = ∅

theorem conditions_eq_join (exprs : List Expr) :
    conditions exprs = Statement.join Conjunction.and.separator
      ((nonEmpty exprs).map (render (1 < (nonEmpty exprs).length))) := by
  rw [conditions, renderMembers_eq_map]

/-- A filter writes nothing exactly when it is empty. -/
theorem writesNothing_iff (e : Expr) : e.WritesNothing ↔ e.isEmpty = true := by
  rw [WritesNothing, conditions_eq_join]
  cases he : e.isEmpty with
  | true => simp [nonEmpty, he, Statement.join]; rfl
  | false =>
    have hblank := isBlankText_render he false
    simp only [nonEmpty, he, List.filter_cons, Bool.not_false, ↓reduceIte, List.filter_nil,
      List.map_singleton, List.length_singleton, Nat.lt_irrefl, decide_false, Statement.join,
      Bool.false_eq_true, iff_false]
    intro hnothing
    rw [hnothing] at hblank
    exact absurd hblank (by decide)

/-- The filters of a list that write something are none exactly when each writes nothing. -/
theorem nonEmpty_eq_nil_iff (exprs : List Expr) :
    nonEmpty exprs = [] ↔ ∀ e ∈ exprs, e.WritesNothing := by
  simp [nonEmpty, writesNothing_iff]

end Expr

namespace Statement

/-- A part of a conjunction: what stands before it and after it is joined to it by `AND`. -/
def IsConjunct (part body : Statement) : Prop :=
  ∃ before after, body = join Conjunction.and.separator (before ++ part :: after)

private theorem isBlankText_of_join {separator : String} {parts : List Statement}
    (h : isBlankText (join separator parts).sql = true) :
    ∀ part ∈ parts, isBlankText part.sql = true := by
  match parts with
  | [] => exact List.forall_mem_nil _
  | [only] =>
    rw [List.forall_mem_singleton]
    exact h
  | first :: second :: rest =>
    change isBlankText
      (first.sql ++ (separator ++ (join separator (second :: rest)).sql)) = true at h
    rw [isBlankText_append, isBlankText_append, Bool.and_eq_true, Bool.and_eq_true] at h
    rw [List.forall_mem_cons]
    exact ⟨h.1, isBlankText_of_join h.2.2⟩

/-- A conjunction with a part that is not blank is not blank. -/
theorem IsConjunct.not_blank {part body : Statement} (h : part.IsConjunct body)
    (hpart : isBlankText part.sql = false) : isBlankText body.sql = false := by
  obtain ⟨before, after, rfl⟩ := h
  rw [Bool.eq_false_iff]
  intro hblank
  rw [isBlankText_of_join hblank part (by simp)] at hpart
  cases hpart

end Statement

/-- A filter of a list that is not empty is a part of the conjunction of the list. -/
theorem Expr.isConjunct_conditions {exprs : List Expr} {e : Expr} (h : e ∈ exprs)
    (he : e.isEmpty = false) :
    (e.render (1 < (nonEmpty exprs).length)).IsConjunct (conditions exprs) := by
  have hmem : e ∈ nonEmpty exprs := List.mem_filter.2 ⟨h, by rw [he]; rfl⟩
  obtain ⟨before, after, hsplit⟩ := List.append_of_mem (List.mem_map_of_mem hmem)
  exact ⟨before, after, by rw [conditions_eq_join, hsplit]⟩

end RecordStore
