import RecordStore.Proofs.Placeholder.Direct

/-!
# Text that goes on behind a statement

A statement whose casts all stand in its own text keeps its text as PostgreSQL takes it, whatever is
written behind it, even when it ends inside a quote: the numbers go on behind its marks, in the
quote that it leaves open. Texts, filters and what is made of them by appending are such statements.
-/

namespace RecordStore

open Placeholder

namespace Statement

/-- A statement that has all its casts in its text. -/
structure CastsPlaced (s : Statement) : Prop where
  placed : Placed 0 s.casts s.sql.toList

namespace CastsPlaced

variable {s t : Statement}

/-- A statement without casts has them all in it. -/
theorem of_casts_eq_nil (h : s.casts = []) : s.CastsPlaced where
  placed := by
    rw [h]
    exact placed_nil 0 _

theorem ofText (sql : String) : (Statement.ofText sql).CastsPlaced := of_casts_eq_nil rfl

theorem append (hs : s.CastsPlaced) (ht : t.CastsPlaced) : (s ++ t).CastsPlaced :=
  ⟨placed_append hs.placed ht.placed⟩

/-- Statements with a text between them have the casts in it that each of them has in it. -/
theorem join (separator : String) {parts : List Statement} (h : ∀ part ∈ parts, part.CastsPlaced) :
    (Statement.join separator parts).CastsPlaced := by
  induction parts with
  | nil => exact ofText ""
  | cons first rest ih =>
    rw [List.forall_mem_cons] at h
    cases rest with
    | nil => exact h.1
    | cons second rest => exact h.1.append ((ofText separator).append (ih h.2))

/-- A part of what is joined has the parts before it in front, with all their casts in them. -/
theorem exists_join_eq (separator : String) {before : List Statement} (part : Statement)
    (after : List Statement) (h : ∀ s ∈ before, s.CastsPlaced) :
    ∃ head rest : Statement, head.CastsPlaced ∧
      Statement.join separator (before ++ part :: after) = head ++ (part ++ rest) := by
  have hpart : ∃ rest, Statement.join separator (part :: after) = part ++ rest := by
    cases after with
    | nil => exact ⟨∅, (append_empty part).symm⟩
    | cons next others => exact ⟨_, rfl⟩
  obtain ⟨rest, hrest⟩ := hpart
  by_cases hbefore : before = []
  · refine ⟨∅, rest, of_casts_eq_nil rfl, ?_⟩
    rw [hbefore, List.nil_append, hrest, empty_append]
  · refine ⟨Statement.join separator before ++ Statement.ofText separator, rest,
      (join separator h).append (ofText separator), ?_⟩
    rw [join_append separator hbefore (by simp), hrest, append_assoc]
    rfl

end CastsPlaced

/-- A text behind a statement as PostgreSQL takes it: its marks are numbered on. -/
def continued (s : Statement) (text : String) : String :=
  String.ofList (numberMarks (quoteAfterAll none s.sql.toList) s.marks text.toList)

variable {s : Statement}

/-- A text behind a statement leaves that one's own text as it is. -/
theorem CastsPlaced.toPostgres_append (hs : s.CastsPlaced) (text : String) :
    (s ++ text).toPostgres = s.toPostgres ++ s.continued text := by
  have hlater : ∀ p ∈ ([] : List Nat), 0 + byteLength s.sql.toList ≤ p := List.forall_mem_nil _
  have hpieces := Placeholder.pieces_append hs.placed hlater none 0 text.toList
  rw [List.append_nil, Nat.zero_add, Nat.zero_add] at hpieces
  rw [append_text, toPostgres, toPostgres, continued, number_eq_flatMap, number_eq_flatMap,
    String.toList_append, hpieces, List.flatMap_append, flatMap_pieces_nil, String.ofList_append]
  rfl

/-- A text without question marks has no placeholder, whatever quote is open in front of it. -/
theorem count_of_not_mem {cs : List Char} (h : '?' ∉ cs) (quote : Option Char) :
    count quote cs = 0 := by
  induction cs generalizing quote with
  | nil => rfl
  | cons c rest ih =>
    rw [List.mem_cons, not_or] at h
    have hmark : isPlaceholder quote c = false := by simp [isPlaceholder, Ne.symm h.1]
    rw [count, hmark, ih h.2]
    rfl

/-- A text without question marks stays as it is behind any statement. -/
theorem continued_of_not_mem (s : Statement) {text : String} (h : '?' ∉ text.toList) :
    s.continued text = text := by
  rw [continued, numberMarks_of_count_eq_zero (count_of_not_mem h _), String.ofList_toList]

/-- A plain text in front of a statement stays as it is and changes nothing behind it. -/
theorem toPostgres_text_append {text : String} (h : IsPlain text.toList) (s : Statement) :
    (text ++ s).toPostgres = text ++ s.toPostgres := by
  have hmarks : (ofText text).marks = 0 := h.unmarked
  change (ofText text ++ s).toPostgres = _
  rw [toPostgres_eq, (Settled.ofText h.closed).numbered_append, numbered_ofText h, hmarks,
    Nat.add_zero, String.ofList_append, String.ofList_toList, ← toPostgres_eq]

end Statement

namespace Expr

open Statement

private theorem castsPlaced_leaf {l : Expr} (h : l.isLeaf = true) (beside : Bool) :
    (l.render beside).CastsPlaced := by
  match l, h with
  | .raw sql args, _ =>
    rw [render]
    exact .of_casts_eq_nil rfl
  | .compare column op arg, _ =>
    rw [render_compare]
    exact (CastsPlaced.ofText column).append
      ⟨placed_comparisonEnd op [arg] arg.isString⟩

private theorem inherited_castsPlaced : Inherited fun _ _ s ↦ s.CastsPlaced where
  alone := fun _ h ↦ h
  group := fun _ h ↦
    ((CastsPlaced.ofText "(").append (.join _ (forall_of_forall₂ h))).append (.ofText ")")

private theorem castsPlaced_renderMembers (exprs : List Expr) (beside : Bool) :
    ∀ part ∈ renderMembers beside exprs, part.CastsPlaced :=
  forall_of_forall₂ (inherited_castsPlaced.renderMembers exprs beside
    fun l hl b _ ↦ castsPlaced_leaf (isLeaf_of_mem_leavesOf exprs l hl) b)

/-- The conjunction of filters has all its casts in it, whatever the filters are. -/
theorem castsPlaced_conditions (exprs : List Expr) : (conditions exprs).CastsPlaced :=
  .join _ (castsPlaced_renderMembers exprs _)

/-- A filter that writes something stands in the conjunction of filters behind a statement with all
its casts in it. -/
theorem exists_conditions_eq {exprs : List Expr} {e : Expr} (h : e ∈ exprs)
    (he : e.isEmpty = false) :
    ∃ beside, ∃ head rest : Statement, head.CastsPlaced ∧
      conditions exprs = head ++ (e.render beside ++ rest) := by
  have hmem : e ∈ nonEmpty exprs := List.mem_filter.2 ⟨h, by rw [he]; rfl⟩
  have hplaced := castsPlaced_renderMembers exprs (1 < (nonEmpty exprs).length)
  rw [renderMembers_eq_map] at hplaced
  obtain ⟨before, after, hsplit⟩ := List.append_of_mem (List.mem_map_of_mem hmem)
  rw [conditions, renderMembers_eq_map, hsplit]
  rw [hsplit, List.forall_mem_append] at hplaced
  exact ⟨_, CastsPlaced.exists_join_eq _ _ after hplaced.1⟩

end Expr

end RecordStore
