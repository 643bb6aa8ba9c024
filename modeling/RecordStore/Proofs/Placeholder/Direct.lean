import Mathlib.Algebra.Ring.Nat
import RecordStore.Proofs.Filter.Tree
import RecordStore.Proofs.Placeholder.Pieces

/-!
# Filters written for PostgreSQL at once

Filters can be written with numbered placeholders and casts in one pass. A statement that is built
from texts that end outside quotes has all its casts in it, so writing its filters with `?` first,
and numbering and casting later, comes to the same text, whatever is written before and after them.
-/

namespace RecordStore

namespace Placeholder

/-- A text with its placeholders numbered from the one after `marks` on. -/
def numberMarks (quote : Option Char) (marks : Nat) : List Char → List Char
  | [] => []
  | c :: rest =>
    if isPlaceholder quote c then
      '$' :: (decimalDigits (marks + 1) ++ numberMarks (quoteAfter quote c) (marks + 1) rest)
    else c :: numberMarks (quoteAfter quote c) marks rest

/-- Without casts, the text of the pieces is the text with its placeholders numbered. -/
theorem flatMap_pieces_nil (quote : Option Char) (offset marks : Nat) (cs : List Char) :
    (pieces quote offset marks [] cs).flatMap Piece.text = numberMarks quote marks cs := by
  induction cs generalizing quote offset marks with
  | nil => rfl
  | cons c rest ih =>
    rw [pieces, numberMarks]
    simp only [List.takeWhile_nil, List.dropWhile_nil, List.map_nil, List.nil_append]
    split
    · rw [List.flatMap_cons, ih]
      rfl
    · rw [List.flatMap_cons, ih]
      rfl

/-- A text without casts is numbered wherever it stands. -/
theorem number_nil (quote : Option Char) (offset marks : Nat) (cs : List Char) :
    number quote offset marks [] cs = numberMarks quote marks cs := by
  rw [number_eq_flatMap, flatMap_pieces_nil]

/-- What follows a text is numbered after its marks, in the quote that it leaves open. -/
theorem numberMarks_append (quote : Option Char) (marks : Nat) (a b : List Char) :
    numberMarks quote marks (a ++ b) =
      numberMarks quote marks a ++
        numberMarks (quoteAfterAll quote a) (marks + count quote a) b := by
  have hpieces := pieces_append (placed_nil 0 a) (List.forall_mem_nil _) quote marks b
  rw [List.append_nil] at hpieces
  rw [← flatMap_pieces_nil quote 0, hpieces, List.flatMap_append, flatMap_pieces_nil,
    flatMap_pieces_nil]

/-- A text without placeholders stays as it is. -/
theorem numberMarks_of_count_eq_zero {quote : Option Char} {cs : List Char}
    (h : count quote cs = 0) (marks : Nat) : numberMarks quote marks cs = cs := by
  induction cs generalizing quote with
  | nil => rfl
  | cons c rest ih =>
    rw [count] at h
    rw [numberMarks]
    split
    · next hplaceholder =>
      rw [if_pos hplaceholder] at h
      omega
    · rw [ih (by omega)]

/-- A plain text stays as it is behind a text that ends outside quotes, and what follows it is
numbered after the marks of that text. -/
theorem numberMarks_plain_between {a b : List Char} (ha : IsClosed a) (hb : IsPlain b)
    (marks : Nat) (c : List Char) :
    numberMarks none marks (a ++ b ++ c) =
      numberMarks none marks a ++ b ++ numberMarks none (marks + count none a) c := by
  have hfront : quoteAfterAll none a = none := ha
  have hmiddle : quoteAfterAll none b = none := hb.closed
  rw [List.append_assoc, numberMarks_append, numberMarks_append, hfront, hmiddle,
    numberMarks_of_count_eq_zero hb.unmarked, hb.unmarked, Nat.add_zero, List.append_assoc]

end Placeholder

namespace Expr

open Placeholder

/-- The number of placeholders that a leaf is written with. -/
def ownPlaceholders : Expr → Nat
  | .raw sql _ => count none sql.toList
  | .compare column op _ => count none column.toList + count none op.toList + 1
  | .group _ _ => 0

/-- The number of placeholders that a filter is written with. -/
def placeholders (e : Expr) : Nat := (e.leaves.map ownPlaceholders).sum

mutual

/-- A filter as PostgreSQL takes it, with its placeholders numbered after `marks`; `beside` tells
that it stands beside another one. -/
def direct (beside : Bool) (marks : Nat) : Expr → List Char
  | .raw sql _ =>
    let text := numberMarks none marks sql.toList
    if beside && hasConjunction sql then '(' :: (text ++ [')']) else text
  | .compare column op arg =>
    let behind := marks + count none column.toList
    numberMarks none marks column.toList ++ ((if arg.isString then castText else []) ++
      (' ' :: (numberMarks none behind op.toList ++ ' ' :: '$' ::
        decimalDigits (behind + count none op.toList + 1))))
  | .group c members =>
    match directMembers (beside || 1 < (nonEmpty members).length) marks members with
    | [] => []
    | [only] => only
    | parts => '(' :: (c.separator.toList.intercalate parts ++ [')'])

/-- The filters of a list that write something, each as PostgreSQL takes it. -/
def directMembers (beside : Bool) (marks : Nat) : List Expr → List (List Char)
  | [] => []
  | e :: rest =>
    if e.isEmpty then directMembers beside marks rest
    else e.direct beside marks :: directMembers beside (marks + e.placeholders) rest

end

/-- The conjunction of filters as PostgreSQL takes it. -/
def directConditions (marks : Nat) (exprs : List Expr) : List Char :=
  Conjunction.and.separator.toList.intercalate
    (directMembers (1 < (nonEmpty exprs).length) marks exprs)

/-- A leaf whose text ends outside quotes: hand-written SQL, or the column and the operator of a
comparison. -/
def IsClosedLeaf : Expr → Prop
  | .raw sql _ => IsClosed sql.toList
  | .compare column op _ => IsClosed column.toList ∧ IsClosed op.toList
  | .group _ _ => False

instance (l : Expr) : Decidable l.IsClosedLeaf :=
  match l with
  | .raw sql _ => inferInstanceAs (Decidable (IsClosed sql.toList))
  | .compare column op _ =>
    inferInstanceAs (Decidable (IsClosed column.toList ∧ IsClosed op.toList))
  | .group _ _ => .isFalse id

/-- A statement that is settled and comes to what a filter is written as at once. -/
structure WrittenAs (beside : Bool) (e : Expr) (s : Statement) : Prop where
  settled : s.Settled
  marks : s.marks = e.placeholders
  numbered : ∀ marks, s.numbered marks = e.direct beside marks

end Expr

namespace Statement

open Placeholder

/-- A text alone is numbered by its placeholders. -/
theorem numbered_withArgs (sql : String) (args : List Json) (marks : Nat) :
    (withArgs sql args).numbered marks = numberMarks none marks sql.toList := by
  have hshift := pieces_add none 0 marks 0 [] sql.toList
  rw [numbered, pieces, withArgs, ← hshift]
  exact flatMap_pieces_nil none 0 marks sql.toList

/-- Without casts, a statement is written as its text with numbered placeholders. -/
theorem toList_toPostgres_withArgs (sql : String) (args : List Json) :
    (withArgs sql args).toPostgres.toList = numberMarks none 0 sql.toList := by
  rw [toPostgres, String.toList_ofList]
  exact number_nil none 0 0 sql.toList

/-- A plain text alone is written as it is. -/
theorem numbered_ofText {sql : String} (h : IsPlain sql.toList) (marks : Nat) :
    (ofText sql).numbered marks = sql.toList := by
  change (withArgs sql []).numbered marks = sql.toList
  rw [numbered_withArgs, numberMarks_of_count_eq_zero h.unmarked]

/-- A settled statement in parentheses is settled and gets parentheses around its text. -/
theorem Settled.paren {s : Statement} (hs : s.Settled) :
    ("(" ++ s ++ ")").Settled ∧ ("(" ++ s ++ ")").marks = s.marks ∧
      ∀ marks, ("(" ++ s ++ ")").numbered marks = '(' :: (s.numbered marks ++ [')']) := by
  have hopening := Settled.ofText IsPlain.opening.closed
  have hclosing := Settled.ofText IsPlain.closing.closed
  have hfront := hopening.append hs
  refine ⟨hfront.append hclosing, ?_, ?_⟩
  · change (Statement.ofText "(" ++ s ++ Statement.ofText ")").marks = s.marks
    rw [hfront.marks_append, hopening.marks_append]
    change 0 + s.marks + 0 = s.marks
    omega
  · intro marks
    change (Statement.ofText "(" ++ s ++ Statement.ofText ")").numbered marks = _
    rw [hfront.numbered_append, hopening.numbered_append, numbered_ofText IsPlain.opening,
      numbered_ofText IsPlain.closing]
    rfl

end Statement

namespace Expr

open Placeholder Statement

/-! ### Leaves -/

private theorem placeholders_raw (sql : String) (args : List Json) :
    (Expr.raw sql args).placeholders = count none sql.toList := by
  simp [placeholders, leaves, ownPlaceholders]

private theorem placeholders_compare (column op : String) (arg : Json) :
    (Expr.compare column op arg).placeholders =
      count none column.toList + count none op.toList + 1 := by
  simp [placeholders, leaves, ownPlaceholders]

private theorem writtenAs_raw {sql : String} (h : IsClosed sql.toList) (beside : Bool)
    (args : List Json) :
    WrittenAs beside (.raw sql args) ((Expr.raw sql args).render beside) := by
  have hsettled := Settled.withArgs h args
  rw [render]
  cases hwrap : beside && hasConjunction sql with
  | false =>
    refine ⟨hsettled, (placeholders_raw sql args).symm, ?_⟩
    intro marks
    rw [direct, hwrap]
    exact numbered_withArgs sql args marks
  | true =>
    have htext : Statement.withArgs (if true = true then "(" ++ sql ++ ")" else sql) args =
        "(" ++ Statement.withArgs sql args ++ ")" := by simp [Statement.withArgs]
    obtain ⟨hparen, hmarks, hnumbered⟩ := hsettled.paren
    rw [htext]
    refine ⟨hparen, hmarks.trans (placeholders_raw sql args).symm, ?_⟩
    intro marks
    rw [hnumbered, direct, hwrap, numbered_withArgs]
    rfl

/-- What stands behind the column of a comparison; its cast, if any, is the first thing in it. -/
def comparisonEnd (op : String) (args : List Json) (isText : Bool) : Statement :=
  ⟨" " ++ op ++ " ?", args, if isText then [0] else []⟩

/-- A comparison is its column and what stands behind that. -/
theorem render_compare (beside : Bool) (column op : String) (arg : Json) :
    (Expr.compare column op arg).render beside =
      Statement.ofText column ++ comparisonEnd op [arg] arg.isString := by
  rw [render]
  change _ = Statement.append _ _
  cases arg.isString <;>
    simp [Statement.ofText, Statement.append, comparisonEnd, String.append_assoc]

private theorem toList_comparisonEnd (op : String) (args : List Json) (isText : Bool) :
    (comparisonEnd op args isText).sql.toList = ' ' :: (op.toList ++ [' ', '?']) := by
  simp [comparisonEnd, String.toList_append]

/-- The cast behind the column of a comparison is in front of a blank. -/
theorem placed_comparisonEnd (op : String) (args : List Json) (isText : Bool) :
    Placed 0 (comparisonEnd op args isText).casts (comparisonEnd op args isText).sql.toList := by
  rw [toList_comparisonEnd, Placed]
  cases isText <;> exact placed_nil _ _

section Operator

variable {op : String} (h : IsClosed op.toList) (args : List Json) (isText : Bool)

include h

/-- What stands behind the column of a comparison is settled. -/
theorem settled_comparisonEnd : (comparisonEnd op args isText).Settled where
  closed := by
    have hmark : IsClosed [' ', '?'] := by decide
    rw [toList_comparisonEnd]
    exact h.append hmark
  placed := placed_comparisonEnd op args isText

private theorem marks_comparisonEnd :
    (comparisonEnd op args isText).marks = count none op.toList + 1 := by
  have hmark : count none [' ', '?'] = 1 := by decide
  rw [marks, toList_comparisonEnd]
  change 0 + count none (op.toList ++ [' ', '?']) = _
  rw [h.count_append, hmark, Nat.zero_add]

private theorem numbered_comparisonEnd (marks : Nat) :
    (comparisonEnd op args isText).numbered marks =
      (if isText then castText else []) ++
        (' ' :: (numberMarks none marks op.toList ++ ' ' :: '$' ::
          decimalDigits (marks + count none op.toList + 1))) := by
  have hmark : numberMarks none marks (op.toList ++ [' ', '?']) =
      numberMarks none marks op.toList ++ ' ' :: '$' ::
        decimalDigits (marks + count none op.toList + 1) := by
    rw [numberMarks_append, h]
    simp [numberMarks, isPlaceholder, quoteAfter]
  have hpieces (offset : Nat) : (Placeholder.pieces none offset marks []
      (op.toList ++ [' ', '?'])).flatMap Piece.text = _ :=
    (flatMap_pieces_nil none offset marks _).trans hmark
  rw [numbered, Statement.pieces, ← pieces_add none 0 marks 0, toList_comparisonEnd,
    Placeholder.pieces]
  cases isText <;> simp [comparisonEnd, isPlaceholder, quoteAfter, Piece.text, hpieces]

end Operator

private theorem writtenAs_compare {column op : String} (h : IsClosed column.toList)
    (hop : IsClosed op.toList) (beside : Bool) (arg : Json) :
    WrittenAs beside (.compare column op arg) ((Expr.compare column op arg).render beside) := by
  have hcolumn := Settled.ofText h
  rw [render_compare]
  refine ⟨hcolumn.append (settled_comparisonEnd hop [arg] arg.isString), ?_, ?_⟩
  · rw [hcolumn.marks_append, marks_comparisonEnd hop, placeholders_compare, Nat.add_assoc]
    rfl
  · intro marks
    rw [hcolumn.numbered_append, numbered_comparisonEnd hop, direct]
    change (Statement.withArgs column []).numbered marks ++ _ = _
    rw [numbered_withArgs]
    rfl

/-- A leaf whose text ends outside quotes is written as at once. -/
theorem writtenAs_leaf {l : Expr} (h : l.IsClosedLeaf) (beside : Bool) :
    WrittenAs beside l (l.render beside) := by
  match l, h with
  | .raw sql args, h => exact writtenAs_raw h beside args
  | .compare column op arg, h => exact writtenAs_compare h.1 h.2 beside arg

/-! ### Groups and conjunctions -/

private theorem directMembers_cons {e : Expr} (he : e.isEmpty = false) (beside : Bool)
    (marks : Nat) (rest : List Expr) :
    directMembers beside marks (e :: rest) =
      e.direct beside marks :: directMembers beside (marks + e.placeholders) rest := by
  rw [directMembers, he, if_neg (by simp)]

private theorem directMembers_nonEmpty (beside : Bool) (marks : Nat) (exprs : List Expr) :
    directMembers beside marks exprs = directMembers beside marks (nonEmpty exprs) := by
  induction exprs generalizing marks with
  | nil => rfl
  | cons e rest ih =>
    rw [nonEmpty, List.filter_cons, ← nonEmpty]
    cases he : e.isEmpty with
    | true =>
      rw [directMembers, he, if_pos rfl, ih]
      rfl
    | false =>
      rw [directMembers_cons he, ih]
      exact (directMembers_cons he beside marks (nonEmpty rest)).symm

private theorem isEmpty_of_mem_nonEmpty {exprs : List Expr} {e : Expr} (h : e ∈ nonEmpty exprs) :
    e.isEmpty = false := by
  simpa using (List.mem_filter.1 h).2

-- Filters written as at once are so with a conjunction between them.
private theorem join_written (c : Conjunction) {beside : Bool} {exprs : List Expr}
    {parts : List Statement} (hexprs : ∀ e ∈ exprs, e.isEmpty = false)
    (h : List.Forall₂ (WrittenAs beside) exprs parts) :
    (Statement.join c.separator parts).Settled ∧
      (Statement.join c.separator parts).marks = (exprs.map placeholders).sum ∧
      ∀ marks, (Statement.join c.separator parts).numbered marks =
        c.separator.toList.intercalate (directMembers beside marks exprs) := by
  have hplain : IsPlain c.separator.toList := by cases c <;> decide
  have hseparator := Settled.ofText hplain.closed
  have hempty : (∅ : Statement).Settled := ⟨rfl, rfl⟩
  induction h with
  | nil => exact ⟨hempty, rfl, fun marks ↦ rfl⟩
  | @cons e s exprs parts hs hrest ih =>
    rw [List.forall_mem_cons] at hexprs
    cases hrest with
    | nil =>
      refine ⟨hs.settled, ?_, ?_⟩
      · simpa [Statement.join] using hs.marks
      · intro marks
        rw [directMembers_cons hexprs.1, directMembers, List.intercalate_singleton]
        exact hs.numbered marks
    | @cons e' s' exprs' parts' hs' hrest' =>
      obtain ⟨hsettled, hmarks, hnumbered⟩ := ih hexprs.2
      have htail := hseparator.append hsettled
      refine ⟨hs.settled.append htail, ?_, ?_⟩
      · change (s ++ (Statement.ofText c.separator ++ _)).marks = _
        rw [hs.settled.marks_append, hseparator.marks_append, hmarks, hs.marks]
        change e.placeholders + (count none c.separator.toList + _) = _
        rw [hplain.unmarked, Nat.zero_add]
        rfl
      · intro marks
        have hseparator_marks : (Statement.ofText c.separator).marks = 0 := hplain.unmarked
        have hne : directMembers beside (marks + e.placeholders) (e' :: exprs') ≠ [] := by
          rw [directMembers_cons (hexprs.2 e' (by simp))]
          simp
        change (s ++ (Statement.ofText c.separator ++ _)).numbered marks = _
        rw [hs.settled.numbered_append, hseparator.numbered_append, hnumbered, hs.numbered,
          hs.marks, numbered_ofText hplain, hseparator_marks, Nat.add_zero,
          directMembers_cons hexprs.1 beside marks, List.intercalate_cons_of_ne_nil hne,
          List.append_assoc]

private theorem placeholders_group (c : Conjunction) (members : List Expr) :
    (Expr.group c members).placeholders = ((nonEmpty members).map placeholders).sum := by
  have hsum : ∀ exprs : List Expr,
      ((exprs.flatMap leaves).map ownPlaceholders).sum = (exprs.map placeholders).sum := by
    intro exprs
    induction exprs with
    | nil => rfl
    | cons e rest ih =>
      rw [List.flatMap_cons, List.map_append, List.sum_append, ih, List.map_cons, List.sum_cons]
      rfl
  rw [placeholders, leaves, leavesOf_eq_flatMap, hsum]

/-- Groups inherit from their members that they are written as at once. -/
theorem inherited_writtenAs : Inherited WrittenAs where
  alone := by
    intro beside c members only s honly h
    have hmem : only ∈ nonEmpty members := by simp [honly]
    have hne := isEmpty_of_mem_nonEmpty hmem
    refine ⟨h.settled, ?_, ?_⟩
    · rw [h.marks, placeholders_group, honly]
      simp
    · intro marks
      rw [h.numbered, direct, directMembers_nonEmpty, honly, directMembers_cons hne]
      simp [directMembers]
  group := by
    intro beside c members parts hmany h
    obtain ⟨hsettled, hmarks, hnumbered⟩ := join_written c (fun _ ↦ isEmpty_of_mem_nonEmpty) h
    obtain ⟨hparen, hparen_marks, hparen_numbered⟩ := hsettled.paren
    refine ⟨hparen, ?_, ?_⟩
    · rw [hparen_marks, hmarks, placeholders_group]
    · intro marks
      rw [hparen_numbered, hnumbered, direct, decide_eq_true hmany, Bool.or_true,
        directMembers_nonEmpty true marks members]
      match hmembers : nonEmpty members with
      | [] =>
        rw [hmembers] at hmany
        exact absurd hmany (by simp)
      | [only] =>
        rw [hmembers] at hmany
        exact absurd hmany (by simp)
      | first :: second :: rest =>
        have hfirst : first ∈ nonEmpty members := by simp [hmembers]
        have hsecond : second ∈ nonEmpty members := by simp [hmembers]
        rw [directMembers_cons (isEmpty_of_mem_nonEmpty hfirst),
          directMembers_cons (isEmpty_of_mem_nonEmpty hsecond)]

/-- Filters whose leaves end outside quotes are written as at once. -/
theorem conditions_written {exprs : List Expr} (h : ∀ l ∈ leavesOf exprs, l.IsClosedLeaf) :
    (conditions exprs).Settled ∧
      (conditions exprs).marks = ((nonEmpty exprs).map placeholders).sum ∧
      ∀ marks, (conditions exprs).numbered marks = directConditions marks exprs := by
  have hmembers := inherited_writtenAs.renderMembers exprs (1 < (nonEmpty exprs).length)
    fun l hl b _ ↦ writtenAs_leaf (h l hl) b
  obtain ⟨hsettled, hmarks, hnumbered⟩ :=
    join_written .and (fun _ ↦ isEmpty_of_mem_nonEmpty) hmembers
  refine ⟨hsettled, hmarks, ?_⟩
  intro marks
  rw [conditions, hnumbered, directConditions, ← directMembers_nonEmpty]

end Expr

namespace Statement

open Placeholder

/-! ### Statements built step by step -/

/-- A statement that is built by appending texts that end outside quotes, with or without arguments,
other such statements, and filters. -/
inductive Built : Statement → Prop where
  | new {sql : String} (args : List Json) (h : IsClosed sql.toList) : Built (withArgs sql args)
  | push {s : Statement} {sql : String} (hs : Built s) (h : IsClosed sql.toList) : Built (s ++ sql)
  | pushArg {s : Statement} {sql : String} (arg : Json) (hs : Built s) (h : IsClosed sql.toList) :
    Built (s ++ withArgs sql [arg])
  | append {s t : Statement} (hs : Built s) (ht : Built t) : Built (s ++ t)
  | conditions {s : Statement} {exprs : List Expr} (hs : Built s)
    (h : ∀ l ∈ Expr.leavesOf exprs, l.IsClosedLeaf) : Built (s ++ RecordStore.conditions exprs)

/-- A statement that is built step by step ends outside quotes and has all its casts in it. -/
theorem Built.settled {s : Statement} (hs : Built s) : s.Settled := by
  induction hs with
  | new args h => exact .withArgs h args
  | push _ h ih => exact ih.append (.ofText h)
  | pushArg arg _ h ih => exact ih.append (.withArgs h [arg])
  | append _ _ ihs iht => exact ihs.append iht
  | conditions _ h ih => exact ih.append (Expr.conditions_written h).1

end Statement

end RecordStore
