import RecordStore.Json.Basic
import RecordStore.Text.Split

/-!
# Statements

A statement is SQL text with `?` for each argument, its arguments in that order, and the places
where a column is read as text. A place is the offset in bytes right after the column. Statements
are built by appending: the places of the second part move by the length of the first.
-/

namespace RecordStore

/-- SQL text with `?` placeholders and the arguments in their order. -/
structure Statement where
  sql : String
  args : List Json
  /-- Byte offsets in `sql` right after a column that is read as text. -/
  casts : List Nat
deriving DecidableEq

namespace Statement

/-- SQL text without arguments. -/
def ofText (sql : String) : Statement := ⟨sql, [], []⟩

/-- The statement that says nothing. -/
def empty : Statement := ofText ""

instance : EmptyCollection Statement := ⟨empty⟩

/-- SQL text with arguments for its placeholders. -/
def withArgs (sql : String) (args : List Json) : Statement := ⟨sql, args, []⟩

/-- One statement after another. -/
def append (first second : Statement) : Statement :=
  ⟨first.sql ++ second.sql, first.args ++ second.args,
    first.casts ++ second.casts.map (byteLength first.sql.toList + ·)⟩

instance : Append Statement := ⟨append⟩

/-- A text is appended as the statement without arguments that it is. -/
instance : HAppend Statement String Statement := ⟨fun first sql ↦ first ++ ofText sql⟩

/-- A statement appended to a text. -/
instance : HAppend String Statement Statement := ⟨fun sql second ↦ ofText sql ++ second⟩

/-- Statements one after another with a text between them. -/
def join (separator : String) : List Statement → Statement
  | [] => empty
  | [only] => only
  | first :: second :: rest => first ++ (separator ++ join separator (second :: rest))

@[simp] theorem sql_append (a b : Statement) : (a ++ b).sql = a.sql ++ b.sql := rfl

@[simp] theorem args_append (a b : Statement) : (a ++ b).args = a.args ++ b.args := rfl

@[simp] theorem casts_append (a b : Statement) :
    (a ++ b).casts = a.casts ++ b.casts.map (byteLength a.sql.toList + ·) := rfl

/-- Appending a text writes it and changes nothing else. -/
@[simp] theorem append_text (s : Statement) (sql : String) :
    s ++ sql = ⟨s.sql ++ sql, s.args, s.casts⟩ := by
  change append s (ofText sql) = _
  simp [append, ofText]

/-- A text in front moves the places by its length and changes nothing else. -/
@[simp] theorem text_append (sql : String) (s : Statement) :
    sql ++ s = ⟨sql ++ s.sql, s.args, s.casts.map (byteLength sql.toList + ·)⟩ := by
  change append (ofText sql) s = _
  simp [append, ofText]

theorem empty_append (s : Statement) : ∅ ++ s = s := by
  change append ∅ s = s
  simp [append, EmptyCollection.emptyCollection, empty, ofText, byteLength]

theorem append_empty (s : Statement) : s ++ ∅ = s := by
  change append s ∅ = s
  simp [append, EmptyCollection.emptyCollection, empty, ofText]

/-- Appending is associative, the places included. -/
theorem append_assoc (a b c : Statement) : a ++ b ++ c = a ++ (b ++ c) := by
  rw [show a ++ b ++ c = append (append a b) c from rfl,
    show a ++ (b ++ c) = append a (append b c) from rfl]
  simp [append, String.append_assoc, Function.comp_def, Nat.add_assoc]

/-- What is joined in two groups is joined as one. -/
theorem join_append (separator : String) {first second : List Statement} (hfirst : first ≠ [])
    (hsecond : second ≠ []) :
    join separator (first ++ second) =
      join separator first ++ (separator ++ join separator second) := by
  induction first with
  | nil => exact absurd rfl hfirst
  | cons part rest ih =>
    cases rest with
    | nil =>
      match second, hsecond with
      | next :: others, _ => rfl
    | cons next others =>
      have hjoin : join separator (part :: next :: others) =
          part ++ (ofText separator ++ join separator (next :: others)) := rfl
      rw [hjoin, append_assoc, append_assoc]
      exact congrArg (fun t ↦ part ++ (ofText separator ++ t)) (ih (by simp))

/-- Statements with a text between them have their texts with that text between them. -/
theorem sql_join (separator : String) (parts : List Statement) :
    (join separator parts).sql = String.intercalate separator (parts.map sql) := by
  induction parts with
  | nil => rfl
  | cons first rest ih =>
    cases rest with
    | nil => simp [join]
    | cons second rest =>
      rw [List.map_cons, List.map_cons, String.intercalate_cons_cons, ← List.map_cons, ← ih]
      simp [join, String.append_assoc]

/-- Statements with a text between them have the arguments of each, in their order. -/
theorem args_join (separator : String) (parts : List Statement) :
    (join separator parts).args = parts.flatMap args := by
  induction parts with
  | nil => rfl
  | cons first rest ih =>
    cases rest with
    | nil => simp [join]
    | cons second rest =>
      rw [List.flatMap_cons, ← ih]
      simp [join]

end Statement

end RecordStore
