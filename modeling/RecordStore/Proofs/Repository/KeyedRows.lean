import Mathlib.Data.List.Sort
import RecordStore.Repository.Batches

/-!
# Rows in the order of their keys

The rows that a query matches have keys, no two of them the same. A store gives them page by page:
so many rows at a time, in the order of the keys, after the last key of the page before. Every page
but the last is full, and the last one is not, so that it may be without rows.
-/

namespace RecordStore

/-! ### Pages -/

/-- The pages in which rows are fetched so many at a time, up to one that is not full. -/
inductive Pages {β : Type} (size : Nat) : List β → List (List β) → Prop
  | last {rows : List β} (h : rows.length < size) : Pages size rows [rows]
  | full {page rest : List β} {pages : List (List β)} (h : page.length = size)
      (hrest : Pages size rest pages) : Pages size (page ++ rest) (page :: pages)

namespace Pages

variable {β : Type} {size : Nat} {rows : List β} {pages : List (List β)}

/-- All rows are fetched in pages of any size but zero. -/
theorem exists_of_pos (hsize : 0 < size) (rows : List β) : ∃ pages, Pages size rows pages := by
  induction hlength : rows.length using Nat.strongRecOn generalizing rows with
  | ind n ih =>
    by_cases hshort : rows.length < size
    · exact ⟨[rows], .last hshort⟩
    · obtain ⟨pages, hpages⟩ := ih (rows.drop size).length (by rw [List.length_drop]; omega)
        (rows.drop size) rfl
      have hpage : (rows.take size).length = size := by
        rw [List.length_take]
        omega
      have hfull := Pages.full hpage hpages
      rw [List.take_append_drop] at hfull
      exact ⟨_, hfull⟩

theorem flatten_eq (h : Pages size rows pages) : pages.flatten = rows := by
  induction h with
  | last h => simp
  | full h _ ih => rw [List.flatten_cons, ih]

/-- There is one page more than full ones. -/
theorem length_eq (hsize : 0 < size) (h : Pages size rows pages) :
    pages.length = rows.length / size + 1 := by
  induction h with
  | last h =>
    rw [Nat.div_eq_of_lt h]
    rfl
  | full h _ ih =>
    rw [List.length_cons, ih, List.length_append, h, Nat.add_comm size,
      Nat.add_div_right _ hsize]

/-- The pages with rows. -/
def visited (pages : List (List β)) : List (List β) := pages.filter fun page ↦ !page.isEmpty

theorem flatten_visited (pages : List (List β)) : (visited pages).flatten = pages.flatten :=
  List.flatten_filter_not_isEmpty

/-- Of the pages with rows, all but the last are full. -/
theorem length_of_mem_dropLast_visited (hsize : 0 < size) (h : Pages size rows pages) :
    ∀ page ∈ (visited pages).dropLast, page.length = size := by
  induction h with
  | @last rows h =>
    rw [visited, List.filter_singleton]
    cases rows <;> exact List.forall_mem_nil _
  | @full page rest pages h _ ih =>
    have hvisited : visited (page :: pages) = page :: visited pages := by
      cases page with
      | nil => exact absurd h hsize.ne
      | cons row page => rfl
    rw [hvisited]
    by_cases hnil : visited pages = []
    · rw [hnil]
      exact List.forall_mem_nil _
    · rw [List.dropLast_cons_of_ne_nil hnil, List.forall_mem_cons]
      exact ⟨h, ih⟩

end Pages

/-! ### Rows with keys -/

/-- The rows that the query of a repository matches, in any order: each is read as a value whose
JSON has the row's key as its primary key, and no two keys are the same. -/
structure KeyedRows {α : Type} (r : Repository α) (κ : Type) where
  rows : List Row
  key : Row → κ
  value : Row → α
  /-- A key as a JSON value. -/
  json : κ → Json
  reads : ∀ row ∈ rows, r.model.ofRow row = .ok (value row)
  holds : ∀ row ∈ rows,
    (r.model.toJson (value row)).fieldsOrEmpty.get? r.query.primaryKey = some (json (key row))
  distinct : (rows.map key).Nodup

namespace KeyedRows

variable {α κ : Type} [LinearOrder κ] {r : Repository α}

/-- The rows in ascending order of their keys. -/
def ascending (t : KeyedRows r κ) : List Row := t.rows.insertionSort fun a b ↦ t.key a ≤ t.key b

/-- The first rows, so many, whose key is greater than a given one; from the start without one. -/
def page (t : KeyedRows r κ) (size : Nat) (after : Option κ) : List Row :=
  (t.ascending.filter fun row ↦ after.all fun k ↦ k < t.key row).take size

/-- A store that answers the read of a batch, from the start or after the key of a row, with the
next rows in ascending order of their keys. -/
def ServedBy (t : KeyedRows r κ) (size : Int64) (store : Executed → Reply) : Prop :=
  ∀ after : Option κ, (∀ k ∈ after, k ∈ t.rows.map t.key) →
    store (.ofStatement ((r.query.batch size (after.map t.json)).selectStatement [])) =
      .rows (t.page size.toInt.toNat after)

variable (t : KeyedRows r κ)

/-- The order leaves the rows as they are. -/
theorem perm_ascending : t.ascending.Perm t.rows := List.perm_insertionSort _ _

theorem length_ascending : t.ascending.length = t.rows.length := t.perm_ascending.length_eq

/-- The keys ascend strictly. -/
theorem pairwise_ascending : t.ascending.Pairwise fun a b ↦ t.key a < t.key b := by
  have htotal : Std.Total fun a b : Row ↦ t.key a ≤ t.key b := ⟨fun a b ↦ le_total _ _⟩
  have htrans : IsTrans Row fun a b ↦ t.key a ≤ t.key b := ⟨fun a b c ↦ le_trans⟩
  have hle := List.pairwise_insertionSort (fun a b ↦ t.key a ≤ t.key b) t.rows
  have hne : t.ascending.Pairwise fun a b ↦ t.key a ≠ t.key b :=
    List.pairwise_map.1 ((t.perm_ascending.map t.key).nodup_iff.2 t.distinct)
  exact (hle.and hne).imp fun h ↦ lt_of_le_of_ne h.1 h.2

-- In ascending order, the rows with a greater key than one of them are those behind it.
private theorem filter_greater {before after : List Row} {row : Row}
    (h : (before ++ row :: after).Pairwise fun a b ↦ t.key a < t.key b) :
    (before ++ row :: after).filter (fun other ↦ t.key row < t.key other) = after := by
  rw [List.pairwise_append, List.pairwise_cons] at h
  obtain ⟨-, ⟨hafter, -⟩, hbefore⟩ := h
  have hnone : before.filter (fun other ↦ t.key row < t.key other) = [] := by
    rw [List.filter_eq_nil_iff]
    intro other hother
    simpa using (hbefore other hother row List.mem_cons_self).le
  have hall : after.filter (fun other ↦ t.key row < t.key other) = after := by
    rw [List.filter_eq_self]
    intro other hother
    simpa using hafter other hother
  rw [List.filter_append, hnone, List.filter_cons_of_neg (by simp), hall, List.nil_append]

/-- Behind the rows fetched so far, a page has the next rows. -/
theorem page_eq {before after : List Row} (h : t.ascending = before ++ after) (size : Nat) :
    t.page size (before.getLast?.map t.key) = after.take size := by
  rw [page, h]
  rcases List.eq_nil_or_concat' before with rfl | ⟨earlier, row, rfl⟩
  · simp
  · have hsorted := t.pairwise_ascending
    rw [h, List.append_assoc, List.singleton_append] at hsorted
    have hgreater := t.filter_greater hsorted
    rw [List.getLast?_concat, Option.map_some, List.append_assoc, List.singleton_append]
    exact congrArg (List.take size) hgreater

/-- A store that serves the rows answers, behind the rows fetched so far, with the next ones. -/
theorem ServedBy.answer {t : KeyedRows r κ} {size : Int64} {store : Executed → Reply}
    (hserved : t.ServedBy size store) {before after : List Row}
    (h : t.ascending = before ++ after) :
    store (.ofStatement ((r.query.batch size
        (before.getLast?.map fun row ↦ t.json (t.key row))).selectStatement [])) =
      .rows (after.take size.toInt.toNat) := by
  have hkey : ∀ k ∈ before.getLast?.map t.key, k ∈ t.rows.map t.key := by
    intro k hk
    obtain ⟨row, hrow, rfl⟩ := Option.mem_map.1 hk
    have hmem : row ∈ t.ascending := by
      rw [h]
      exact List.mem_append_left _ (List.mem_of_mem_getLast? hrow)
    exact List.mem_map_of_mem (t.perm_ascending.mem_iff.1 hmem)
  have hanswer := hserved _ hkey
  rwa [t.page_eq h, Option.map_map] at hanswer

end KeyedRows

end RecordStore
