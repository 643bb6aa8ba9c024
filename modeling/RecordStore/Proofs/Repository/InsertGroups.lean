import RecordStore.Proofs.Query.InsertedColumns
import RecordStore.Proofs.Repository.StoredRows

/-!
# Groups of inserted rows

The rows that an insertion is given fall into two groups, those with an assigned primary key and
those without one. Each group that has rows is inserted by a statement of its own, so every row is
written once, and no statement has one column of keys for rows of both groups.
-/

namespace RecordStore

/-- Statements that insert rows in two groups: those with an assigned primary key first, and then
those without one. -/
structure Query.InsertsApart (q : Query) (rows : List Fields) (sent : List Statement)
    (keyed fresh : List Fields) : Prop where
  /-- Each row stands in one of the groups, once. -/
  rows_perm : (keyed ++ fresh).Perm rows
  /-- In each group the rows stand in their order. -/
  keyed_sublist : keyed.Sublist rows
  fresh_sublist : fresh.Sublist rows
  assigned : ∀ row ∈ keyed, ∃ key, row.get? q.primaryKey = some key ∧ key.isUnassigned = false
  /-- Null, the empty text and the zeros of either kind are no key. -/
  unassigned : ∀ row ∈ fresh, ∀ key, row.get? q.primaryKey = some key →
    key = .null ∨ key = .string "" ∨ ∃ n, key = .number n ∧ n.isZero = true
  /-- There is one statement for each group that has rows. -/
  statements : List.Forall₂ q.InsertsGroup ([keyed, fresh].filter (!·.isEmpty)) sent
  length_le : sent.length ≤ 2

namespace Repository

variable {α : Type}

private theorem exists_key_of_isKeyed {primaryKey : String} {row : Fields}
    (h : isKeyed primaryKey row = true) :
    ∃ key, row.get? primaryKey = some key ∧ key.isUnassigned = false := by
  rw [isKeyed, Option.any_eq_true] at h
  obtain ⟨key, hkey, hassigned⟩ := h
  exact ⟨key, hkey, by simpa using hassigned⟩

private theorem isUnassigned_of_not_isKeyed {primaryKey : String} {row : Fields}
    (h : isKeyed primaryKey row = false) {key : Json} (hkey : row.get? primaryKey = some key) :
    key.isUnassigned = true := by
  rw [isKeyed, hkey, Option.any_some] at h
  simpa using h

namespace Inserted

variable {r : Repository α} {q : Query} {session : Session} {group : List Fields} {stored : List α}
  {sent : List Statement}

/-- A group is inserted by one statement, and by none without rows. -/
theorem statements (h : r.Inserted q session group stored sent)
    (huniform : (∀ row ∈ group, isKeyed q.primaryKey row = true) ∨
      ∀ row ∈ group, isKeyed q.primaryKey row = false) :
    List.Forall₂ q.InsertsGroup ([group].filter (!·.isEmpty)) sent := by
  cases h with
  | nothing => exact .nil
  | @answered _ s found _ hgroup hs hfound hstored =>
    have hkept : [group].filter (!·.isEmpty) = [group] := by
      simp [List.isEmpty_eq_false_iff.2 hgroup]
    rw [hkept]
    refine .cons (Query.insertsGroup hs ?_) .nil
    refine huniform.imp ?_ ?_
    · intro hkeyed row hrow
      exact exists_key_of_isKeyed (hkeyed row hrow)
    · intro hfresh row hrow key hkey
      exact isUnassigned_of_not_isKeyed (hfresh row hrow) hkey

theorem length_le (h : r.Inserted q session group stored sent) : sent.length ≤ 1 := by
  cases h <;> simp

end Inserted

/-- The statements of an insertion insert its rows in two groups. -/
theorem Insertion.insertsApart {r : Repository α} {q : Query} {values : List α} {session : Session}
    (ins : Insertion r q values session) :
    q.InsertsApart ins.rows (ins.keyedSent ++ ins.freshSent)
      (ins.rows.filter (isKeyed q.primaryKey)) (ins.rows.filter (!isKeyed q.primaryKey ·)) where
  rows_perm := List.filter_append_perm _ _
  keyed_sublist := List.filter_sublist
  fresh_sublist := List.filter_sublist
  assigned := by
    intro row hrow
    exact exists_key_of_isKeyed (List.mem_filter.1 hrow).2
  unassigned := by
    intro row hrow key hkey
    have hfresh : isKeyed q.primaryKey row = false := by
      simpa using (List.mem_filter.1 hrow).2
    exact (Json.isUnassigned_iff key).1 (isUnassigned_of_not_isKeyed hfresh hkey)
  statements := by
    have hkeyed := ins.insertsKeyed.statements
      (.inl fun row hrow ↦ (List.mem_filter.1 hrow).2)
    have hfresh := ins.insertsFresh.statements
      (.inr fun row hrow ↦ by simpa using (List.mem_filter.1 hrow).2)
    have hgroups : ∀ keyed fresh : List Fields, [keyed, fresh].filter (!·.isEmpty) =
        [keyed].filter (!·.isEmpty) ++ [fresh].filter (!·.isEmpty) :=
      fun keyed fresh ↦ List.filter_append [keyed] [fresh]
    rw [hgroups]
    exact List.rel_append hkeyed hfresh
  length_le := by
    have hkeyed := ins.insertsKeyed.length_le
    have hfresh := ins.insertsFresh.length_le
    rw [List.length_append]
    omega

/-- The rows of an insertion are inserted in two groups. It succeeds when every statement is built
and answered with rows that can be read. -/
structure InsertsRowsApart (r : Repository α) (q : Query) (values : List α) (session : Session)
    (action : Action RepositoryError (List α)) : Prop where
  succeeds : ∀ ins : Insertion r q values session, ∃ result,
    action.runIn session = (.ok result, ins.later)
  inserts : ∀ result later, action.runIn session = (.ok result, later) →
    ∃ rows sent keyed fresh, values.mapM r.model.fields = .ok rows ∧
      later = session.after sent [] ∧ q.InsertsApart rows sent keyed fresh

theorem insert_insertsRowsApart (r : Repository α) (q : Query) (values : List α)
    (session : Session) : r.InsertsRowsApart q values session (r.insert q values) where
  succeeds := fun ins ↦ ⟨_, ins.runIn_insert⟩
  inserts := by
    intro result later h
    obtain ⟨ins, hlater, -⟩ := Insertion.exists_of_runIn_insert h
    exact ⟨ins.rows, _, _, _, ins.fields, hlater, ins.insertsApart⟩

/-- Creating and saving insert every row by one statement, the rows with an assigned key by the
first and those without one by the second; and in each statement every object carries the primary
key and the columns hold it, or none does and they do not. -/
theorem rows_inserted_apart (r : Repository α) (values : List α) (session : Session) :
    r.InsertsRowsApart r.query values session (r.create values) ∧
      r.InsertsRowsApart (r.query.clause .onConflictUpdateAll) values session (r.save values) :=
  ⟨r.insert_insertsRowsApart r.query values session, r.insert_insertsRowsApart _ values session⟩

/-- The empty text and a real zero are no key, so their rows share a statement without the column of
keys, after the row whose key is 7. -/
theorem rows_inserted_apart_by_key :
    let row (id : Json) (price : Int) : Fields := .ofList [("id", id), ("price", .int price)]
    let model :=
      Schema.model [.column "id" .any .null, .column "price" .integer (.int 0)] (.named "t")
    let r : Repository Fields := .ofModel model ⟨⟨"", 10, 20, 100⟩, "req"⟩
    let values := [row (.string "") 1, row (.int 7) 2, row (.number (.real (.zero true))) 3]
    let session : Session :=
      ⟨[.rows [row (.int 7) 2], .rows [row (.int 8) 1, row (.int 9) 3]], [], []⟩
    ∃ result later rows sent keyed fresh,
      (r.create values).runIn session = (.ok result, later) ∧
      r.query.InsertsApart rows sent keyed fresh ∧
      later.executed.map (·.args) =
        [[.jsonb (.array [.object [("id", .int 7), ("price", .int 2)]])],
          [.jsonb (.array [.object [("price", .int 1)], .object [("price", .int 3)]])]] := by
  intro row model r values session
  obtain ⟨result, later, hrun⟩ : ∃ result later,
      (r.create values).runIn session = (.ok result, later) := ⟨_, _, rfl⟩
  obtain ⟨rows, sent, keyed, fresh, -, hlater, happart⟩ :=
    (rows_inserted_apart r values session).1.inserts result later hrun
  refine ⟨result, later, rows, sent, keyed, fresh, hrun, happart, ?_⟩
  have hexecuted : later = ((r.create values).runIn session).2 := by rw [hrun]
  rw [hexecuted]
  decide +kernel

end Repository

end RecordStore
