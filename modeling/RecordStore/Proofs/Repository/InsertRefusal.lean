import RecordStore.Proofs.Query.InsertedColumns
import RecordStore.Proofs.Repository.StoredRows

/-!
# Insertions that are refused

The rows without an assigned key are looked at only when those with one have been stored. So an
insertion that is refused for having nothing to write may have written: it leaves the store as it
was exactly when no field of a row with an assigned key may be written.
-/

namespace RecordStore

namespace Repository

variable {α : Type} {r : Repository α} {q : Query} {values : List α} {session later : Session}
  {refusal : Refusal}

private theorem runIn_require_error (ctx : Context) (refusal : Refusal) (session : Session) :
    (ctx.require (.error refusal) : Action RepositoryError α).runIn session =
      (.error ⟨.database, .refusal refusal⟩,
        session.after [] [ctx.event ⟨.database, .refusal refusal⟩]) :=
  ctx.runIn_require_eq (.error refusal)

-- A group is refused by its statement, which is then not executed.
private theorem of_runIn_insertGroup_refused {rows : List (Fields × Nat)}
    (h : (r.insertGroup q rows).runIn session = (.error ⟨.database, .refusal refusal⟩, later)) :
    rows ≠ [] ∧ q.insertStatement (rows.map (·.1)) = .error refusal ∧
      later = session.after [] [r.context.event ⟨.database, .refusal refusal⟩] := by
  by_cases hrows : rows = []
  · rw [hrows, runIn_insertGroup_nil] at h
    cases h
  · rw [runIn_insertGroup r q hrows] at h
    cases hs : q.insertStatement (rows.map (·.1)) with
    | error other =>
      rw [hs] at h
      dsimp only at h
      rw [runIn_require_error] at h
      cases h
      exact ⟨hrows, rfl, rfl⟩
    | ok s =>
      rw [hs] at h
      dsimp only at h
      cases hdecode : (session.answer 0).decodeAll r.model.ofRow with
      | error e =>
        rw [hdecode] at h
        cases h
      | ok stored =>
        rw [hdecode] at h
        cases h

/-- Why an insertion is refused, with the statements that have been executed by then. -/
inductive InsertionRefused (r : Repository α) (q : Query) (values : List α) (session : Session) :
    Refusal → List Statement → Prop
  /-- A value is not written as an object. -/
  | fields {refusal : Refusal} (hfields : values.mapM r.model.fields = .error refusal) :
    InsertionRefused r q values session refusal []
  /-- There are rows with an assigned key, and no field of them may be written. -/
  | keyed {rows : List Fields} (hrows : values.mapM r.model.fields = .ok rows)
    (hgroup : rows.filter (isKeyed q.primaryKey) ≠ [])
    (hnothing : ∀ row ∈ rows.filter (isKeyed q.primaryKey), (q.insertedFields row).names = []) :
    InsertionRefused r q values session .noColumns []
  /-- The rows with an assigned key have been stored, there are rows without one, and no field of
  them may be written. -/
  | fresh {rows : List Fields} {stored : List α} {sent : List Statement}
    (hrows : values.mapM r.model.fields = .ok rows)
    (hkeyed : r.Inserted q session (rows.filter (isKeyed q.primaryKey)) stored sent)
    (hgroup : rows.filter (!isKeyed q.primaryKey ·) ≠ [])
    (hnothing : ∀ row ∈ rows.filter (!isKeyed q.primaryKey ·), (q.insertedFields row).names = []) :
    InsertionRefused r q values session .noColumns sent

/-- An insertion that fails with a refusal is refused for one of these reasons. -/
theorem exists_insertionRefused
    (h : (r.insert q values).runIn session = (.error ⟨.database, .refusal refusal⟩, later)) :
    ∃ sent, r.InsertionRefused q values session refusal sent ∧
      later = session.after sent [r.context.event ⟨.database, .refusal refusal⟩] := by
  rw [insert_eq] at h
  rcases Action.of_runIn_bind_eq_error h with hfields | ⟨rows, _, hrows, hgroups⟩
  · cases hmap : values.mapM r.model.fields with
    | ok rows =>
      rw [hmap] at hfields
      cases hfields
    | error other =>
      rw [hmap, runIn_require_error] at hfields
      cases hfields
      exact ⟨[], .fields hmap, rfl⟩
  · obtain ⟨hmap, rfl⟩ := Context.eq_of_runIn_require hrows
    rcases Action.of_runIn_bind_eq_error hgroups with hfirst | ⟨first, _, hfirst, hrest⟩
    · obtain ⟨hgroup, hs, rfl⟩ := of_runIn_insertGroup_refused hfirst
      rw [map_partitionByKey_fst] at hs
      obtain ⟨rfl, hnothing⟩ := (Query.insertStatement_eq_error_iff refusal).1 hs
      refine ⟨[], .keyed hmap ?_ hnothing, rfl⟩
      rwa [← map_partitionByKey_fst, ne_eq, List.map_eq_nil_iff]
    · obtain ⟨stored, sent, hkeyed, rfl⟩ := exists_inserted r q hfirst
      rw [map_partitionByKey_fst] at hkeyed
      rcases Action.of_runIn_bind_eq_error hrest with hsecond | ⟨second, _, -, hdone⟩
      · obtain ⟨hgroup, hs, rfl⟩ := of_runIn_insertGroup_refused hsecond
        rw [map_partitionByKey_snd] at hs
        obtain ⟨rfl, hnothing⟩ := (Query.insertStatement_eq_error_iff refusal).1 hs
        refine ⟨sent, .fresh hmap hkeyed ?_ hnothing, ?_⟩
        · rwa [← map_partitionByKey_snd, ne_eq, List.map_eq_nil_iff]
        · rw [Session.after_after, List.append_nil, List.nil_append]
      · cases hdone

/-- No field of a row with an assigned key may be written. -/
def WritesNoKeyedRow (r : Repository α) (q : Query) (values : List α) : Prop :=
  ∀ rows, values.mapM r.model.fields = .ok rows →
    ∀ row ∈ rows, isKeyed q.primaryKey row = true → (q.insertedFields row).names = []

private theorem writesNoKeyedRow_iff {rows : List Fields}
    (hrows : values.mapM r.model.fields = .ok rows) :
    r.WritesNoKeyedRow q values ↔
      ∀ row ∈ rows.filter (isKeyed q.primaryKey), (q.insertedFields row).names = [] := by
  unfold WritesNoKeyedRow
  constructor
  · intro h row hrow
    obtain ⟨hmem, hkeyed⟩ := List.mem_filter.1 hrow
    exact h rows hrows row hmem hkeyed
  · intro h others hothers row hrow hkeyed
    rw [hrows] at hothers
    cases hothers
    exact h row (List.mem_filter.2 ⟨hrow, hkeyed⟩)

/-- Nothing is executed for a group exactly when no field of its rows may be written. -/
theorem Inserted.eq_nil_iff {group : List Fields} {stored : List α} {sent : List Statement}
    (h : r.Inserted q session group stored sent) :
    sent = [] ↔ ∀ row ∈ group, (q.insertedFields row).names = [] := by
  cases h with
  | nothing => exact iff_of_true rfl (List.forall_mem_nil _)
  | answered hgroup hs hfound hstored =>
    refine iff_of_false nofun ?_
    rw [← Query.insertedColumns_eq_nil_iff]
    exact ((Query.insertStatement_eq_ok_iff _).1 hs).1

/-- Nothing has been executed for a refused insertion exactly when no field of a row with an
assigned key may be written. -/
theorem InsertionRefused.eq_nil_iff {sent : List Statement}
    (h : r.InsertionRefused q values session refusal sent) :
    sent = [] ↔ r.WritesNoKeyedRow q values := by
  cases h with
  | fields hfields =>
    refine iff_of_true rfl ?_
    intro rows hrows
    rw [hfields] at hrows
    cases hrows
  | keyed hrows hgroup hnothing => exact iff_of_true rfl ((writesNoKeyedRow_iff hrows).2 hnothing)
  | fresh hrows hkeyed hgroup hnothing =>
    rw [writesNoKeyedRow_iff hrows]
    exact hkeyed.eq_nil_iff

/-- An insertion that is refused leaves the store as it was exactly when no field of a row with an
assigned key may be written. Else the rows with an assigned key have been stored. -/
theorem insert_refused_untouched
    (h : (r.insert q values).runIn session = (.error ⟨.database, .refusal refusal⟩, later)) :
    later.executed = session.executed ↔ r.WritesNoKeyedRow q values := by
  obtain ⟨sent, hrefused, rfl⟩ := exists_insertionRefused h
  rw [← hrefused.eq_nil_iff]
  simp [Session.after]

/-- A creation or a saving of rows that is refused leaves the store as it was exactly when no field
of a row with an assigned key may be written. -/
theorem insertion_refused_untouched_iff (r : Repository α) (values : List α)
    (session later : Session) (refusal : Refusal) :
    ((r.create values).runIn session = (.error ⟨.database, .refusal refusal⟩, later) →
      (later.executed = session.executed ↔ r.WritesNoKeyedRow r.query values)) ∧
    ((r.save values).runIn session = (.error ⟨.database, .refusal refusal⟩, later) →
      (later.executed = session.executed ↔
        r.WritesNoKeyedRow (r.query.clause .onConflictUpdateAll) values)) :=
  ⟨insert_refused_untouched, insert_refused_untouched⟩

/-- Of two products only the keys are selected: the first one is stored before the second one, which
has no key, is refused. -/
theorem insertion_refused_after_write :
    let r := Repository.ofProducts.refine fun q ↦ q.select ["id"]
    let product (id : Int) : Fields :=
      .ofList [("id", .int id), ("price", .int 1), ("deleted_at", .null)]
    let session : Session := ⟨[.rows [product 7]], [], []⟩
    ∃ later, (r.create [product 7, product 0]).runIn session =
        (.error ⟨.database, .refusal .noColumns⟩, later) ∧
      later.executed ≠ session.executed := by
  intro r product session
  obtain ⟨later, hrun⟩ : ∃ later, (r.create [product 7, product 0]).runIn session =
      (.error ⟨.database, .refusal .noColumns⟩, later) := ⟨_, rfl⟩
  refine ⟨later, hrun, ?_⟩
  rw [ne_eq, (insertion_refused_untouched_iff r _ session later _).1 hrun]
  intro hnothing
  have hkey : (r.query.insertedFields (product 7)).names = [] :=
    hnothing _ rfl (product 7) List.mem_cons_self rfl
  have hwritten : (r.query.insertedFields (product 7)).names = ["id"] := by decide
  rw [hwritten] at hkey
  cases hkey

end Repository

end RecordStore
