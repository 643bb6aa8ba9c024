import RecordStore.Proofs.Query.Upsert
import RecordStore.Proofs.Repository.StoredRows
import RecordStore.Proofs.Session.Alike

/-!
# Saving as creating

Saving inserts rows as creating does, with one more modifier. Where no modifier says what happens to
rows that are there already, saving executes the statements of creating, each with the columns that
such a row takes; where one does, the first of them decides for both and saving is creating.
-/

namespace RecordStore

namespace Repository

variable {α : Type} {r : Repository α} {q other : Query} {P : Statement → Statement → Prop}
  {clauses others : List Clause} {rule : Clause}

/-- Two queries that refuse the same rows and insert others by related statements. -/
def InsertsAlike (P : Statement → Statement → Prop) (q other : Query) : Prop :=
  ∀ rows, (∃ refusal, q.insertStatement rows = .error refusal ∧
      other.insertStatement rows = .error refusal) ∨
    ∃ s t, q.insertStatement rows = .ok s ∧ other.insertStatement rows = .ok t ∧ P s t

/-- A group of rows is inserted alike by such queries. -/
theorem InsertsAlike.insertGroup (h : InsertsAlike P q other) (rows : List (Fields × Nat)) :
    (r.insertGroup q rows).Alike P (r.insertGroup other rows) := by
  cases rows with
  | nil => exact .pure _
  | cons row rest =>
    simp only [Repository.insertGroup, List.isEmpty_cons, Bool.false_eq_true, ↓reduceIte]
    rcases h ((row :: rest).map (·.1)) with ⟨refusal, hq, hother⟩ | ⟨s, t, hq, hother, hst⟩
    · rw [hq, hother]
      exact .refused _ _ _ _
    · rw [hq, hother]
      change (r.context.database (Store.fetchAll r.model.ofRow s) >>= _).Alike P
        (r.context.database (Store.fetchAll r.model.ofRow t) >>= _)
      exact .bind (.database _ (Store.asks_fetchAll s _) (Store.asks_fetchAll t _) hst)
        fun _ ↦ .pure _

/-- Values are inserted alike by such queries of one primary key. -/
theorem InsertsAlike.insert (h : InsertsAlike P q other) (hkey : q.primaryKey = other.primaryKey)
    (values : List α) : (r.insert q values).Alike P (r.insert other values) := by
  rw [insert_eq, insert_eq, hkey]
  exact .bind (.require _ _) fun _ ↦ .bind (h.insertGroup _) fun _ ↦
    .bind (h.insertGroup _) fun _ ↦ .pure _

/-- Under one clause that decides, values are inserted as under none, up to what the clause stands
for. -/
theorem insert_resolvedBy (r : Repository α) (q : Query)
    (hplain : clauses.find? Clause.isOnConflict = none)
    (hrule : others.find? Clause.isOnConflict = some rule) (values : List α) :
    (r.insert (q.withClauses clauses) values).Alike (q.ResolvedBy rule)
      (r.insert (q.withClauses others) values) :=
  InsertsAlike.insert (q.insertStatement_resolvedBy hplain hrule) rfl values

/-- Values are inserted in the same way where the same clause decides. -/
theorem insert_withClauses (r : Repository α) (q : Query)
    (h : clauses.find? Clause.isOnConflict = others.find? Clause.isOnConflict) (values : List α) :
    r.insert (q.withClauses clauses) values = r.insert (q.withClauses others) values := by
  have hgroup (rows : List (Fields × Nat)) :
      r.insertGroup (q.withClauses clauses) rows = r.insertGroup (q.withClauses others) rows := by
    rw [insertGroup, insertGroup, Query.insertStatement_withClauses h]
  rw [insert, insert]
  simp only [hgroup]
  rfl

/-- Creating inserts values under the clauses of the query. -/
theorem create_eq (r : Repository α) (values : List α) :
    r.create values = r.insert (r.query.withClauses r.query.clauses) values := rfl

/-- Saving adds a clause behind those of the query. -/
theorem save_eq (r : Repository α) (values : List α) :
    r.save values =
      r.insert (r.query.withClauses (r.query.clauses ++ [.onConflictUpdateAll])) values := rfl

/-- Creating without the clauses of the query inserts values under none. -/
theorem create_unconditionally (r : Repository α) (values : List α) :
    (r.refine (·.withClauses [])).create values = r.insert (r.query.withClauses []) values := rfl

/-- Saving under no clause about rows that are there already executes the statements of creating,
and each lets such a row take every written column but the primary key, or skips it where nothing
else is written. Under such clauses the first one decides for creating and saving alike. Locks
change no insertion, and clauses about inserted rows no read. -/
theorem save_upserts (r : Repository α) (values : List α) (session : Session) :
    (r.query.conflictRule? = none →
      RanAlike (r.query.ResolvedBy .onConflictUpdateAll) session session
        ((r.create values).runIn session) ((r.save values).runIn session)) ∧
    (∀ rule, r.query.conflictRule? = some rule →
      RanAlike (r.query.ResolvedBy rule) session session
        (((r.refine (·.withClauses [])).create values).runIn session)
        ((r.create values).runIn session) ∧
      (r.save values).runIn session = (r.create values).runIn session) ∧
    (∀ (q : Query) (rows : List Fields),
      (q.withClauses (q.clauses.filter Clause.isOnConflict)).insertStatement rows =
        q.insertStatement rows) ∧
    ∀ (q : Query) (conds : List Condition) (columns : String),
      (q.withClauses (q.clauses.filter (!·.isOnConflict))).selectColumns columns conds =
          q.selectColumns columns conds ∧
        (q.withClauses (q.clauses.filter (!·.isOnConflict))).selectStatement conds =
          q.selectStatement conds ∧
        (q.withClauses []).countStatement conds = q.countStatement conds := by
  refine ⟨?_, ?_, Query.insertStatement_unlocked, ?_⟩
  · intro hnone
    have hsaved : (r.query.clauses ++ [Clause.onConflictUpdateAll]).find? Clause.isOnConflict =
        some .onConflictUpdateAll := by
      rw [List.find?_append, ← Query.conflictRule?, hnone]
      rfl
    rw [create_eq, save_eq]
    exact r.insert_resolvedBy r.query hnone hsaved values session session rfl
  · intro rule hrule
    have hplain : ([] : List Clause).find? Clause.isOnConflict = none := rfl
    have hsaved : (r.query.clauses ++ [Clause.onConflictUpdateAll]).find? Clause.isOnConflict =
        r.query.clauses.find? Clause.isOnConflict := by
      rw [List.find?_append, ← Query.conflictRule?, hrule]
      rfl
    refine ⟨?_, ?_⟩
    · rw [create_unconditionally, create_eq]
      exact r.insert_resolvedBy r.query hplain hrule values session session rfl
    · rw [create_eq, save_eq, r.insert_withClauses r.query hsaved]
  · intro q conds columns
    exact ⟨q.selectColumns_reading columns conds, q.selectColumns_reading q.selectList conds, rfl⟩

/-- A product under a lock is saved by the statement that creates it, with the selected columns.
Under a clause that skips products which are there already, saving it is creating it. -/
theorem save_upserts_products :
    let r := ofProducts.refine fun q ↦ (q.select ["id", "price"]).clause .forUpdate
    let skipping := r.refine (·.clause .onConflictDoNothing)
    let product : Fields := .ofList [("id", .int 7), ("price", .int 1), ("deleted_at", .null)]
    let session : Session := ⟨[.rows [product]], [], []⟩
    r.query.conflictRule? = none ∧
      RanAlike (r.query.ResolvedBy .onConflictUpdateAll) session session
        ((r.create [product]).runIn session) ((r.save [product]).runIn session) ∧
      ((r.save [product]).runIn session).2.executed.map (·.args) =
        [[.jsonb (.array [.object [("id", .int 7), ("price", .int 1)]])]] ∧
      skipping.query.conflictRule? = some .onConflictDoNothing ∧
      (skipping.save [product]).runIn session = (skipping.create [product]).runIn session := by
  intro r skipping product session
  have hnone : r.query.conflictRule? = none := rfl
  have hskips : skipping.query.conflictRule? = some .onConflictDoNothing := rfl
  refine ⟨hnone, (save_upserts r [product] session).1 hnone, by decide +kernel, hskips, ?_⟩
  exact ((save_upserts skipping [product] session).2.1 _ hskips).2

end Repository

end RecordStore
