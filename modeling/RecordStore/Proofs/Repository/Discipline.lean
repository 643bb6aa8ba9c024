import RecordStore.Proofs.Session.Discipline
import RecordStore.Repository.Batches
import RecordStore.Repository.FindOr

/-!
# What the operations of a repository execute

Each operation is told by the statements that it may execute; whatever the store answers, it stops
at the first error and logs its failure once. Only the look-up of one row may find a record missing,
and it does so exactly when the store gives no row.
-/

namespace RecordStore

open RecordStore.Action

namespace Store

variable {α : Type} {s : Statement} {sends : Statement → Prop}

theorem obeys_fetchAll (read : RowReader α) (hs : sends s) :
    (fetchAll read s).Obeys (.ofStore sends) :=
  .asks (asks_fetchAll s read) hs fun _ ↦ ⟨_, rfl⟩

theorem obeys_fetchOptional (read : RowReader α) (hs : sends s) :
    (fetchOptional read s).Obeys (.ofStore sends) :=
  .asks (asks_fetchOptional s read) hs fun _ ↦ ⟨_, rfl⟩

theorem obeys_fetchOne (read : RowReader α) (hs : sends s) :
    (fetchOne read s).Obeys (.ofStore sends) :=
  .asks (asks_fetchOne s read) hs fun _ ↦ ⟨_, rfl⟩

theorem obeys_execute (hs : sends s) : (execute s).Obeys (.ofStore sends) :=
  .asks (asks_execute s) hs fun _ ↦ ⟨_, rfl⟩

end Store

/-! ### Looking up one row -/

/-- A reader that never says that the store gave no row. -/
def RowReader.NeverMissing {α : Type} (read : RowReader α) : Prop :=
  ∀ row, read row ≠ .error .rowNotFound

/-- The first row is missing exactly when there is none. -/
theorem Reply.decodeOne_eq_rowNotFound_iff {α : Type} {read : RowReader α}
    (hread : read.NeverMissing) (reply : Reply) :
    reply.decodeOne read = .error .rowNotFound ↔ reply.toRows = .ok [] := by
  rw [decodeOne]
  cases reply with
  | rows found =>
    cases found with
    | nil => simp [toRows]
    | cons row rest => simpa [toRows] using hread row
  | affected count => simp [toRows]
  | error message => simp [toRows]

/-- A look-up executes its statement once. What follows it executes nothing, so the record is
missing exactly when the look-up was answered without a row. -/
theorem Context.kept_lookup {α β : Type} (ctx : Context) (read : RowReader α) {s : Statement}
    (sends : Statement → Prop) (hs : sends s) {next : α → Action RepositoryError β}
    (hnext : ∀ x, (next x).Obeys (.ofContext ctx fun _ ↦ False)) (session : Session) :
    (Discipline.ofLookup ctx sends).Kept session
        ((ctx.lookup (Store.fetchOne read s) >>= next).runIn session) [s] ∧
      (read.NeverMissing →
        ((∃ e, ((ctx.lookup (Store.fetchOne read s) >>= next).runIn session).1 = .error e ∧
            e.isNotFound = true) ↔
          (session.answer 0).toRows = .ok [])) := by
  have hfetch : (Discipline.ofStore sends).Kept session
      ((Store.fetchOne read s).runIn session) [s] :=
    .asks (Store.asks_fetchOne s read) hs (fun _ ↦ ⟨_, rfl⟩) session
  have hlookup : (Discipline.ofLookup ctx sends).Kept session
      ((ctx.lookup (Store.fetchOne read s)).runIn session) [s] :=
    hfetch.report rfl (fun _ ↦ trivial) (fun _ ↦ rfl)
  have hrun : (ctx.lookup (Store.fetchOne read s)).runIn session =
      ctx.ended session [s] (((session.answer 0).decodeOne read).mapError .ofLookup) :=
    runIn_report_eq .ofLookup (Store.asks_fetchOne s read session)
  rw [hrun] at hlookup
  cases hdecode : (session.answer 0).decodeOne read with
  | error e =>
    rw [hdecode] at hrun hlookup
    rw [runIn_bind_error hrun]
    refine ⟨hlookup.of_error, fun hread ↦ ?_⟩
    rw [← Reply.decodeOne_eq_rowNotFound_iff hread, hdecode]
    simp [isNotFound_ofLookup_iff, ended]
  | ok x =>
    rw [hdecode] at hrun hlookup
    rw [runIn_bind_ok hrun]
    obtain ⟨further, hfurther⟩ := hnext x (session.after [s] [])
    obtain rfl : further = [] := List.eq_nil_iff_forall_not_mem.2 hfurther.sends
    refine ⟨hlookup.append (hfurther.mono (fun _ hs ↦ hs.elim) (fun _ _ ↦ trivial) rfl), ?_⟩
    intro hread
    rw [← Reply.decodeOne_eq_rowNotFound_iff hread, hdecode]
    constructor
    · rintro ⟨e, he, hmissing⟩
      have hkind : e.kind = .database := hfurther.fails e he
      rw [RepositoryError.isNotFound, hkind] at hmissing
      exact absurd hmissing (by decide)
    · intro hnone
      cases hnone

namespace Repository

variable {α β : Type} (r : Repository α)

/-- The discipline of an operation of a repository that may execute the given statements. -/
abbrev executing (sends : Statement → Prop) : Discipline RepositoryError :=
  .ofContext r.context sends

/-! ### Reading -/

private theorem obeys_loadEach (sends : Statement → Prop) (preloads : List Preload)
    (rows : List α) : (r.loadEach preloads rows).Obeys (r.executing sends) := by
  induction preloads generalizing rows with
  | nil => exact .pure rows
  | cons p rest ih => exact .bind (.database (.ofExcept (r.model.load p rows))) ih

/-- Loading relations executes nothing itself. -/
theorem obeys_loadPreloads (sends : Statement → Prop) (rows : List α) :
    (r.loadPreloads rows).Obeys (r.executing sends) := by
  rw [loadPreloads]
  split
  · exact .pure rows
  · exact r.obeys_loadEach sends r.query.preloads rows

theorem obeys_findAll (conds : List Condition) :
    (r.findAll conds).Obeys (r.executing (· = r.query.selectStatement conds)) :=
  .bind (.database (Store.obeys_fetchAll r.model.ofRow rfl)) (r.obeys_loadPreloads _)

theorem obeys_findOptional (conds : List Condition) :
    (r.findOptional conds).Obeys (r.executing (· = r.query.first.selectStatement conds)) :=
  .database (Store.obeys_fetchOptional r.model.ofRow rfl)

theorem obeys_count : r.count.Obeys (r.executing (· = r.query.countStatement [])) :=
  .database (Store.obeys_fetchOne Row.int64 rfl)

/-- A page is served by a count and a read. -/
theorem obeys_pagination (o : PageOptions) :
    (r.pagination o).Obeys (r.executing fun s ↦
      s = (r.query.sortedBy (o.normalized r.context.config).orderBy).countStatement [] ∨
        s = (r.query.onPage (o.normalized r.context.config)).selectStatement []) := by
  refine .bind (.database ?_) fun page ↦ .bind (r.obeys_loadPreloads _ page.1) fun items ↦ .pure _
  refine .bind (Store.obeys_fetchOne Row.int64 (.inl rfl)) fun total ↦ ?_
  exact .bind (Store.obeys_fetchAll r.model.ofRow (.inr rfl)) fun items ↦ .pure _

theorem obeys_rawAll (read : RowReader β) (sql : String) (args : List Json) :
    (r.rawAll read sql args).Obeys (r.executing (· = .withArgs sql args)) :=
  .database (Store.obeys_fetchAll read rfl)

theorem obeys_pluck (read : RowReader β) (column : String) :
    (r.pluck read column).Obeys (r.executing
      (· = r.query.selectColumns (Identifier.quoteExpression column) [])) :=
  .database (Store.obeys_fetchAll read rfl)

theorem obeys_scan (read : RowReader β) :
    (r.scan read).Obeys (r.executing (· = r.query.selectStatement [])) :=
  .database (Store.obeys_fetchAll read rfl)

/-! ### Inserting -/

private theorem obeys_insertGroup (q : Query) (rows : List (Fields × Nat)) :
    (r.insertGroup q rows).Obeys
      (r.executing fun s ↦ ∃ group, q.insertStatement group = .ok s) := by
  rw [insertGroup]
  split
  · exact .pure _
  · refine .require_bind fun s hs ↦ ?_
    exact .bind (.database (Store.obeys_fetchAll r.model.ofRow ⟨_, hs⟩)) fun stored ↦ .pure _

/-- An insertion executes insertions alone. -/
theorem obeys_insert (q : Query) (values : List α) :
    (r.insert q values).Obeys (r.executing fun s ↦ ∃ group, q.insertStatement group = .ok s) := by
  rw [insert]
  split
  · exact .pure []
  · refine .bind (.require _) fun rows ↦ ?_
    exact .bind (r.obeys_insertGroup q _) fun first ↦
      .bind (r.obeys_insertGroup q _) fun second ↦ .pure _

/-! ### Writing -/

/-- A write executes its statement, unless it is refused. -/
theorem obeys_write (statement : Except Refusal Statement) :
    (r.write statement).Obeys (r.executing (statement = .ok ·)) :=
  .require_bind fun _ hs ↦ .database (Store.obeys_execute hs)

/-- A write that is refused executes nothing. -/
theorem runIn_write_error (refusal : Refusal) (session : Session) :
    (r.write (.error refusal)).runIn session =
      (.error ⟨.database, .refusal refusal⟩,
        session.after [] [r.context.event ⟨.database, .refusal refusal⟩]) := by
  rw [write, runIn_bind, Context.require, Context.runIn_fail, Session.afterLogging_eq]

/-- A write that is made executes its statement and counts the rows that the store tells of. -/
theorem runIn_write_ok (s : Statement) (session : Session) :
    (r.write (.ok s)).runIn session =
      match (session.answer 0).toCount with
      | .ok count => (.ok count, session.after [s] [])
      | .error e => (.error (.ofStore e), session.after [s] [r.context.event (.ofStore e)]) := by
  change (r.context.database (Store.execute s)).runIn session = _
  rw [Context.database, Context.runIn_report, Store.asks_execute s session]
  cases (session.answer 0).toCount with
  | ok count => rfl
  | error e => simp [Session.afterLogging_eq]

/-- The store does not refuse: an error that it answers with is another one. -/
theorem runIn_write_ok_ne_refusal (s : Statement) (session : Session) (refusal : Refusal)
    (later : Session) :
    (r.write (.ok s)).runIn session ≠ (.error ⟨.database, .refusal refusal⟩, later) := by
  rw [runIn_write_ok]
  cases (session.answer 0).toCount with
  | ok count => exact nofun
  | error e =>
    intro h
    cases h

/-- The updates of a repository by changed fields, each narrowed by the key that its value has. -/
def IsUpdate (s : Statement) : Prop :=
  ∃ f changed, r.query.updateStatement changed (keyConditions r.query.primaryKey f) = .ok s

/-- An update by one value executes at most an update by its changed fields. -/
theorem obeys_updateOne (value : Json) :
    (r.updateOne value).Obeys (r.executing r.IsUpdate) := by
  rw [updateOne]
  split
  · exact .refuse _
  · next f _ =>
    refine .require_bind fun changed _ ↦ ?_
    split
    · exact .pure 0
    · exact (r.obeys_write _).widen fun s hs ↦ ⟨f, changed, hs⟩

private theorem obeys_updateEach (values : List Json) :
    (r.updateEach values).Obeys (r.executing r.IsUpdate) := by
  induction values with
  | nil => exact .pure 0
  | cons value rest ih => exact .bind (r.obeys_updateOne value) fun _ ↦ .bind ih fun _ ↦ .pure _

/-- The values of an update: the items of an array, or the value itself. -/
def updateValues : Json → List Json
  | .array items => items
  | value => [value]

/-- An update goes through its values one after another. -/
theorem update_eq (values : Json) : r.update values = r.updateEach (updateValues values) := by
  cases values <;> rfl

/-- An update executes updates by the values that it is given. -/
theorem obeys_update (values : Json) :
    (r.update values).Obeys (r.executing r.IsUpdate) := by
  rw [update_eq]
  exact r.obeys_updateEach _

theorem obeys_exec (sql : String) (args : List Json) :
    (r.exec sql args).Obeys (r.executing (· = .withArgs sql args)) :=
  .database (Store.obeys_execute rfl)

/-! ### Finding a row or making one -/

theorem obeys_findOrInit (conds : List Condition) :
    (r.findOrInit conds).Obeys (r.executing (· = r.query.first.selectStatement conds)) := by
  refine .bind (r.obeys_findOptional conds) fun found ↦ ?_
  cases found with
  | none => exact .require _
  | some row => exact .require _

/-- Assigning executes an update of the row with the key of the one that was found. -/
theorem obeys_assignTo (found : α) :
    (r.assignTo found).Obeys (r.executing fun s ↦
      r.rowScope.updateStatement r.query.assigned [.primaryKey (r.keyOf found)] = .ok s) :=
  .bind (.require _) fun updated ↦ .bind (r.obeys_write _) fun _ ↦ .pure updated

/-- Besides its look-up, an operation that makes a row when there is none executes updates of a row
by its key and insertions. -/
theorem obeys_findOrCreate (conds : List Condition) :
    (r.findOrCreate conds).Obeys (r.executing fun s ↦
      s = r.query.first.selectStatement conds ∨
        (∃ found,
          r.rowScope.updateStatement r.query.assigned [.primaryKey (r.keyOf found)] = .ok s) ∨
          ∃ group, r.query.insertStatement group = .ok s) := by
  refine .bind ((r.obeys_findOptional conds).widen fun s hs ↦ .inl hs) fun found ↦ ?_
  cases found with
  | some row =>
    dsimp only
    split
    · exact .pure row
    · exact (r.obeys_assignTo row).widen fun s hs ↦ .inr (.inl ⟨row, hs⟩)
  | none =>
    refine .bind (.require _) fun row ↦ .bind ?_ fun stored ↦ .pure _
    exact (r.obeys_insert r.query [row]).widen fun s hs ↦ .inr (.inr hs)

/-! ### Walking rows in batches -/

/-- How a walk ends, as the outcome of an action. -/
def walkOutcome (walk : StateM Session (BatchWalk α)) : Action RepositoryError Nat :=
  .mk (BatchWalk.outcome <$> walk)

variable {r} {size : Int64} {visit : BatchVisitor α}

/-- A walk from the start may take one round for each reply of the store, and one more. -/
theorem runIn_walkOutcome (r : Repository α) (size : Int64) (visit : BatchVisitor α)
    (session : Session) :
    (walkOutcome (r.findInBatches size visit)).runIn session =
      (walkOutcome (r.walkFrom (batchSize size) visit (session.replies.length + 1) none [])).runIn
        session := by
  rw [findInBatches]
  rfl

/-- A round of a walk whose visitor never fails. -/
theorem walkOutcome_succ (hvisit : ∀ visited batch, visit visited batch = .ok ())
    (rounds : Nat) (after : Option Json) (visited : List (Batch α)) :
    walkOutcome (r.walkFrom size visit (rounds + 1) after visited) =
      (r.fetchBatch size after >>= fun rows ↦
        let visitedNow := visited ++ [⟨visited.length + 1, rows⟩]
        if rows.isEmpty then return rowCount visited
        else
          match r.lastKey? rows with
          | some key =>
            if (rows.length : Int) < size.toInt then return rowCount visitedNow
            else walkOutcome (r.walkFrom size visit rounds (some key) visitedNow)
          | none => return rowCount visitedNow) := by
  funext session
  rw [walkFrom]
  simp only [walkOutcome, bind, ExceptT.bind, ExceptT.mk, StateT.bind, ExceptT.run,
    ExceptT.bindCont, Functor.map, StateT.map]
  cases hrun : r.fetchBatch size after session with
  | mk outcome later =>
    cases outcome with
    | error e => rfl
    | ok rows =>
      cases rows with
      | nil => rfl
      | cons row rest =>
        simp only [hvisit, List.isEmpty_cons]
        cases r.lastKey? (row :: rest) with
        | none => rfl
        | some key =>
          by_cases hshort : ((row :: rest).length : Int) < size.toInt
          · simp only [if_pos hshort, Bool.false_eq_true, ↓reduceIte]
            rfl
          · simp only [if_neg hshort, Bool.false_eq_true, ↓reduceIte]
            rfl

/-- Fetching a batch executes the read of the batch. -/
theorem obeys_fetchBatch (r : Repository α) (size : Int64) (after : Option Json) :
    (r.fetchBatch size after).Obeys
      (r.executing (· = (r.query.batch size after).selectStatement [])) :=
  .bind (.database (Store.obeys_fetchAll r.model.ofRow rfl)) (r.obeys_loadPreloads _)

private theorem obeys_walkFrom (hvisit : ∀ visited batch, visit visited batch = .ok ())
    (rounds : Nat) (after : Option Json) (visited : List (Batch α)) :
    (walkOutcome (r.walkFrom size visit rounds after visited)).Obeys (r.executing fun s ↦
      ∃ after, s = (r.query.batch size after).selectStatement []) := by
  induction rounds generalizing after visited with
  | zero => exact .pure (rowCount visited)
  | succ rounds ih =>
    rw [walkOutcome_succ hvisit]
    refine .bind ((r.obeys_fetchBatch size after).widen fun s hs ↦ ⟨after, hs⟩) fun rows ↦ ?_
    dsimp only
    split
    · exact .pure _
    · split
      · split
        · exact .pure _
        · exact ih _ _
      · exact .pure _

/-- A walk executes reads of batches, as long as its visitor does not fail. -/
theorem obeys_findInBatches (hvisit : ∀ visited batch, visit visited batch = .ok ()) :
    (walkOutcome (r.findInBatches size visit)).Obeys (r.executing fun s ↦
      ∃ after, s = (r.query.batch (batchSize size) after).selectStatement []) := by
  intro session
  rw [runIn_walkOutcome]
  exact obeys_walkFrom hvisit (session.replies.length + 1) none [] session

end Repository

end RecordStore
