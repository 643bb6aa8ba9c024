import RecordStore.Proofs.Repository.BatchWalk
import RecordStore.Proofs.Repository.FindOr
import RecordStore.Proofs.Repository.UpdateRefusal
import RecordStore.Proofs.Session.Obstacles

/-!
# Failures of operations

An operation fails when it comes upon an obstacle: an answer of the store that it cannot go on with,
a relation that cannot be loaded, or something that is refused before it is sent. Whatever the store
answers, a failure is logged once and a success not at all; after the first answer that is an error
nothing further is executed; and a missing record is reported by the two look-ups of one row alone,
exactly when the store gave no row.
-/

namespace RecordStore

/-! ### Obstacles -/

/-- A group of rows that an insertion is refused for: no field of them may be written. -/
def Query.RefusesGroup (q : Query) (group : List Fields) : Prop :=
  group ≠ [] ∧ ∀ row ∈ group, (q.insertedFields row).names = []

namespace Repository

variable {α : Type} (r : Repository α)

/-- Whether an insertion is refused: for a value that is not written as an object, for the rows with
an assigned key or for those without one. -/
def RefusesInsertion (q : Query) (values : List α) : Prop :=
  (∃ value ∈ values, ∃ refusal, r.model.fields value = .error refusal) ∨
    ∃ rows, values.mapM r.model.fields = .ok rows ∧
      (q.RefusesGroup (rows.filter (isKeyed q.primaryKey)) ∨
        q.RefusesGroup (rows.filter (!isKeyed q.primaryKey ·)))

/-- Whether assigning to a row that has been found is refused: the assigned values cannot be laid
over it, or nothing of them may be written. -/
def RefusesAssignment (found : α) : Prop :=
  (∃ refusal, r.model.merge found r.query.assigned = .error refusal) ∨
    ∃ refusal, r.rowScope.updateStatement r.query.assigned [.primaryKey (r.keyOf found)] =
      .error refusal

/-- Whether the making of a row is refused: it cannot be built, or not be inserted. -/
def RefusesMaking (conds : List Condition) : Prop :=
  (∃ refusal, r.initial conds = .error refusal) ∨
    ∃ row, r.initial conds = .ok row ∧ r.RefusesInsertion r.query [row]

/-- Relations that cannot be loaded into the rows that are read of an answer. -/
def Unloaded (taken : Taken) (reply : Reply) : Prop :=
  ∃ found rows e, reply.toRows = .ok found ∧ (taken.read found).mapM r.model.ofRow = .ok rows ∧
    r.completed rows = .error e

end Repository

namespace Operation

variable {α β : Type}

/-- What is taken from the answer behind a look-up: that of an update when there was a row, and else
that of an insertion. -/
def takenBehind (lookup : Reply) : Taken :=
  match lookup.toRows with
  | .ok (_ :: _) => .count
  | _ => .rows

/-- What an operation takes from the answer to a statement, by its number from 0. -/
def taken (session : Session) : Operation α β → Nat → Taken
  | .findAll _, _ => .rows
  | .findOne _, _ => .row
  | .findOrInit _, _ => .rowIfAny
  | .findOrCreate _, 0 => .rowIfAny
  | .findOrCreate _, _ + 1 => takenBehind (session.answer 0)
  | .count, _ => .row
  | .create _, _ => .rows
  | .save _, _ => .rows
  | .update _, _ => .count
  | .updateColumn _ _, _ => .count
  | .delete _, _ => .count
  | .hardDelete _, _ => .count
  | .pagination _, 0 => .row
  | .pagination _, _ + 1 => .rows
  | .raw _ _ _, _ => .row
  | .rawAll _ _ _, _ => .rows
  | .exec _ _, _ => .count
  | .pluck _ _, _ => .rows
  | .scan _, _ => .rows
  | .findInBatches _ _ _, _ => .rows

/-- A row in the answer to a statement that is not read as the operation needs it: as a number by a
count, as the caller says in the caller's own reads, and else as the model says. -/
def Unreadable (r : Repository α) : Operation α β → Nat → Row → Prop
  | .count, _ => Row.int64.Fails
  | .pagination _, 0 => Row.int64.Fails
  | .raw read _ _, _ => read.Fails
  | .rawAll read _ _, _ => read.Fails
  | .pluck read _, _ => read.Fails
  | .scan read, _ => read.Fails
  | _, _ => r.model.ofRow.Fails

/-- Whether relations are loaded into the rows of the answer to a statement. -/
def LoadsRelations : Operation α β → Nat → Prop
  | .findAll _, _ => True
  | .findOne _, _ => True
  | .pagination _, n => 0 < n
  | .findInBatches _ _ _, _ => True
  | _, _ => False

/-- Whether something is refused that an operation is given. What is laid over a row or built in
place of one depends on what is found. -/
def Refused (r : Repository α) (session : Session) : Operation α β → Prop
  | .findOrInit conds =>
    (∃ row refusal, r.sought session = .ok (some row) ∧
      r.model.merge row r.query.assigned = .error refusal) ∨
    (r.sought session = .ok none ∧ ∃ refusal, r.initial conds = .error refusal)
  | .findOrCreate conds =>
    (∃ row, r.sought session = .ok (some row) ∧ r.query.assigned.isEmpty = false ∧
      r.RefusesAssignment row) ∨
    (r.sought session = .ok none ∧ r.RefusesMaking conds)
  | .create values => r.RefusesInsertion r.query values
  | .save values => r.RefusesInsertion (r.query.clause .onConflictUpdateAll) values
  | .update values =>
    ∃ value ∈ Repository.updateValues values, ∃ refusal, r.planned value = .error refusal
  | .updateColumn column value =>
    ∃ refusal, r.query.updateStatement (.singleton column value) [] = .error refusal
  | .delete conds => ∃ refusal, r.query.deleteStatement conds .soft = .error refusal
  | .hardDelete conds => ∃ refusal, r.query.deleteStatement conds .hard = .error refusal
  | _ => False

/-- What makes an operation fail that executes a number of statements. -/
inductive Obstacle (r : Repository α) (session : Session) (executed : Nat) (op : Operation α β) :
    Prop
  /-- The operation cannot go on with the answer to a statement. -/
  | answer {n : Nat} (hn : n < executed)
    (hstops : (session.answer n).Stops (op.Unreadable r n) (op.taken session n))
  /-- Relations cannot be loaded into the rows of an answer. -/
  | relations {n : Nat} (hn : n < executed) (hloads : op.LoadsRelations n)
    (hunloaded : r.Unloaded (op.taken session n) (session.answer n))
  /-- Something that the operation is given is refused. -/
  | refused (hrefused : op.Refused r session)

end Operation

/-! ### Actions of a repository -/

namespace Repository

variable {α β : Type} (r : Repository α) {unreadable : Row → Prop}

theorem failsBy_fetchAll (read : RowReader β) (s : Statement) :
    (r.context.database (Store.fetchAll read s)).FailsBy False (Reply.Stops read.Fails .rows) :=
  .report .ofStore (Store.asks_fetchAll s read) Reply.decodeAll_fails_iff

theorem failsBy_fetchOne (wrap : StoreError → RepositoryError) (read : RowReader β)
    (s : Statement) :
    (r.context.report wrap (Store.fetchOne read s)).FailsBy False (Reply.Stops read.Fails .row) :=
  .report wrap (Store.asks_fetchOne s read) Reply.decodeOne_fails_iff

theorem failsBy_execute (s : Statement) :
    (r.context.database (Store.execute s)).FailsBy False (Reply.Stops unreadable .count) :=
  .report .ofStore (Store.asks_execute s) Reply.toCount_fails_iff

/-- A write fails when it is refused or answered with an error. -/
theorem failsBy_write (statement : Except Refusal Statement) :
    (r.write statement).FailsBy (∃ refusal, statement = .error refusal)
      (Reply.Stops unreadable .count) :=
  (Action.FailsBy.require_bind fun s _ ↦ r.failsBy_execute s).congr (by simp) fun _ ↦ .rfl

/-! #### Insertions -/

private theorem failsBy_insertGroup (q : Query) (rows : List (Fields × Nat)) :
    (r.insertGroup q rows).FailsBy (q.RefusesGroup (rows.map (·.1)))
      (Reply.Stops r.model.ofRow.Fails .rows) := by
  rw [insertGroup]
  cases rows with
  | nil => exact (Action.FailsBy.pure _).congr (iff_of_false id fun h ↦ h.1 rfl) fun _ ↦ .rfl
  | cons row rest =>
    refine (Action.FailsBy.require_bind fun s _ ↦
      (r.failsBy_fetchAll r.model.ofRow s).map _).congr ?_ fun _ ↦ .rfl
    simp [Query.insertStatement_eq_error_iff, Query.RefusesGroup]

/-- An insertion fails when it is refused or cannot read the rows of an answer. -/
theorem failsBy_insert (q : Query) (values : List α) :
    (r.insert q values).FailsBy (r.RefusesInsertion q values)
      (Reply.Stops r.model.ofRow.Fails .rows) := by
  rw [insert_eq]
  refine (Action.FailsBy.require_bind fun rows _ ↦ ?_).congr (or_congr mapM_fails_iff .rfl)
    fun _ ↦ .rfl
  have hkeyed := r.failsBy_insertGroup q (partitionByKey q.primaryKey rows).1
  have hfresh := r.failsBy_insertGroup q (partitionByKey q.primaryKey rows).2
  rw [map_partitionByKey_fst] at hkeyed
  rw [map_partitionByKey_snd] at hfresh
  exact hkeyed.bind fun first ↦ hfresh.map _

/-! #### Updates -/

private theorem failsBy_updateOne (value : Json) :
    (r.updateOne value).FailsBy (∃ refusal, r.planned value = .error refusal)
      (Reply.Stops unreadable .count) := by
  intro session
  rw [runIn_updateOne]
  cases r.planned value with
  | error refusal => exact (r.failsBy_write (.error refusal)).congr (by simp) (fun _ ↦ .rfl) session
  | ok plan =>
    cases plan with
    | none => exact (Action.FailsBy.pure 0).congr (by simp) (fun _ ↦ .rfl) session
    | some s => exact (r.failsBy_write (.ok s)).congr (by simp) (fun _ ↦ .rfl) session

/-- An update fails when one of its values is refused or answered with an error. -/
theorem failsBy_update (values : Json) :
    (r.update values).FailsBy
      (∃ value ∈ updateValues values, ∃ refusal, r.planned value = .error refusal)
      (Reply.Stops unreadable .count) := by
  rw [update_eq]
  induction updateValues values with
  | nil => exact (Action.FailsBy.pure 0).congr (by simp) fun _ ↦ .rfl
  | cons value rest ih =>
    exact ((r.failsBy_updateOne value).bind fun affected ↦ ih.map _).congr
      (by rw [List.exists_mem_cons_iff]) fun _ ↦ .rfl

/-! #### Rows with relations -/

/-- Rows and their relations are had from an answer unless it stops the read or the relations cannot
be loaded. -/
theorem received_fails_iff (reply : Reply) :
    (∃ e, r.received reply = .error e) ↔
      reply.Stops r.model.ofRow.Fails .rows ∨ r.Unloaded .rows reply := by
  rw [received, bind_fails_iff, Reply.decodeAll_fails_iff]
  refine or_congr_right ?_
  simp only [Reply.decodeAll_eq_ok_iff, Unloaded, Taken.read]
  constructor
  · rintro ⟨rows, ⟨found, hfound, hrows⟩, e, hload⟩
    exact ⟨found, rows, e, hfound, hrows, hload⟩
  · rintro ⟨found, rows, e, hfound, hrows, hload⟩
    exact ⟨rows, ⟨found, hfound, hrows⟩, e, hload⟩

/-- Reading rows with their relations fails when they cannot be had from the answer. -/
theorem failsBy_fetchAll_loaded (s : Statement) :
    (r.context.database (Store.fetchAll r.model.ofRow s) >>= r.loadPreloads).FailsBy False
      fun reply ↦ reply.Stops r.model.ofRow.Fails .rows ∨ r.Unloaded .rows reply :=
  .of_ended r.context s fun session ↦
    ⟨_, r.runIn_fetchAll_loaded s session, mapError_fails_iff.trans (r.received_fails_iff _)⟩

-- The row of a look-up and its relations are had from an answer that does not stop it.
private theorem looked_fails_iff (reply : Reply) :
    (∃ e, (reply.decodeOne r.model.ofRow >>= fun row ↦ r.completed [row]) = .error e) ↔
      reply.Stops r.model.ofRow.Fails .row ∨ r.Unloaded .row reply := by
  rw [bind_fails_iff, Reply.decodeOne_fails_iff]
  refine or_congr_right ?_
  unfold Unloaded Reply.decodeOne
  constructor
  · rintro ⟨x, hx, e, hload⟩
    split at hx
    · cases hx
    · next row rest hfound =>
      refine ⟨_, [x], e, hfound, ?_, hload⟩
      change [row].mapM r.model.ofRow = _
      rw [List.mapM_cons, hx]
      rfl
    · cases hx
  · rintro ⟨found, rows, e, hfound, hrows, hload⟩
    rw [hfound]
    cases found with
    | nil =>
      cases hrows
      cases hload
    | cons row rest =>
      obtain ⟨x, hx, hrest⟩ := bind_eq_ok_iff.1 (List.mapM_cons.symm.trans hrows)
      cases hrest
      exact ⟨x, hx, e, hload⟩

theorem failsBy_findOne (conds : List Condition) :
    (r.findOne conds).FailsBy False
      fun reply ↦ reply.Stops r.model.ofRow.Fails .row ∨ r.Unloaded .row reply := by
  refine .of_ended r.context (r.lookupOf conds) fun session ↦ ?_
  have hlookup : (r.context.lookup (Store.fetchOne r.model.ofRow
      (r.query.first.selectStatement conds))).runIn session = _ :=
    Context.runIn_report_eq .ofLookup (Store.asks_fetchOne _ r.model.ofRow session)
  rw [findOne, ← r.looked_fails_iff]
  cases hdecode : (session.answer 0).decodeOne r.model.ofRow with
  | error e =>
    rw [hdecode] at hlookup
    exact ⟨_, Context.runIn_bind_error hlookup _, iff_of_true ⟨_, rfl⟩ ⟨e, rfl⟩⟩
  | ok row =>
    rw [hdecode] at hlookup
    have hloaded := Context.runIn_bind_pure
      (r.runIn_loadPreloads [row] (session.after [r.lookupOf conds] [])) (·.headD row)
    rw [Context.ended_after] at hloaded
    exact ⟨_, (Context.runIn_bind_ok hlookup _).trans hloaded,
      map_fails_iff.trans mapError_fails_iff⟩

/-! #### Walks -/

/-- A walk whose visitor never fails does so when rows or relations of a batch cannot be had. -/
theorem failsBy_findInBatches {size : Int64} {visit : BatchVisitor α}
    (hvisit : ∀ visited batch, visit visited batch = .ok ()) :
    (walkOutcome (r.findInBatches size visit)).FailsBy False
      fun reply ↦ reply.Stops r.model.ofRow.Fails .rows ∨ r.Unloaded .rows reply := by
  have hwalk (rounds : Nat) (after : Option Json) (visited : List (Batch α)) :
      (walkOutcome (r.walkFrom (batchSize size) visit rounds after visited)).FailsBy False
        fun reply ↦ reply.Stops r.model.ofRow.Fails .rows ∨ r.Unloaded .rows reply := by
    induction rounds generalizing after visited with
    | zero => exact .pure (rowCount visited)
    | succ rounds ih =>
      rw [walkOutcome_succ hvisit]
      refine ((r.failsBy_fetchAll_loaded _).bind fun rows ↦ ?_).congr (or_self_iff) fun _ ↦ .rfl
      dsimp only
      split
      · exact .pure _
      · split
        · split
          · exact .pure _
          · exact ih _ _
        · exact .pure _
  intro session
  rw [runIn_walkOutcome]
  exact hwalk (session.replies.length + 1) none [] session

/-! #### Finding a row or making one -/

theorem failsBy_assignTo (found : α) :
    (r.assignTo found).FailsBy (r.RefusesAssignment found) (Reply.Stops unreadable .count) := by
  rw [assignTo]
  refine (Action.FailsBy.require_bind fun updated _ ↦ (r.failsBy_write _).map _).congr ?_
    fun _ ↦ .rfl
  rw [RefusesAssignment]
  cases r.model.merge found r.query.assigned <;> simp

/-- The making of a row fails when it is refused or cannot read the row that is stored. -/
theorem failsBy_making (conds : List Condition) :
    (do
      let row ← r.context.require (r.initial conds)
      let stored ← r.insert r.query [row]
      return stored.getLastD row : Action RepositoryError α).FailsBy (r.RefusesMaking conds)
      (Reply.Stops r.model.ofRow.Fails .rows) :=
  .require_bind fun row _ ↦ (r.failsBy_insert r.query [row]).map _

end Repository

/-! ### Operations -/

namespace Operation

variable {α β : Type} {r : Repository α} {session : Session} {op : Operation α β}

/-- Whether an operation cannot go on behind a statement, by its number from 0. -/
def StopsAt (r : Repository α) (session : Session) (op : Operation α β) (n : Nat) : Prop :=
  (session.answer n).Stops (op.Unreadable r n) (op.taken session n) ∨
    (op.LoadsRelations n ∧ r.Unloaded (op.taken session n) (session.answer n))

theorem obstacle_iff {executed : Nat} :
    op.Obstacle r session executed ↔
      op.Refused r session ∨ ∃ n < executed, op.StopsAt r session n := by
  constructor
  · rintro (⟨hn, hstops⟩ | ⟨hn, hloads, hunloaded⟩ | hrefused)
    · exact .inr ⟨_, hn, .inl hstops⟩
    · exact .inr ⟨_, hn, .inr ⟨hloads, hunloaded⟩⟩
    · exact .inl hrefused
  · rintro (hrefused | ⟨n, hn, hstops | ⟨hloads, hunloaded⟩⟩)
    · exact .refused hrefused
    · exact .answer hn hstops
    · exact .relations hn hloads hunloaded

-- Behind an answer that does not stop the operation only the later ones count.
private theorem obstacle_succ_iff {executed : Nat} (h : ¬op.StopsAt r session 0) :
    op.Obstacle r session (executed + 1) ↔
      op.Refused r session ∨ ∃ n < executed, op.StopsAt r session (n + 1) := by
  rw [obstacle_iff, Nat.exists_lt_succ_left, or_iff_right h]

/-- A run of an operation that fails exactly when it comes upon an obstacle. -/
def FailsByObstacle (r : Repository α) (session : Session) (op : Operation α β) : Prop :=
  ∃ sent logged, ((op.run r).runIn session).2 = session.after sent logged ∧
    ((∃ e, ((op.run r).runIn session).1 = .error e) ↔ op.Obstacle r session sent.length)

-- An operation that takes the same from each of its answers.
private theorem of_failsBy {refused : Prop} {stops : Reply → Prop}
    (h : (op.run r).FailsBy refused stops) (hrefused : refused ↔ op.Refused r session)
    (hstops : ∀ n, stops (session.answer n) ↔ op.StopsAt r session n) :
    op.FailsByObstacle r session := by
  obtain ⟨sent, logged, hlater, hfails⟩ := h session
  simp only [hrefused, hstops, ← obstacle_iff] at hfails
  exact ⟨sent, logged, hlater, hfails⟩

-- An operation that loads no relations.
private theorem of_failsBy_plain {refused : Prop} {stops : Reply → Prop}
    (h : (op.run r).FailsBy refused stops) (hrefused : refused ↔ op.Refused r session)
    (hstops : ∀ n reply, stops reply ↔ reply.Stops (op.Unreadable r n) (op.taken session n))
    (hloads : ∀ n, ¬op.LoadsRelations n) : op.FailsByObstacle r session := by
  refine of_failsBy h hrefused fun n ↦ ?_
  rw [hstops n, StopsAt, or_iff_left fun h ↦ hloads n h.1]

-- An operation that loads relations into the rows of each of its answers.
private theorem of_failsBy_loading {refused : Prop} {stops : Reply → Prop}
    (h : (op.run r).FailsBy refused stops) (hrefused : refused ↔ op.Refused r session)
    (hstops : ∀ n reply, stops reply ↔
      reply.Stops (op.Unreadable r n) (op.taken session n) ∨ r.Unloaded (op.taken session n) reply)
    (hloads : ∀ n, op.LoadsRelations n) : op.FailsByObstacle r session := by
  refine of_failsBy h hrefused fun n ↦ ?_
  rw [hstops n, StopsAt, and_iff_right (hloads n)]

-- An operation that looks a row up first, and then goes on with what it found.
private theorem of_lookup {conds : List Condition} {next : Option α → Action RepositoryError β}
    (refused : Option α → Prop) (stops : Option α → Reply → Prop)
    (hrun : op.run r = r.findOptional conds >>= next)
    (hlookup : ∀ reply : Reply, reply.Stops r.model.ofRow.Fails .rowIfAny ↔
      reply.Stops (op.Unreadable r 0) (op.taken session 0))
    (hloads : ∀ n, ¬op.LoadsRelations n)
    (hnext : ∀ found, r.sought session = .ok found → (next found).FailsBy (refused found)
      (stops found))
    (hrefused : ∀ found, r.sought session = .ok found → (refused found ↔ op.Refused r session))
    (hstops : ∀ found, r.sought session = .ok found → ∀ n, stops found (session.answer (n + 1)) ↔
      (session.answer (n + 1)).Stops (op.Unreadable r (n + 1)) (op.taken session (n + 1))) :
    op.FailsByObstacle r session := by
  have hfirst := r.runIn_findOptional conds session
  have hfails : (∃ e, r.sought session = .error e) ↔
      (session.answer 0).Stops r.model.ofRow.Fails .rowIfAny :=
    Reply.decodeOptional_fails_iff _
  rw [FailsByObstacle, hrun]
  cases hsought : r.sought session with
  | error e =>
    rw [hsought] at hfirst
    rw [Context.runIn_bind_error hfirst]
    refine ⟨[r.lookupOf conds], _, rfl, iff_of_true ⟨_, rfl⟩ ?_⟩
    exact .answer Nat.one_pos ((hlookup _).1 (hfails.1 ⟨e, hsought⟩))
  | ok found =>
    rw [hsought] at hfirst
    obtain ⟨sent, logged, hlater, hiff⟩ := (hnext found hsought).behind hfirst
    refine ⟨r.lookupOf conds :: sent, logged, hlater, ?_⟩
    -- The look-up was read, so only what follows it can stop the operation.
    have hread : ¬op.StopsAt r session 0 := by
      rintro (hstops | ⟨hload, -⟩)
      · obtain ⟨e, he⟩ := hfails.2 ((hlookup _).2 hstops)
        rw [hsought] at he
        cases he
      · exact hloads 0 hload
    rw [hiff, List.length_cons, obstacle_succ_iff hread, hrefused found hsought]
    refine or_congr_right (exists_congr fun n ↦ and_congr_right fun _ ↦ ?_)
    rw [hstops found hsought, StopsAt, or_iff_left fun h ↦ hloads _ h.1]

private theorem failsByObstacle_findOrInit (r : Repository α) (conds : List Condition)
    (session : Session) : (findOrInit conds : Operation α α).FailsByObstacle r session := by
  refine of_lookup
    (Option.elim · (∃ refusal, r.initial conds = .error refusal)
      fun row ↦ ∃ refusal, r.model.merge row r.query.assigned = .error refusal)
    (fun _ ↦ Reply.Stops r.model.ofRow.Fails .rowIfAny)
    rfl (fun _ ↦ .rfl) (fun _ h ↦ h) (fun found _ ↦ ?_) (fun found hfound ↦ ?_) fun _ _ _ ↦ .rfl
  · cases found with
    | some row => exact .require _
    | none => exact .require _
  · cases found <;> simp [Refused, hfound]

private theorem failsByObstacle_findOrCreate (r : Repository α) (conds : List Condition)
    (session : Session) : (findOrCreate conds : Operation α α).FailsByObstacle r session := by
  refine of_lookup
    (Option.elim · (r.RefusesMaking conds)
      fun row ↦ r.query.assigned.isEmpty = false ∧ r.RefusesAssignment row)
    (Option.elim · (Reply.Stops r.model.ofRow.Fails .rows)
      fun _ ↦ Reply.Stops r.model.ofRow.Fails .count)
    rfl (fun _ ↦ .rfl) (fun _ h ↦ h) (fun found _ ↦ ?_) (fun found hfound ↦ ?_)
    fun found hfound n ↦ ?_
  · cases found with
    | none => exact r.failsBy_making conds
    | some row =>
      dsimp only
      split
      · next hnothing => exact (Action.FailsBy.pure row).congr (by simp [hnothing]) fun _ ↦ .rfl
      · next hsome => exact (r.failsBy_assignTo row).congr (by simp [hsome]) fun _ ↦ .rfl
  · cases found <;> simp [Refused, hfound]
  · cases found with
    | none =>
      have hbehind : takenBehind (session.answer 0) = .rows := by
        rw [takenBehind, Reply.decodeOptional_eq_none_iff.1 hfound]
      change _ ↔ (session.answer (n + 1)).Stops _ (takenBehind (session.answer 0))
      rw [hbehind]
      exact .rfl
    | some row =>
      obtain ⟨first, rest, hrows, -⟩ := Reply.decodeOptional_eq_some_iff.1 hfound
      have hbehind : takenBehind (session.answer 0) = .count := by
        rw [takenBehind, hrows]
      change _ ↔ (session.answer (n + 1)).Stops _ (takenBehind (session.answer 0))
      rw [hbehind]
      exact .rfl

-- Behind a count that was read only the answer to the read of the page can stop a pagination.
private theorem obstacle_pagination_iff {o : PageOptions} {total : Int64}
    (hcount : (session.answer 0).decodeOne Row.int64 = .ok total) :
    (pagination o : Operation α (Pagination α)).Obstacle r session 2 ↔
      ∃ e, r.received (session.answer 1) = .error e := by
  have hread : ¬(pagination o : Operation α (Pagination α)).StopsAt r session 0 := by
    rintro (hstops | ⟨hload, -⟩)
    · obtain ⟨e, he⟩ := (Reply.decodeOne_fails_iff _).2 hstops
      rw [hcount] at he
      cases he
    · exact Nat.lt_irrefl 0 hload
  have hrefused : ¬(pagination o : Operation α (Pagination α)).Refused r session := fun h ↦ h
  have hpage : (pagination o : Operation α (Pagination α)).StopsAt r session 1 ↔
      (session.answer 1).Stops r.model.ofRow.Fails .rows ∨ r.Unloaded .rows (session.answer 1) :=
    or_congr_right (and_iff_right Nat.one_pos)
  rw [obstacle_succ_iff hread, or_iff_right hrefused, r.received_fails_iff, ← hpage]
  simp

private theorem failsByObstacle_pagination (r : Repository α) (o : PageOptions)
    (session : Session) :
    (pagination o : Operation α (Pagination α)).FailsByObstacle r session := by
  have hpaginate := r.query.runIn_paginate r.model.ofRow (o.normalized r.context.config) session
  rw [FailsByObstacle]
  change ∃ sent logged, ((r.pagination o).runIn session).2 = _ ∧
    ((∃ e, ((r.pagination o).runIn session).1 = _) ↔ _)
  rw [Repository.pagination]
  cases hcount : (session.answer 0).decodeOne Row.int64 with
  | error e =>
    rw [hcount] at hpaginate
    rw [Context.runIn_bind_error (Context.runIn_database hpaginate)]
    refine ⟨_, _, rfl, iff_of_true ⟨_, rfl⟩ ?_⟩
    exact .answer Nat.one_pos ((Reply.decodeOne_fails_iff _).1 ⟨e, hcount⟩)
  | ok total =>
    have hobstacle := obstacle_pagination_iff (r := r) (o := o) hcount
    rw [hcount] at hpaginate
    rw [Repository.received] at hobstacle
    cases hread : (session.answer 1).decodeAll r.model.ofRow with
    | error e =>
      rw [hread] at hpaginate hobstacle
      rw [Context.runIn_bind_error (Context.runIn_database hpaginate)]
      exact ⟨_, _, rfl, iff_of_true ⟨_, rfl⟩ (hobstacle.2 ⟨e, rfl⟩)⟩
    | ok rows =>
      rw [hread] at hpaginate hobstacle
      rw [Context.runIn_bind_ok (Context.runIn_database hpaginate)]
      dsimp only
      rw [Context.runIn_bind_pure (r.runIn_loadPreloads rows _), Context.ended_after,
        List.append_nil]
      obtain ⟨logged, hlater⟩ := r.context.exists_ended_eq_after session _
        (((r.completed rows).mapError RepositoryError.ofStore).map _)
      refine ⟨_, logged, hlater, ?_⟩
      rw [Context.ended_fails_iff, map_fails_iff, mapError_fails_iff]
      exact hobstacle.symm

-- An operation that is no look-up of one row keeps the discipline of the database.
private theorem exists_obeys (r : Repository α) {op : Operation α β} (h : op.lookup? r = none) :
    ∃ sends, (op.run r).Obeys (.ofContext r.context sends) := by
  cases op with
  | findAll conds => exact ⟨_, r.obeys_findAll conds⟩
  | findOne conds => cases h
  | findOrInit conds => exact ⟨_, r.obeys_findOrInit conds⟩
  | findOrCreate conds => exact ⟨_, r.obeys_findOrCreate conds⟩
  | count => exact ⟨_, r.obeys_count⟩
  | create values => exact ⟨_, r.obeys_insert _ values⟩
  | save values => exact ⟨_, r.obeys_insert _ values⟩
  | update values => exact ⟨_, r.obeys_update values⟩
  | updateColumn column value => exact ⟨_, r.obeys_write _⟩
  | delete conds => exact ⟨_, r.obeys_write _⟩
  | hardDelete conds => exact ⟨_, r.obeys_write _⟩
  | pagination o => exact ⟨_, r.obeys_pagination o⟩
  | raw read sql args => cases h
  | rawAll read sql args => exact ⟨_, r.obeys_rawAll read sql args⟩
  | exec sql args => exact ⟨_, r.obeys_exec sql args⟩
  | pluck read column => exact ⟨_, r.obeys_pluck read column⟩
  | scan read => exact ⟨_, r.obeys_scan read⟩
  | findInBatches size visit hvisit => exact ⟨_, Repository.obeys_findInBatches hvisit⟩

-- A look-up of one row executes its statement once, and the record is missing when there is no row.
private theorem kept_of_lookup (r : Repository α) {op : Operation α β} {s : Statement}
    (h : op.lookup? r = some s) (session : Session) :
    (Discipline.ofLookup r.context (· = s)).Kept session ((op.run r).runIn session) [s] ∧
      (op.ReadsRows r → ((∃ e, ((op.run r).runIn session).1 = .error e ∧ e.isNotFound = true) ↔
        (session.answer 0).toRows = .ok [])) := by
  cases op with
  | findOne conds =>
    cases h
    refine r.context.kept_lookup r.model.ofRow (· = r.query.first.selectStatement conds) rfl
      (fun row ↦ ?_) session
    exact .bind (r.obeys_loadPreloads _ [row]) fun loaded ↦ .pure _
  | raw read sql args =>
    cases h
    have hkept := r.context.kept_lookup read (· = Statement.withArgs sql args) rfl
      (fun row ↦ .pure row) session
    rw [bind_pure] at hkept
    exact hkept
  | _ => cases h

/-- An operation fails exactly when it comes upon an obstacle. -/
theorem failsByObstacle (r : Repository α) (op : Operation α β) (session : Session) :
    op.FailsByObstacle r session := by
  cases op with
  | findAll conds =>
    exact of_failsBy_loading (r.failsBy_fetchAll_loaded _) .rfl (fun _ _ ↦ .rfl) fun _ ↦ trivial
  | findOne conds =>
    exact of_failsBy_loading (r.failsBy_findOne conds) .rfl (fun _ _ ↦ .rfl) fun _ ↦ trivial
  | findOrInit conds => exact failsByObstacle_findOrInit r conds session
  | findOrCreate conds => exact failsByObstacle_findOrCreate r conds session
  | count =>
    exact of_failsBy_plain (r.failsBy_fetchOne .ofStore Row.int64 _) .rfl (fun _ _ ↦ .rfl)
      fun _ h ↦ h
  | create values =>
    exact of_failsBy_plain (r.failsBy_insert _ values) .rfl (fun _ _ ↦ .rfl) fun _ h ↦ h
  | save values =>
    exact of_failsBy_plain (r.failsBy_insert _ values) .rfl (fun _ _ ↦ .rfl) fun _ h ↦ h
  | update values =>
    exact of_failsBy_plain (r.failsBy_update values) .rfl (fun _ _ ↦ .rfl) fun _ h ↦ h
  | updateColumn column value =>
    exact of_failsBy_plain (r.failsBy_write _) .rfl (fun _ _ ↦ .rfl) fun _ h ↦ h
  | delete conds =>
    exact of_failsBy_plain (r.failsBy_write _) .rfl (fun _ _ ↦ .rfl) fun _ h ↦ h
  | hardDelete conds =>
    exact of_failsBy_plain (r.failsBy_write _) .rfl (fun _ _ ↦ .rfl) fun _ h ↦ h
  | pagination o => exact failsByObstacle_pagination r o session
  | raw read sql args =>
    exact of_failsBy_plain (r.failsBy_fetchOne .ofLookup read _) .rfl (fun _ _ ↦ .rfl) fun _ h ↦ h
  | rawAll read sql args =>
    exact of_failsBy_plain (r.failsBy_fetchAll read _) .rfl (fun _ _ ↦ .rfl) fun _ h ↦ h
  | exec sql args =>
    exact of_failsBy_plain (r.failsBy_execute _) .rfl (fun _ _ ↦ .rfl) fun _ h ↦ h
  | pluck read column =>
    exact of_failsBy_plain (r.failsBy_fetchAll read _) .rfl (fun _ _ ↦ .rfl) fun _ h ↦ h
  | scan read =>
    exact of_failsBy_plain (r.failsBy_fetchAll read _) .rfl (fun _ _ ↦ .rfl) fun _ h ↦ h
  | findInBatches size visit hvisit =>
    exact of_failsBy_loading (r.failsBy_findInBatches hvisit) .rfl (fun _ _ ↦ .rfl) fun _ ↦ trivial

/-- An operation fails exactly when it comes upon an obstacle, and then it logs its failure once;
one that succeeds logs nothing. Nothing is executed after the first answer that is an error. A
record is missing exactly when the operation looks up one row and the store answered its look-up
without a row; every other failure is one of the database. -/
theorem operation_fails_once (r : Repository α) (op : Operation α β) (session : Session) :
    ∃ sent logged,
      FailsOnce r.context session ((op.run r).runIn session) sent logged ∧
      ((∃ e, ((op.run r).runIn session).1 = .error e) ↔ op.Obstacle r session sent.length) ∧
      (op.ReadsRows r →
        ((∃ e, ((op.run r).runIn session).1 = .error e ∧ e.kind = .notFound) ↔
          ∃ s, op.lookup? r = some s ∧ sent = [s] ∧ (session.answer 0).toRows = .ok [])) := by
  have hkind : ∀ e : RepositoryError, e.isNotFound = true ↔ e.kind = .notFound := by
    intro e
    rw [RepositoryError.isNotFound, decide_eq_true_iff]
  have hobstacle {sent : List Statement} {logged : List LogEvent}
      (h : FailsOnce r.context session ((op.run r).runIn session) sent logged) :
      (∃ e, ((op.run r).runIn session).1 = .error e) ↔ op.Obstacle r session sent.length := by
    obtain ⟨others, events, hlater, hfails⟩ := op.failsByObstacle r session
    rwa [Session.length_eq_of_after_eq (h.later.symm.trans hlater)]
  simp only [← hkind]
  cases hlookup : op.lookup? r with
  | none =>
    obtain ⟨sends, hobeys⟩ := exists_obeys r hlookup
    obtain ⟨sent, hkept⟩ := hobeys session
    have hfails := hkept.failsOnce rfl
    refine ⟨sent, _, hfails, hobstacle hfails, fun _ ↦ iff_of_false hkept.not_missing ?_⟩
    rintro ⟨s, hs, -⟩
    cases hs
  | some s =>
    obtain ⟨hkept, hmissing⟩ := kept_of_lookup r hlookup session
    have hfails := hkept.failsOnce rfl
    refine ⟨[s], _, hfails, hobstacle hfails, fun hread ↦ ?_⟩
    rw [hmissing hread]
    constructor
    · intro hnone
      exact ⟨s, rfl, rfl, hnone⟩
    · rintro ⟨-, -, -, hnone⟩
      exact hnone

/-- A product that is not there: its look-up is executed, and one event tells that it is missing. -/
theorem operation_fails_once_missing :
    let r := Repository.ofProducts
    let op : Operation Fields Fields := .findOne []
    let session : Session := ⟨[.rows []], [], []⟩
    op.ReadsRows r ∧ ∃ e sent logged,
      FailsOnce r.context session ((op.run r).runIn session) sent logged ∧
      ((op.run r).runIn session).1 = .error e ∧ e.kind = .notFound ∧
      sent = [r.query.first.selectStatement []] ∧ op.Obstacle r session 1 := by
  intro r op session
  have hread : op.ReadsRows r := Schema.neverMissing_ofRow _
  obtain ⟨sent, logged, hfails, hobstacle, hmissing⟩ := operation_fails_once r op session
  obtain ⟨s, hs, hsent, -⟩ := (hmissing hread).1 ⟨⟨.notFound, .store .rowNotFound⟩, rfl, rfl⟩
  cases hs
  subst hsent
  exact ⟨hread, _, _, logged, hfails, rfl, rfl, rfl, hobstacle.1 ⟨_, rfl⟩⟩

end Operation

end RecordStore
