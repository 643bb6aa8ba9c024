import RecordStore.Model.Schema
import RecordStore.Proofs.Repository.Discipline

/-!
# Operations

The operations of a repository that reach the store, as data, and what it is for a run of one of
them to log its failure once and to stop at the first answer that is an error.
-/

namespace RecordStore

/-! ### Reading rows by a schema -/

/-- The reader of a schema fails by a column, never for want of a row. -/
theorem Schema.neverMissing_ofRow (schema : Schema) : schema.ofRow.NeverMissing := by
  intro row h
  rw [ofRow] at h
  rcases bind_eq_error_iff.1 h with h | ⟨entries, -, h⟩
  · obtain ⟨field, -, hfield⟩ := exists_mem_of_mapM_eq_error h
    rcases bind_eq_error_iff.1 hfield with hcolumn | ⟨value, -, hvalue⟩
    · cases ((field.readColumn_eq_error_iff row _).1 hcolumn).1
    · cases hvalue
  · cases h

/-- A repository of products, of which deleted ones are kept. -/
def Repository.ofProducts : Repository Fields :=
  .ofModel
    (Schema.model
      [.column "id" .integer (.int 0), .column "price" .integer (.int 0),
        .column "deleted_at" (.optional .text) .null]
      ⟨"products", "id", [], some "deleted_at"⟩)
    ⟨⟨"", 10, 20, 100⟩, "req"⟩

/-! ### Operations -/

/-- An operation of a repository that reaches the store, by the type of what it gives. -/
inductive Operation (α : Type) : Type → Type 1 where
  | findAll (conds : List Condition) : Operation α (List α)
  | findOne (conds : List Condition) : Operation α α
  | findOrInit (conds : List Condition) : Operation α α
  | findOrCreate (conds : List Condition) : Operation α α
  | count : Operation α Int64
  | create (values : List α) : Operation α (List α)
  | save (values : List α) : Operation α (List α)
  | update (values : Json) : Operation α Nat
  | updateColumn (column : String) (value : Json) : Operation α Nat
  | delete (conds : List Condition) : Operation α Nat
  | hardDelete (conds : List Condition) : Operation α Nat
  | pagination (o : PageOptions) : Operation α (Pagination α)
  | raw {β : Type} (read : RowReader β) (sql : String) (args : List Json) : Operation α β
  | rawAll {β : Type} (read : RowReader β) (sql : String) (args : List Json) : Operation α (List β)
  | exec (sql : String) (args : List Json) : Operation α Nat
  | pluck {β : Type} (read : RowReader β) (column : String) : Operation α (List β)
  | scan {β : Type} (read : RowReader β) : Operation α (List β)
  /-- A walk whose visitor does not fail. -/
  | findInBatches (size : Int64) (visit : BatchVisitor α)
      (hvisit : ∀ visited batch, visit visited batch = .ok ()) : Operation α Nat

namespace Operation

variable {α β : Type}

/-- What an operation does in a repository. -/
def run (r : Repository α) : Operation α β → Action RepositoryError β
  | .findAll conds => r.findAll conds
  | .findOne conds => r.findOne conds
  | .findOrInit conds => r.findOrInit conds
  | .findOrCreate conds => r.findOrCreate conds
  | .count => r.count
  | .create values => r.create values
  | .save values => r.save values
  | .update values => r.update values
  | .updateColumn column value => r.updateColumn column value
  | .delete conds => r.delete conds
  | .hardDelete conds => r.hardDelete conds
  | .pagination o => r.pagination o
  | .raw read sql args => r.raw read sql args
  | .rawAll read sql args => r.rawAll read sql args
  | .exec sql args => r.exec sql args
  | .pluck read column => r.pluck read column
  | .scan read => r.scan read
  | .findInBatches size visit _ => Repository.walkOutcome (r.findInBatches size visit)

/-- The statement of an operation that looks up one row, which may be missing. -/
def lookup? (r : Repository α) : Operation α β → Option Statement
  | .findOne conds => some (r.query.first.selectStatement conds)
  | .raw _ sql args => some (.withArgs sql args)
  | _ => none

/-- Whether the reader of a look-up leaves it to the store to say that there is no row. -/
def ReadsRows (r : Repository α) : Operation α β → Prop
  | .findOne _ => r.model.ofRow.NeverMissing
  | .raw read _ _ => read.NeverMissing
  | _ => True

end Operation

/-- An event that tells of an error: by the level of its kind, with its code and its text, under the
identifier of the unit of work. -/
structure LogEvent.Reports (event : LogEvent) (ctx : Context) (e : RepositoryError) : Prop where
  level : event.level = if e.isNotFound then .debug else .error
  code : event.code = e.kind.code
  requestId : event.requestId = ctx.requestId
  error : event.error = e.cause.message

/-- The event about an error tells of it. -/
theorem Context.reports_event (ctx : Context) (e : RepositoryError) :
    (ctx.event e).Reports ctx e where
  level := by
    rw [event, RepositoryError.isNotFound]
    cases e.kind <;> rfl
  code := rfl
  requestId := rfl
  error := rfl

/-- A run that sends statements and logs events, of which there is one exactly when it fails. Of the
answers only the last one may be an error, and then the run has failed. -/
structure FailsOnce {β : Type} (ctx : Context) (session : Session)
    (run : Except RepositoryError β × Session) (sent : List Statement) (logged : List LogEvent) :
    Prop where
  later : run.2 = session.after sent logged
  quiet : ∀ x, run.1 = .ok x → logged = []
  logs : ∀ e, run.1 = .error e → ∃ event, logged = [event] ∧ event.Reports ctx e
  stops : ∀ n < sent.length, (session.answer n).isError = true →
    n + 1 = sent.length ∧ ∃ e, run.1 = .error e

namespace Discipline.Kept

variable {β : Type} {ctx : Context} {session : Session} {run : Except RepositoryError β × Session}
  {sent : List Statement} {sends : Statement → Prop} {d : Discipline RepositoryError}

/-- A run that keeps a discipline under which each failure is logged once. -/
theorem failsOnce (h : d.Kept session run sent) (hlogs : d.logs = fun e ↦ [ctx.event e]) :
    FailsOnce ctx session run sent (d.logged run.1) where
  later := h.later
  quiet := by
    intro x hx
    rw [hx]
    rfl
  logs := by
    intro e he
    refine ⟨ctx.event e, ?_, ctx.reports_event e⟩
    rw [he, logged, hlogs]
  stops := by
    intro n hn herror
    have hmem : session.answer n ∈ session.answers sent.length :=
      List.mem_map.2 ⟨n, List.mem_range.2 hn, rfl⟩
    constructor
    · rcases Nat.lt_or_ge (n + 1) sent.length with hearlier | hlast
      · -- An answer before the last one is no error.
        obtain ⟨m, hm⟩ : ∃ m, sent.length = m + 1 := ⟨sent.length - 1, by omega⟩
        have hmem : session.answer n ∈ (session.answers sent.length).dropLast := by
          rw [hm, Session.answers, List.range_succ, List.map_append, List.map_singleton,
            List.dropLast_concat]
          exact List.mem_map.2 ⟨n, List.mem_range.2 (by omega), rfl⟩
        rw [h.stops _ hmem] at herror
        cases herror
      · omega
    · cases houtcome : run.1 with
      | ok x =>
        rw [h.answered x houtcome _ hmem] at herror
        cases herror
      | error e => exact ⟨e, rfl⟩

/-- An operation whose failures are of the database does not find a record missing. -/
theorem not_missing (h : (ofContext ctx sends).Kept session run sent) :
    ¬∃ e, run.1 = .error e ∧ e.isNotFound = true := by
  rintro ⟨e, he, hmissing⟩
  have hkind : e.kind = .database := h.fails e he
  rw [RepositoryError.isNotFound, hkind] at hmissing
  exact absurd hmissing (by decide)

end Discipline.Kept

end RecordStore
