import Mathlib.Algebra.Ring.Nat
import Mathlib.Data.List.ReduceOption
import RecordStore.Proofs.Query.WritableColumns
import RecordStore.Proofs.Repository.FindOr
import RecordStore.Proofs.Repository.UpdateRefusal

/-!
# What an update executes

Each value of an update is refused, or has nothing to write, or is written by one statement. The
checks have an order: the value must be an object, the model must have a default to compare with,
the rows must be told by a filter or by a key, and only then is it asked whether a column is left to
write. The values are handled one after another until the first one that fails.
-/

namespace RecordStore

open Reading

namespace Query

variable (q : Query)

/-- The filter on the primary key that fields bring along: one when their key is assigned. -/
def keyFilter? (f : Fields) : Option Expr :=
  ((f.get? q.primaryKey).filter (!·.isUnassigned)).map fun key ↦
    Condition.toExpr q.table q.primaryKey (.primaryKey key)

/-- Which rows the update by fields is about: what has been accumulated, the row with their key and
the scope. -/
def updateFilters (f : Fields) : List Expr :=
  Expr.nonEmpty q.filters ++ (q.keyFilter? f).toList ++ q.scope

/-- Whether nothing tells the rows of the update by fields: no filter says anything, and the key is
missing or not assigned. -/
def Unfiltered (f : Fields) : Prop :=
  (∀ e ∈ q.filters, e.isEmpty = true) ∧
    ∀ key, f.get? q.primaryKey = some key → key.isUnassigned = true

/-- Whether changed fields have no column to write. -/
def NothingToUpdate (changed : Fields) : Prop :=
  ∀ column ∈ changed.names, q.Writable column → column = q.primaryKey

/-- The update by the changed fields of an object. -/
structure UpdatesBy (f changed : Fields) (s : Statement) (written : Fields) : Prop where
  whole : s = (q.updateHead changed).withWhere (conditions (q.updateFilters f)) ""
  writes : ∀ column value, written.get? column = some value ↔
    changed.get? column = some value ∧ q.Writable column ∧ column ≠ q.primaryKey
  args : s.args = written.toJson :: (conditions (q.updateFilters f)).args
  text : updateText? s.sql = some
    { table := q.table, target := ⟨2 ≤ written.names.length, written.names⟩
      selected := written.names, source := q.table
      conditions := (conditions (q.updateFilters f)).sql }

variable {q}

private theorem callerFilters_keyConditions (f : Fields) :
    q.callerFilters (Repository.keyConditions q.primaryKey f) =
      Expr.nonEmpty q.filters ++ (q.keyFilter? f).toList := by
  rw [callerFilters, Expr.nonEmpty, List.filter_append, keyFilter?, Repository.keyConditions]
  cases hkey : f.get? q.primaryKey with
  | none => rfl
  | some key =>
    cases hblank : key.isUnassigned with
    | true => simp [hblank, Expr.nonEmpty, Option.filter_some]
    | false => simp [hblank, q.isEmpty_primaryKey key, Expr.nonEmpty, Option.filter_some]

private theorem unfiltered_iff (f : Fields) :
    q.Unfiltered f ↔ q.callerFilters (Repository.keyConditions q.primaryKey f) = [] := by
  rw [callerFilters_keyConditions, List.append_eq_nil_iff, Unfiltered, keyFilter?]
  refine and_congr ?_ ?_
  · simp [Expr.nonEmpty, List.filter_eq_nil_iff]
  · simp

private theorem nothingToUpdate_iff (changed : Fields) :
    q.NothingToUpdate changed ↔ (q.updatedFields changed).names = [] := by
  simp only [List.eq_nil_iff_forall_not_mem, Fields.mem_names_iff, not_exists, NothingToUpdate,
    get?_updatedFields_eq_some_iff]
  refine forall_congr' fun column ↦ ?_
  rw [forall_exists_index]
  refine forall_congr' fun value ↦ ?_
  tauto

private theorem updatesBy {f changed : Fields} {s : Statement}
    (hs : q.updateStatement changed (Repository.keyConditions q.primaryKey f) = .ok s) :
    q.UpdatesBy f changed s (q.updatedFields changed) := by
  obtain ⟨-, hnames, rfl⟩ := (updateStatement_eq_ok_iff s).1 hs
  have hfilters : q.scopedFilters (Repository.keyConditions q.primaryKey f) =
      q.updateFilters f := by
    rw [scopedFilters, callerFilters_keyConditions, updateFilters]
  rw [hfilters]
  refine ⟨rfl, get?_updatedFields_eq_some_iff changed, ?_, updateText?_withWhere hnames _⟩
  simp [Statement.withWhere, updateHead, Statement.withArgs]

end Query

/-- The changed fields of an object cannot be told exactly when the default is no object. -/
theorem Model.changedFields_eq_error_iff {α : Type} {m : Model α} {f : Fields}
    {refusal : Refusal} :
    m.changedFields f = .error refusal ↔
      (m.toJson m.default).fields? = none ∧ refusal = .notAnObject (m.toJson m.default) := by
  rw [changedFields, fields]
  cases (m.toJson m.default).fields? with
  | none =>
    constructor
    · intro h
      cases h
      exact ⟨rfl, rfl⟩
    · rintro ⟨-, rfl⟩
      rfl
  | some defaults => exact iff_of_false nofun nofun

namespace Repository

variable {α : Type} (r : Repository α)

/-- What an update by one value is refused for or executes. -/
inductive Plans : Json → Except Refusal (Option Statement) → Prop
  | notObject {value : Json} (hvalue : value.fields? = none) :
      Plans value (.error (.notAnObject value))
  /-- The changed fields of no object can be told. -/
  | noDefaults {value : Json} {f : Fields} (hvalue : value.fields? = some f)
      (hdefaults : (r.model.toJson r.model.default).fields? = none) :
      Plans value (.error (.notAnObject (r.model.toJson r.model.default)))
  | unfiltered {value : Json} {f changed : Fields} (hvalue : value.fields? = some f)
      (hchanged : r.model.changedFields f = .ok changed) (hfilters : r.query.Unfiltered f) :
      Plans value (.error (.unfiltered .update))
  | skipped {value : Json} {f changed : Fields} (hvalue : value.fields? = some f)
      (hchanged : r.model.changedFields f = .ok changed) (hfilters : ¬r.query.Unfiltered f)
      (hnothing : r.query.NothingToUpdate changed) : Plans value (.ok none)
  | written {value : Json} {f changed written : Fields} {s : Statement}
      (hvalue : value.fields? = some f) (hchanged : r.model.changedFields f = .ok changed)
      (hfilters : ¬r.query.Unfiltered f) (hsome : ¬r.query.NothingToUpdate changed)
      (hs : r.query.UpdatesBy f changed s written) : Plans value (.ok (some s))

/-- Every value is planned for in the order of the checks. -/
theorem plans_planned (value : Json) : r.Plans value (r.planned value) := by
  rw [planned]
  cases hvalue : value.fields? with
  | none => exact .notObject hvalue
  | some f =>
    dsimp only
    cases hchanged : r.model.changedFields f with
    | error refusal =>
      obtain ⟨hdefaults, rfl⟩ := Model.changedFields_eq_error_iff.1 hchanged
      exact .noDefaults hvalue hdefaults
    | ok changed =>
      dsimp only
      cases hs : r.query.updateStatement changed (keyConditions r.query.primaryKey f) with
      | ok s =>
        obtain ⟨hfilters, hnames, -⟩ := (Query.updateStatement_eq_ok_iff s).1 hs
        rw [ne_eq, ← Query.unfiltered_iff] at hfilters
        rw [ne_eq, ← Query.nothingToUpdate_iff] at hnames
        exact .written hvalue hchanged hfilters hnames (Query.updatesBy hs)
      | error refusal =>
        rw [Query.updateStatement_eq_error_iff, ne_eq, ← Query.unfiltered_iff,
          ← Query.nothingToUpdate_iff] at hs
        obtain ⟨rfl, hfilters⟩ | ⟨rfl, hfilters, hnothing⟩ := hs
        · exact .unfiltered hvalue hchanged hfilters
        · exact .skipped hvalue hchanged hfilters hnothing

/-- Values that have been updated, with the statements that were executed for them in order and the
counts of rows that the store told of each. -/
structure UpdatedBy (session : Session) (values : List Json) (sent : List Statement)
    (counts : List Nat) : Prop where
  planned : ∃ plans, List.Forall₂ (fun value plan ↦ r.Plans value (.ok plan)) values plans ∧
    plans.reduceOption = sent
  counted : (session.answers sent.length).map Reply.toCount = counts.map .ok

/-- How an update by values ends. -/
inductive UpdateEnds (session : Session) :
    List Json → Except RepositoryError Nat × Session → Prop
  /-- All values have been updated. -/
  | done {values : List Json} {sent : List Statement} {counts : List Nat}
      (hvalues : r.UpdatedBy session values sent counts) :
      UpdateEnds session values (r.context.ended session sent (.ok counts.sum))
  /-- A value is refused, and nothing is executed for it. -/
  | refused {before rest : List Json} {value : Json} {sent : List Statement} {counts : List Nat}
      {refusal : Refusal} (hbefore : r.UpdatedBy session before sent counts)
      (hplan : r.Plans value (.error refusal)) :
      UpdateEnds session (before ++ value :: rest)
        (r.context.ended session sent (.error (.refused refusal)))
  /-- The store answers the statement of a value with an error. -/
  | failed {before rest : List Json} {value : Json} {sent : List Statement} {counts : List Nat}
      {s : Statement} {e : StoreError} (hbefore : r.UpdatedBy session before sent counts)
      (hplan : r.Plans value (.ok (some s)))
      (hanswer : (session.answer sent.length).toCount = .error e) :
      UpdateEnds session (before ++ value :: rest)
        (r.context.ended session (sent ++ [s]) (.error (.ofStore e)))

variable {r} {session : Session} {value : Json} {values : List Json}

namespace UpdatedBy

variable {sent : List Statement} {counts : List Nat}

private theorem nil : r.UpdatedBy session [] [] [] := ⟨⟨[], .nil, rfl⟩, rfl⟩

private theorem skip (hplan : r.Plans value (.ok none))
    (h : r.UpdatedBy session values sent counts) :
    r.UpdatedBy session (value :: values) sent counts := by
  obtain ⟨⟨plans, hplans, hsent⟩, hcounted⟩ := h
  exact ⟨⟨none :: plans, .cons hplan hplans, by rwa [List.reduceOption_cons_of_none]⟩, hcounted⟩

private theorem write {s : Statement} {count : Nat} (hplan : r.Plans value (.ok (some s)))
    (hcount : (session.answer 0).toCount = .ok count)
    (h : r.UpdatedBy (session.after [s] []) values sent counts) :
    r.UpdatedBy session (value :: values) (s :: sent) (count :: counts) := by
  obtain ⟨⟨plans, hplans, hsent⟩, hcounted⟩ := h
  refine ⟨⟨some s :: plans, .cons hplan hplans, by rw [List.reduceOption_cons_of_some, hsent]⟩, ?_⟩
  have hanswers := session.answers_add [s] sent []
  rw [List.singleton_append] at hanswers
  rw [hanswers, List.map_append, hcounted, List.map_cons, ← hcount]
  rfl

end UpdatedBy

namespace UpdateEnds

variable {result : Except RepositoryError Nat × Session}

private theorem skip (hplan : r.Plans value (.ok none)) (h : r.UpdateEnds session values result) :
    r.UpdateEnds session (value :: values) result := by
  cases h with
  | done hvalues => exact .done (hvalues.skip hplan)
  | refused hbefore hrefused =>
    rw [← List.cons_append]
    exact .refused (hbefore.skip hplan) hrefused
  | failed hbefore hfailed hanswer =>
    rw [← List.cons_append]
    exact .failed (hbefore.skip hplan) hfailed hanswer

-- A run after a statement that was counted ends as one run with the statement.
private theorem ended_counted (ctx : Context) (s : Statement) (sent : List Statement)
    (count : Nat) (outcome : Except RepositoryError Nat) :
    ((ctx.ended (session.after [s] []) sent outcome).1.map (count + ·),
        (ctx.ended (session.after [s] []) sent outcome).2) =
      ctx.ended session (s :: sent) (outcome.map (count + ·)) := by
  rw [Context.ended_after]
  cases outcome <;> rfl

private theorem write {s : Statement} {count : Nat} (hplan : r.Plans value (.ok (some s)))
    (hcount : (session.answer 0).toCount = .ok count)
    (h : r.UpdateEnds (session.after [s] []) values result) :
    r.UpdateEnds session (value :: values) (result.1.map (count + ·), result.2) := by
  cases h with
  | done hvalues =>
    rw [ended_counted]
    exact .done (hvalues.write hplan hcount)
  | refused hbefore hrefused =>
    rw [ended_counted, ← List.cons_append]
    exact .refused (hbefore.write hplan hcount) hrefused
  | failed hbefore hfailed hanswer =>
    rw [Session.answer_after, Nat.add_comm] at hanswer
    rw [ended_counted, ← List.cons_append]
    exact .failed (hbefore.write hplan hcount) hfailed hanswer

end UpdateEnds

-- By induction on the values: each one is refused, skipped or written, and what it does comes in
-- front of what the rest does.
private theorem updateEach_ends (values : List Json) (session : Session) :
    r.UpdateEnds session values ((r.updateEach values).runIn session) := by
  induction values generalizing session with
  | nil =>
    have hend := UpdateEnds.done (UpdatedBy.nil : r.UpdatedBy session [] [] [])
    rwa [Context.ended, Session.after_nil] at hend
  | cons value rest ih =>
    have hplan := r.plans_planned value
    have hone := r.runIn_updateOne value session
    cases hplanned : r.planned value with
    | error refusal =>
      rw [hplanned] at hplan hone
      dsimp only at hone
      rw [runIn_write_error] at hone
      rw [runIn_updateEach_of_error hone]
      exact .refused .nil hplan
    | ok plan =>
      rw [hplanned] at hplan hone
      cases plan with
      | none =>
        have hsame : ∀ outcome : Except RepositoryError Nat, outcome.map (0 + ·) = outcome := by
          intro outcome
          cases outcome <;> simp [Except.map]
        rw [runIn_updateEach_cons hone, hsame]
        exact (ih session).skip hplan
      | some s =>
        dsimp only at hone
        rw [runIn_write_ok] at hone
        cases hcount : (session.answer 0).toCount with
        | error e =>
          rw [hcount] at hone
          rw [runIn_updateEach_of_error hone]
          exact .failed .nil hplan hcount
        | ok count =>
          rw [hcount] at hone
          rw [runIn_updateEach_cons hone]
          exact (ih _).write hplan hcount

/-- An update handles its values one after another until the first one that fails. It ends with the
sum of the counts that the store told of, and with zero for no values. -/
theorem update_executes (r : Repository α) (values : Json) (session : Session) :
    r.UpdateEnds session (updateValues values) ((r.update values).runIn session) ∧
      (r.update (.array [])).runIn session = (.ok 0, session) := by
  rw [update_eq]
  exact ⟨updateEach_ends _ session, rfl⟩

/-- An object is not refused for want of a filter when the values of the model are numbers: there is
no default to tell its changed fields by. -/
theorem update_unfiltered_numbers :
    let numbers : Model Nat :=
      { identity := .named "numbers"
        default := 0
        toJson := fun n ↦ .int n
        ofFields? := fun _ ↦ none
        ofRow := fun _ ↦ .error .rowNotFound
        load := Model.unknownRelation "numbers" }
    let r := ofModel numbers ⟨⟨"", 10, 20, 100⟩, "req"⟩
    ¬∀ (f : Fields) (session : Session), r.query.Unfiltered f →
      ((r.update f.toJson).runIn session).1 = .error (.refused (.unfiltered .update)) := by
  intro numbers r h
  have hunfiltered : r.query.Unfiltered ∅ := ⟨List.forall_mem_nil _, nofun⟩
  have hrefused : ((r.update (∅ : Fields).toJson).runIn ⟨[], [], []⟩).1 =
      .error (.refused (.notAnObject (.int 0))) := rfl
  rw [h ∅ ⟨[], [], []⟩ hunfiltered] at hrefused
  cases hrefused

end Repository

end RecordStore
