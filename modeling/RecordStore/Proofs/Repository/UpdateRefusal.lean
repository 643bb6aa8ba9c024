import RecordStore.Proofs.Repository.Operations

/-!
# Updates that are refused

An update goes through its values one after another, and each value is checked only when those
before it have been written. So an update that is refused at some value has executed what the values
before that one had to write, and it leaves the store as it was only when they had nothing to write.
-/

namespace RecordStore

namespace Repository

variable {α : Type} (r : Repository α)

/-- What an update by one value is to execute: nothing when no column is left to write. -/
def planned (value : Json) : Except Refusal (Option Statement) :=
  match value.fields? with
  | none => .error (.notAnObject value)
  | some f =>
    match r.model.changedFields f with
    | .error refusal => .error refusal
    | .ok changed =>
      match r.query.updateStatement changed (keyConditions r.query.primaryKey f) with
      | .error .noColumns => .ok none
      | .error refusal => .error refusal
      | .ok s => .ok (some s)

/-- An update by one value does what is planned for it. -/
theorem runIn_updateOne (value : Json) (session : Session) :
    (r.updateOne value).runIn session =
      match r.planned value with
      | .error refusal => (r.write (.error refusal)).runIn session
      | .ok none => (.ok 0, session)
      | .ok (some s) => (r.write (.ok s)).runIn session := by
  rw [updateOne, planned]
  cases value.fields? with
  | none =>
    dsimp only
    rw [runIn_write_error, Context.runIn_fail, Session.afterLogging_eq]
  | some f =>
    dsimp only
    rw [Action.runIn_bind]
    cases r.model.changedFields f with
    | error refusal =>
      dsimp only
      rw [runIn_write_error, Context.require, Context.runIn_fail, Session.afterLogging_eq]
    | ok changed =>
      dsimp only [Context.require, Action.runIn_pure]
      cases r.query.updateStatement changed (keyConditions r.query.primaryKey f) with
      | ok s => rfl
      | error refusal => cases refusal <;> rfl

/-! ### Values one after another -/

variable {r}

/-- Nothing follows a value that fails. -/
theorem runIn_updateEach_of_error {value : Json} {rest : List Json}
    {session later : Session} {e : RepositoryError}
    (h : (r.updateOne value).runIn session = (.error e, later)) :
    (r.updateEach (value :: rest)).runIn session = (.error e, later) := by
  rw [updateEach, Action.runIn_bind, h]

/-- What follows a value that has been updated adds to its count. -/
theorem runIn_updateEach_cons {value : Json} {rest : List Json} {session next : Session}
    {count : Nat} (h : (r.updateOne value).runIn session = (.ok count, next)) :
    (r.updateEach (value :: rest)).runIn session =
      (((r.updateEach rest).runIn next).1.map (count + ·),
        ((r.updateEach rest).runIn next).2) := by
  rw [updateEach, Action.runIn_bind, h]
  dsimp only
  rw [Action.runIn_bind]
  cases (r.updateEach rest).runIn next with
  | mk outcome later => cases outcome <;> rfl

-- After a value that could be written, the rest decides how the update fails.
private theorem runIn_updateEach_error_iff {value : Json} {rest : List Json}
    {session next later : Session} {count : Nat} {e : RepositoryError}
    (h : (r.updateOne value).runIn session = (.ok count, next)) :
    (r.updateEach (value :: rest)).runIn session = (.error e, later) ↔
      (r.updateEach rest).runIn next = (.error e, later) := by
  rw [runIn_updateEach_cons h]
  cases (r.updateEach rest).runIn next with
  | mk outcome final =>
    cases outcome with
    | error other => exact Iff.rfl
    | ok further => exact iff_of_false nofun nofun

variable (r)

/-- Values that have been updated one after another, with the statements that were executed for
them; none of these was answered with an error. -/
inductive Updated : Session → List Json → List Statement → Prop
  | nil (session : Session) : Updated session [] []
  | skipped {session : Session} {value : Json} {rest : List Json} {sent : List Statement}
      (hplanned : r.planned value = .ok none) (hrest : Updated session rest sent) :
      Updated session (value :: rest) sent
  | written {session : Session} {value : Json} {s : Statement} {rest : List Json}
      {sent : List Statement} (hplanned : r.planned value = .ok (some s))
      (hanswer : (session.answer 0).isError = false)
      (hrest : Updated (session.after [s] []) rest sent) :
      Updated session (value :: rest) (s :: sent)

variable {r}

/-- Each value that has been updated was planned. -/
theorem Updated.planned {session : Session} {values : List Json} {sent : List Statement}
    (h : r.Updated session values sent) :
    ∀ value ∈ values, ∃ plan, r.planned value = .ok plan := by
  induction h with
  | nil session => exact List.forall_mem_nil _
  | skipped hplanned hrest ih => exact List.forall_mem_cons.2 ⟨⟨_, hplanned⟩, ih⟩
  | written hplanned hanswer hrest ih => exact List.forall_mem_cons.2 ⟨⟨_, hplanned⟩, ih⟩

/-- Nothing has been executed for values exactly when none of them had something to write. -/
theorem Updated.eq_nil_iff {session : Session} {values : List Json} {sent : List Statement}
    (h : r.Updated session values sent) :
    sent = [] ↔ ∀ value ∈ values, r.planned value = .ok none := by
  induction h with
  | nil session => exact iff_of_true rfl (List.forall_mem_nil _)
  | skipped hplanned hrest ih =>
    rw [List.forall_mem_cons, ih]
    exact (and_iff_right hplanned).symm
  | written hplanned hanswer hrest ih =>
    refine iff_of_false nofun ?_
    rw [List.forall_mem_cons, hplanned]
    exact nofun

private theorem isError_eq_false_iff (reply : Reply) :
    reply.isError = false ↔ ∃ count, reply.toCount = .ok count := by
  cases reply with
  | rows found => exact iff_of_true rfl ⟨_, rfl⟩
  | affected count => exact iff_of_true rfl ⟨_, rfl⟩
  | error message =>
    refine iff_of_false nofun ?_
    rintro ⟨count, hcount⟩
    cases hcount

private theorem runIn_updateOne_some {value : Json} {s : Statement}
    (hplanned : r.planned value = .ok (some s)) {session : Session} {count : Nat}
    (hcount : (session.answer 0).toCount = .ok count) :
    (r.updateOne value).runIn session = (.ok count, session.after [s] []) := by
  rw [runIn_updateOne, hplanned]
  dsimp only
  rw [runIn_write_ok, hcount]

-- By induction on the values that have been updated: what fails after them fails the whole update.
private theorem runIn_updateEach_of_updated {session later : Session} {before rest : List Json}
    {sent : List Statement} {e : RepositoryError} (h : r.Updated session before sent)
    (hrest : (r.updateEach rest).runIn (session.after sent []) = (.error e, later)) :
    (r.updateEach (before ++ rest)).runIn session = (.error e, later) := by
  induction h with
  | nil session => rwa [Session.after_nil] at hrest
  | @skipped session value values sent hplanned _ ih =>
    have hone : (r.updateOne value).runIn session = (.ok 0, session) := by
      rw [runIn_updateOne, hplanned]
    exact (runIn_updateEach_error_iff hone).2 (ih hrest)
  | @written session value s values sent hplanned hanswer _ ih =>
    obtain ⟨count, hcount⟩ := (isError_eq_false_iff _).1 hanswer
    refine (runIn_updateEach_error_iff (runIn_updateOne_some hplanned hcount)).2 (ih ?_)
    rwa [Session.after_after]

-- By induction on the values: a refusal is that of the first value that cannot be planned.
private theorem exists_updated_of_refused {values : List Json} {session later : Session}
    {refusal : Refusal}
    (h : (r.updateEach values).runIn session = (.error ⟨.database, .refusal refusal⟩, later)) :
    ∃ before value rest sent, values = before ++ value :: rest ∧ r.Updated session before sent ∧
      r.planned value = .error refusal ∧
      later = session.after sent [r.context.event ⟨.database, .refusal refusal⟩] := by
  induction values generalizing session with
  | nil => cases h
  | cons value rest ih =>
    cases hplanned : r.planned value with
    | error other =>
      have hone := r.runIn_updateOne value session
      rw [hplanned] at hone
      dsimp only at hone
      rw [runIn_write_error] at hone
      rw [runIn_updateEach_of_error hone] at h
      cases h
      exact ⟨[], value, rest, [], rfl, .nil session, hplanned, rfl⟩
    | ok plan =>
      cases plan with
      | none =>
        have hone : (r.updateOne value).runIn session = (.ok 0, session) := by
          rw [runIn_updateOne, hplanned]
        obtain ⟨before, bad, after, sent, rfl, hupdated, hbad, hlater⟩ :=
          ih ((runIn_updateEach_error_iff hone).1 h)
        exact ⟨value :: before, bad, after, sent, rfl, .skipped hplanned hupdated, hbad, hlater⟩
      | some s =>
        cases hcount : (session.answer 0).toCount with
        | error e =>
          have hone := r.runIn_updateOne value session
          rw [hplanned] at hone
          dsimp only at hone
          rw [runIn_write_ok, hcount] at hone
          rw [runIn_updateEach_of_error hone] at h
          cases h
        | ok count =>
          obtain ⟨before, bad, after, sent, rfl, hupdated, hbad, hlater⟩ :=
            ih ((runIn_updateEach_error_iff (runIn_updateOne_some hplanned hcount)).1 h)
          refine ⟨value :: before, bad, after, s :: sent, rfl, ?_, hbad, ?_⟩
          · exact .written hplanned ((isError_eq_false_iff _).2 ⟨count, hcount⟩) hupdated
          · rw [hlater, Session.after_after]
            rfl

/-- An update is refused exactly when one of its values is and those before it have been updated,
each by its statement or by none. -/
theorem update_refused_iff (values : Json) (session later : Session) (refusal : Refusal) :
    (r.update values).runIn session = (.error ⟨.database, .refusal refusal⟩, later) ↔
      ∃ before value rest sent, updateValues values = before ++ value :: rest ∧
        r.Updated session before sent ∧ r.planned value = .error refusal ∧
        later = session.after sent [r.context.event ⟨.database, .refusal refusal⟩] := by
  rw [update_eq]
  constructor
  · exact exists_updated_of_refused
  · rintro ⟨before, value, rest, sent, hvalues, hupdated, hplanned, rfl⟩
    rw [hvalues]
    apply runIn_updateEach_of_updated hupdated
    have hone := r.runIn_updateOne value (session.after sent [])
    rw [hplanned] at hone
    dsimp only at hone
    rw [runIn_write_error, Session.after_after, List.append_nil, List.nil_append] at hone
    exact runIn_updateEach_of_error hone

/-- An update is refused at the first of its values that is, and it leaves the store as it was
exactly when no value before that one had something to write. -/
theorem update_refused_untouched_iff {values : Json} {session later : Session} {refusal : Refusal}
    (h : (r.update values).runIn session = (.error ⟨.database, .refusal refusal⟩, later)) :
    ∃ before value rest, updateValues values = before ++ value :: rest ∧
      (∀ earlier ∈ before, ∃ plan, r.planned earlier = .ok plan) ∧
      r.planned value = .error refusal ∧
      (later.executed = session.executed ↔ ∀ earlier ∈ before, r.planned earlier = .ok none) := by
  obtain ⟨before, value, rest, sent, hvalues, hupdated, hplanned, rfl⟩ :=
    (r.update_refused_iff values session later refusal).1 h
  refine ⟨before, value, rest, hvalues, hupdated.planned, hplanned, ?_⟩
  rw [← hupdated.eq_nil_iff]
  simp [Session.after]

/-- Products of a kind get a price before the second value is looked at, which is no object. -/
theorem update_refused_after_write :
    let r := ofProducts.refine fun q ↦ q.filterRaw "k = ?" [.int 7]
    let values : Json := .array [(Fields.singleton "price" (.int 1)).toJson, .int 5]
    let session : Session := ⟨[.affected 1], [], []⟩
    ∃ later,
      (r.update values).runIn session =
        (.error ⟨.database, .refusal (.notAnObject (.int 5))⟩, later) ∧
      later.executed ≠ session.executed := by
  intro r values session
  obtain ⟨s, hs⟩ : ∃ s, r.planned (Fields.singleton "price" (.int 1)).toJson = .ok (some s) :=
    ⟨_, rfl⟩
  obtain ⟨later, hrun⟩ : ∃ later, (r.update values).runIn session =
      (.error ⟨.database, .refusal (.notAnObject (.int 5))⟩, later) := ⟨_, rfl⟩
  refine ⟨later, hrun, ?_⟩
  obtain ⟨before, value, rest, hvalues, -, hvalue, huntouched⟩ :=
    update_refused_untouched_iff hrun
  rw [ne_eq, huntouched]
  intro hnone
  cases before with
  | nil =>
    cases hvalues
    rw [hs] at hvalue
    cases hvalue
  | cons first others =>
    obtain ⟨rfl, -⟩ := List.cons_eq_cons.1 hvalues
    have hfirst := hnone _ List.mem_cons_self
    rw [hs] at hfirst
    cases hfirst

end Repository

end RecordStore
