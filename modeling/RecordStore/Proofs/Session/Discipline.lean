import RecordStore.Proofs.Session.Answers

/-!
# Disciplined actions

A discipline says which statements an action may send, with which errors it may fail and what it
logs about each of them. An action that keeps one stops at the first answer that is an error: it
fails then, and sends nothing further. Disciplines are kept by actions one after another, so an
operation keeps the one that its parts keep.
-/

namespace RecordStore

/-- What an action may send, how it may fail and what it logs when it does. -/
structure Discipline (ε : Type) where
  sends : Statement → Prop
  fails : ε → Prop
  logs : ε → List LogEvent

namespace Discipline

variable {ε α β : Type}

/-- What is logged about an outcome; a success is not logged. -/
def logged (d : Discipline ε) : Except ε α → List LogEvent
  | .ok _ => []
  | .error e => d.logs e

/-- A run, from a session to an outcome and a later session, that sends the given statements and
keeps a discipline. -/
structure Kept (d : Discipline ε) (session : Session) (run : Except ε α × Session)
    (sent : List Statement) : Prop where
  sends : ∀ s ∈ sent, d.sends s
  fails : ∀ e, run.1 = .error e → d.fails e
  later : run.2 = session.after sent (d.logged run.1)
  /-- No answer but the last one is an error. -/
  stops : ∀ reply ∈ (session.answers sent.length).dropLast, reply.isError = false
  /-- After a success no answer is an error. -/
  answered : ∀ x, run.1 = .ok x → ∀ reply ∈ session.answers sent.length, reply.isError = false

variable {d : Discipline ε} {session later : Session} {sent further : List Statement}

namespace Kept

/-- Doing nothing keeps every discipline. -/
theorem nil (x : α) : d.Kept session (.ok x, session) [] where
  sends := List.forall_mem_nil _
  fails := by
    intro e h
    cases h
  later := by simp [logged]
  stops := List.forall_mem_nil _
  answered := fun _ _ ↦ List.forall_mem_nil _

/-- A failure without a statement keeps a discipline that allows it. -/
theorem failed {e : ε} (h : d.fails e) :
    d.Kept (α := α) session (.error e, session.after [] (d.logs e)) [] where
  sends := List.forall_mem_nil _
  fails := by
    rintro _ ⟨⟩
    exact h
  later := rfl
  stops := List.forall_mem_nil _
  answered := fun _ _ ↦ List.forall_mem_nil _

/-- A failed run keeps the discipline whatever it was to give. -/
theorem of_error {e : ε} (h : d.Kept (α := α) session (.error e, later) sent) :
    d.Kept (α := β) session (.error e, later) sent where
  sends := h.sends
  fails := by
    rintro _ ⟨⟩
    exact h.fails e rfl
  later := h.later
  stops := h.stops
  answered := by
    intro x hx
    cases hx

/-- A run that follows a successful one and keeps the same discipline. -/
theorem append {x : α} {run : Except ε β × Session} (h : d.Kept session (.ok x, later) sent)
    (hfurther : d.Kept later run further) : d.Kept session run (sent ++ further) := by
  have hlater : later = session.after sent [] := h.later
  have hanswers := session.answers_add sent further []
  rw [← hlater] at hanswers
  have hfirst := h.answered x rfl
  refine ⟨?_, hfurther.fails, ?_, ?_, ?_⟩
  · rw [List.forall_mem_append]
    exact ⟨h.sends, hfurther.sends⟩
  · rw [hfurther.later, hlater, Session.after_after, List.nil_append]
  · intro reply hreply
    rw [hanswers, List.dropLast_append] at hreply
    split at hreply
    · exact hfirst reply ((List.dropLast_sublist _).subset hreply)
    · rcases List.mem_append.1 hreply with hreply | hreply
      · exact hfirst reply hreply
      · exact hfurther.stops reply hreply
  · intro y hy
    rw [hanswers, List.forall_mem_append]
    exact ⟨hfirst, hfurther.answered y hy⟩

end Kept

/-- The discipline of the store's own actions, which log nothing. -/
def ofStore (sends : Statement → Prop) : Discipline StoreError := ⟨sends, fun _ ↦ True, fun _ ↦ []⟩

/-- The discipline of an operation whose failures are all of the database: each is logged once. -/
def ofContext (ctx : Context) (sends : Statement → Prop) : Discipline RepositoryError :=
  ⟨sends, fun e ↦ e.kind = .database, fun e ↦ [ctx.event e]⟩

/-- The discipline of an operation that may find a record missing. -/
def ofLookup (ctx : Context) (sends : Statement → Prop) : Discipline RepositoryError :=
  ⟨sends, fun _ ↦ True, fun e ↦ [ctx.event e]⟩

end Discipline

/-- An action that keeps a discipline in every session. -/
def Action.Obeys {ε α : Type} (action : Action ε α) (d : Discipline ε) : Prop :=
  ∀ session, ∃ sent, d.Kept session (action.runIn session) sent

namespace Discipline.Kept

variable {ε α β : Type} {d : Discipline ε} {session later : Session} {sent further : List Statement}
  {sends : Statement → Prop} {ctx : Context}

/-- A run keeps a discipline that allows more. -/
theorem mono {wide : Discipline ε} {run : Except ε α × Session} (h : d.Kept session run sent)
    (hsends : ∀ s, d.sends s → wide.sends s) (hfails : ∀ e, d.fails e → wide.fails e)
    (hlogs : d.logs = wide.logs) : wide.Kept session run sent := by
  have hlogged : d.logged run.1 = wide.logged run.1 := by
    cases run.1 with
    | ok x => rfl
    | error e => exact congrFun hlogs e
  refine ⟨?_, ?_, ?_, h.stops, h.answered⟩
  · intro s hs
    exact hsends s (h.sends s hs)
  · intro e he
    exact hfails e (h.fails e he)
  · rw [← hlogged]
    exact h.later

/-- A run that sends one statement and fails when it is answered with an error. -/
theorem asks {s : Statement} {decode : Reply → Except StoreError α} {action : Action StoreError α}
    (h : action.Asks s decode) (hs : sends s)
    (herror : ∀ message, ∃ e, decode (.error message) = .error e) (session : Session) :
    (ofStore sends).Kept session (action.runIn session) [s] := by
  refine ⟨?_, fun _ _ ↦ trivial, ?_, List.forall_mem_nil _, ?_⟩
  · rw [List.forall_mem_singleton]
    exact hs
  · rw [h session]
    cases decode (session.answer 0) <;> rfl
  · intro x hx
    rw [h session] at hx
    change ∀ reply ∈ [session.answer 0], reply.isError = false
    rw [List.forall_mem_singleton]
    cases hanswer : session.answer 0 with
    | rows found => rfl
    | affected count => rfl
    | error message =>
      obtain ⟨e, he⟩ := herror message
      rw [hanswer, he] at hx
      cases hx

/-- A run of the store whose failure is reported. -/
theorem report {wrap : StoreError → RepositoryError} {action : Action StoreError α}
    {allowed : Discipline RepositoryError}
    (h : (ofStore sends).Kept session (action.runIn session) sent) (hsends : allowed.sends = sends)
    (hfails : ∀ e, allowed.fails (wrap e)) (hlogs : ∀ e, allowed.logs e = [ctx.event e]) :
    allowed.Kept session ((ctx.report wrap action).runIn session) sent := by
  rw [Context.runIn_report]
  cases hrun : action.runIn session with
  | mk outcome later =>
    rw [hrun] at h
    have hlater : later = session.after sent [] := by
      cases outcome <;> exact h.later
    cases outcome with
    | ok x =>
      refine ⟨?_, ?_, hlater, h.stops, fun _ _ ↦ h.answered x rfl⟩
      · rw [hsends]
        exact h.sends
      · intro e he
        cases he
    | error e =>
      refine ⟨?_, ?_, ?_, h.stops, ?_⟩
      · rw [hsends]
        exact h.sends
      · rintro _ ⟨⟩
        exact hfails e
      · change later.afterLogging (ctx.event (wrap e)) = session.after sent (allowed.logs (wrap e))
        rw [hlogs, hlater, Session.afterLogging_eq, Session.after_after, List.append_nil,
          List.nil_append]
      · intro x hx
        cases hx

end Discipline.Kept

namespace Action.Obeys

variable {ε α β : Type} {d : Discipline ε} {sends : Statement → Prop} {ctx : Context}

theorem pure (x : α) : (Pure.pure x : Action ε α).Obeys d := fun _ ↦ ⟨[], .nil x⟩

/-- Actions one after another keep a discipline that each of them keeps. -/
theorem bind {action : Action ε α} {next : α → Action ε β} (h : action.Obeys d)
    (hnext : ∀ x, (next x).Obeys d) : (action >>= next).Obeys d := by
  intro session
  obtain ⟨sent, hkept⟩ := h session
  rw [runIn_bind]
  cases hrun : action.runIn session with
  | mk outcome later =>
    rw [hrun] at hkept
    cases outcome with
    | error e => exact ⟨sent, hkept.of_error⟩
    | ok x =>
      obtain ⟨further, hfurther⟩ := hnext x later
      exact ⟨sent ++ further, hkept.append hfurther⟩

/-- A discipline may be widened in what it allows. -/
theorem mono {wide : Discipline ε} {action : Action ε α} (h : action.Obeys d)
    (hsends : ∀ s, d.sends s → wide.sends s) (hfails : ∀ e, d.fails e → wide.fails e)
    (hlogs : d.logs = wide.logs) : action.Obeys wide := by
  intro session
  obtain ⟨sent, hkept⟩ := h session
  exact ⟨sent, hkept.mono hsends hfails hlogs⟩

/-- An operation may be allowed more statements. -/
theorem widen {allowed : Statement → Prop} {action : Action RepositoryError α}
    (h : action.Obeys (.ofContext ctx sends)) (hsends : ∀ s, sends s → allowed s) :
    action.Obeys (.ofContext ctx allowed) :=
  h.mono hsends (fun _ he ↦ he) rfl

/-- An outcome that is given is no matter of the store. -/
theorem ofExcept (outcome : Except StoreError α) :
    (Action.ofExcept outcome).Obeys (.ofStore sends) := by
  intro session
  refine ⟨[], ?_⟩
  rw [runIn_ofExcept]
  cases outcome with
  | ok x => exact .nil x
  | error e =>
    have hfailed : (Discipline.ofStore sends).Kept (α := α) session
        (.error e, session.after [] []) [] := .failed trivial
    simpa using hfailed

/-- An action that sends one statement and fails when it is answered with an error. -/
theorem asks {s : Statement} {decode : Reply → Except StoreError α} {action : Action StoreError α}
    (h : action.Asks s decode) (hs : sends s)
    (herror : ∀ message, ∃ e, decode (.error message) = .error e) :
    action.Obeys (.ofStore sends) :=
  fun session ↦ ⟨[s], .asks h hs herror session⟩

/-- An action of the store in which every failure is one of the database. -/
theorem database {action : Action StoreError α} (h : action.Obeys (.ofStore sends)) :
    (ctx.database action).Obeys (.ofContext ctx sends) := by
  intro session
  obtain ⟨sent, hkept⟩ := h session
  exact ⟨sent, hkept.report rfl (fun _ ↦ rfl) (fun _ ↦ rfl)⟩

/-- A refusal is a failure of the database without a statement. -/
theorem refuse (refusal : Refusal) :
    (ctx.fail ⟨.database, .refusal refusal⟩ : Action RepositoryError α).Obeys
      (.ofContext ctx sends) := by
  intro session
  refine ⟨[], ?_⟩
  rw [Context.runIn_fail, Session.afterLogging_eq]
  exact .failed (d := .ofContext ctx sends) rfl

/-- What may be refused sends no statement. -/
theorem require (outcome : Except Refusal α) :
    (ctx.require outcome).Obeys (.ofContext ctx sends) := by
  cases outcome with
  | ok x => exact .pure x
  | error refusal => exact .refuse refusal

/-- What follows something that may be refused keeps the discipline when it does so for the value
that is there. -/
theorem require_bind {outcome : Except Refusal α} {next : α → Action RepositoryError β}
    (hnext : ∀ x, outcome = .ok x → (next x).Obeys (.ofContext ctx sends)) :
    (ctx.require outcome >>= next).Obeys (.ofContext ctx sends) := by
  cases outcome with
  | ok x => exact hnext x rfl
  | error refusal =>
    intro session
    refine ⟨[], ?_⟩
    rw [runIn_bind, Context.require, Context.runIn_fail, Session.afterLogging_eq]
    exact .failed (d := .ofContext ctx sends) rfl

end Action.Obeys

end RecordStore
