import RecordStore.Error.Outcome
import RecordStore.Store.Session

/-!
# What a run leaves behind

A statement that is executed uses up one reply of the store, so a session after a run is told by the
statements that the run sent and the events that it logged, and the replies that are used up are the
answers to those statements, one for each.
-/

namespace RecordStore

namespace Reply

/-- Whether a reply reports a failure. -/
def isError : Reply → Bool
  | .error _ => true
  | _ => false

/-- The rows of a reply; a count of affected rows comes with none. -/
def toRows : Reply → Except StoreError (List Row)
  | .rows found => .ok found
  | .affected _ => .ok []
  | .error message => .error (.database message)

/-- The number of rows that a reply tells of. -/
def toCount : Reply → Except StoreError Nat
  | .rows found => .ok found.length
  | .affected count => .ok count
  | .error message => .error (.database message)

/-- All rows of a reply, each read in a given way. -/
def decodeAll {α : Type} (read : RowReader α) (reply : Reply) : Except StoreError (List α) :=
  reply.toRows >>= List.mapM read

/-- The first row of a reply, if it has one. -/
def decodeOptional {α : Type} (read : RowReader α) (reply : Reply) :
    Except StoreError (Option α) :=
  match reply.toRows with
  | .ok [] => .ok none
  | .ok (row :: _) => (read row).map some
  | .error e => .error e

/-- The first row of a reply, which has to have one. -/
def decodeOne {α : Type} (read : RowReader α) (reply : Reply) : Except StoreError α :=
  match reply.toRows with
  | .ok [] => .error .rowNotFound
  | .ok (row :: _) => read row
  | .error e => .error e

/-- The rows of a reply are read when it has rows and each of them can be read. -/
theorem decodeAll_eq_ok_iff {α : Type} {read : RowReader α} (reply : Reply) (xs : List α) :
    reply.decodeAll read = .ok xs ↔
      ∃ found, reply.toRows = .ok found ∧ found.mapM read = .ok xs := by
  rw [decodeAll]
  cases reply.toRows with
  | error e =>
    refine iff_of_false nofun ?_
    rintro ⟨found, hfound, -⟩
    cases hfound
  | ok found =>
    constructor
    · intro h
      exact ⟨found, rfl, h⟩
    · rintro ⟨_, ⟨⟩, h⟩
      exact h

end Reply

namespace Session

/-- The store's answer to the statement after the next `n` ones. -/
def answer (session : Session) (n : Nat) : Reply := session.replies.getD n Store.exhausted

/-- The store's answers to the next `n` statements. -/
def answers (session : Session) (n : Nat) : List Reply := (List.range n).map session.answer

/-- The session after statements have been executed and events have been logged. -/
def after (session : Session) (sent : List Statement) (logged : List LogEvent) : Session :=
  { replies := session.replies.drop sent.length
    executed := session.executed ++ sent.map Executed.ofStatement
    events := session.events ++ logged }

variable (session : Session)

@[simp] theorem after_nil : session.after [] [] = session := by
  simp [after]

theorem afterExecuting_eq (s : Statement) : session.afterExecuting s = session.after [s] [] := by
  simp [after, afterExecuting]

theorem afterLogging_eq (event : LogEvent) :
    session.afterLogging event = session.after [] [event] := by
  simp [after, afterLogging]

/-- One run after another is one run. -/
@[simp] theorem after_after (sent later : List Statement) (logged further : List LogEvent) :
    (session.after sent logged).after later further =
      session.after (sent ++ later) (logged ++ further) := by
  simp [after, List.drop_drop]

@[simp] theorem answer_after (sent : List Statement) (logged : List LogEvent) (n : Nat) :
    (session.after sent logged).answer n = session.answer (sent.length + n) := by
  simp [after, answer, List.getD_eq_getElem?_getD]

/-- A session tells how many statements a run has sent. -/
theorem length_eq_of_after_eq {session : Session} {sent others : List Statement}
    {logged events : List LogEvent} (h : session.after sent logged = session.after others events) :
    sent.length = others.length := by
  have hexecuted := congrArg (fun later ↦ later.executed.length) h
  simpa [after] using hexecuted

variable {session} {reply : Reply} {rest : List Reply}

/-- The next statement is answered with the first reply. -/
theorem answer_zero (h : session.replies = reply :: rest) : session.answer 0 = reply := by
  rw [answer, h]
  rfl

/-- A statement uses up the first reply. -/
theorem replies_after_singleton (h : session.replies = reply :: rest) (s : Statement)
    (logged : List LogEvent) : (session.after [s] logged).replies = rest := by
  rw [after, h]
  rfl

variable (session)

/-- The answers to two runs are those to the first, then those to the second in the session that
the first one leaves. -/
theorem answers_add (sent later : List Statement) (logged : List LogEvent) :
    session.answers (sent ++ later).length =
      session.answers sent.length ++ (session.after sent logged).answers later.length := by
  have hanswer : (session.after sent logged).answer = fun n ↦ session.answer (sent.length + n) :=
    funext (session.answer_after sent logged)
  rw [answers, answers, answers, hanswer, List.length_append, List.range_add, List.map_append,
    List.map_map]
  rfl

end Session

/-! ### How actions one after another end -/

/-- Actions one after another succeed when the second one does after the first one did. -/
theorem Action.exists_of_runIn_bind {ε α β : Type} {action : Action ε α} {next : α → Action ε β}
    {session later : Session} {y : β}
    (h : (action >>= next).runIn session = (.ok y, later)) :
    ∃ x middle, action.runIn session = (.ok x, middle) ∧
      (next x).runIn middle = (.ok y, later) := by
  rw [runIn_bind] at h
  cases hrun : action.runIn session with
  | mk outcome middle =>
    rw [hrun] at h
    cases outcome with
    | error e => cases h
    | ok x => exact ⟨x, middle, rfl, h⟩

/-- Actions one after another fail when the first one does, or when the second one does after the
first one succeeded. -/
theorem Action.of_runIn_bind_eq_error {ε α β : Type} {action : Action ε α} {next : α → Action ε β}
    {session later : Session} {e : ε} (h : (action >>= next).runIn session = (.error e, later)) :
    action.runIn session = (.error e, later) ∨
      ∃ x middle, action.runIn session = (.ok x, middle) ∧
        (next x).runIn middle = (.error e, later) := by
  rw [runIn_bind] at h
  cases hrun : action.runIn session with
  | mk outcome middle =>
    rw [hrun] at h
    cases outcome with
    | error other =>
      cases h
      exact .inl rfl
    | ok x => exact .inr ⟨x, middle, rfl, h⟩

/-- What is not refused is there, and nothing is executed for it. -/
theorem Context.eq_of_runIn_require {α : Type} {ctx : Context} {outcome : Except Refusal α}
    {session later : Session} {x : α}
    (h : (ctx.require outcome).runIn session = (.ok x, later)) :
    outcome = .ok x ∧ later = session := by
  cases outcome with
  | error refusal => cases h
  | ok y =>
    cases h
    exact ⟨rfl, rfl⟩

/-! ### Actions that send one statement -/

/-- An action that sends one statement and reads the answer in a given way. -/
def Action.Asks {ε α : Type} (s : Statement) (decode : Reply → Except ε α) (action : Action ε α) :
    Prop :=
  ∀ session : Session, action.runIn session = (decode (session.answer 0), session.after [s] [])

namespace Store

variable {α : Type} (s : Statement)

private theorem headD_eq_answer (session : Session) :
    session.replies.headD exhausted = session.answer 0 := by
  rw [Session.answer, List.headD_eq_head?_getD, List.head?_eq_getElem?, List.getD_eq_getElem?_getD]

theorem asks_send : (send s).Asks s .ok := by
  intro session
  rw [runIn_send, headD_eq_answer, Session.afterExecuting_eq]

theorem asks_fetchRows : (fetchRows s).Asks s Reply.toRows := by
  intro session
  rw [fetchRows, Action.runIn_bind, asks_send s session]
  cases session.answer 0 <;> rfl

theorem asks_execute : (execute s).Asks s Reply.toCount := by
  intro session
  rw [execute, Action.runIn_bind, asks_send s session]
  cases session.answer 0 <;> rfl

theorem asks_fetchAll (read : RowReader α) : (fetchAll read s).Asks s (Reply.decodeAll read) := by
  intro session
  rw [fetchAll, Action.runIn_bind, asks_fetchRows s session, Reply.decodeAll]
  cases (session.answer 0).toRows with
  | error e => rfl
  | ok rows => exact Action.runIn_ofExcept _ _

theorem asks_fetchOptional (read : RowReader α) :
    (fetchOptional read s).Asks s (Reply.decodeOptional read) := by
  intro session
  rw [fetchOptional, Action.runIn_bind, asks_fetchRows s session, Reply.decodeOptional]
  cases (session.answer 0).toRows with
  | error e => rfl
  | ok rows =>
    cases rows with
    | nil => rfl
    | cons row rest =>
      simp only [Action.runIn_bind, Action.runIn_ofExcept]
      cases read row <;> rfl

theorem asks_fetchOne (read : RowReader α) : (fetchOne read s).Asks s (Reply.decodeOne read) := by
  intro session
  rw [fetchOne, Action.runIn_bind, asks_fetchOptional s read session, Reply.decodeOptional,
    Reply.decodeOne]
  cases (session.answer 0).toRows with
  | error e => rfl
  | ok rows =>
    cases rows with
    | nil => rfl
    | cons row rest =>
      dsimp only
      cases read row <;> rfl

end Store

/-! ### Ends of runs -/

/-- The error that a refusal is reported as. -/
def RepositoryError.refused (refusal : Refusal) : RepositoryError := ⟨.database, .refusal refusal⟩

namespace Context

variable {α β : Type}

/-- How a run ends that has executed some statements: a failure logs one event. -/
def ended (ctx : Context) (session : Session) (sent : List Statement) :
    Except RepositoryError α → Except RepositoryError α × Session
  | .ok x => (.ok x, session.after sent [])
  | .error e => (.error e, session.after sent [ctx.event e])

variable {ctx : Context} {session : Session} {sent : List Statement}

/-- One run after another ends as one run. -/
theorem ended_after (ctx : Context) (session : Session) (sent later : List Statement)
    (outcome : Except RepositoryError α) :
    ctx.ended (session.after sent []) later outcome =
      ctx.ended session (sent ++ later) outcome := by
  cases outcome <;> simp [ended]

/-- What follows a run that gave a value goes on in the session that the run leaves. -/
theorem runIn_bind_ok {action : Action RepositoryError α} {x : α}
    (h : action.runIn session = ctx.ended session sent (.ok x))
    (next : α → Action RepositoryError β) :
    (action >>= next).runIn session = (next x).runIn (session.after sent []) := by
  rw [Action.runIn_bind, h]
  rfl

/-- Nothing follows a run that failed. -/
theorem runIn_bind_error {action : Action RepositoryError α} {e : RepositoryError}
    (h : action.runIn session = ctx.ended session sent (.error e))
    (next : α → Action RepositoryError β) :
    (action >>= next).runIn session = ctx.ended session sent (.error e) := by
  rw [Action.runIn_bind, h]
  rfl

/-- What is made of the value of a run does not change how the run ends. -/
theorem runIn_bind_pure {action : Action RepositoryError α} {outcome : Except RepositoryError α}
    (h : action.runIn session = ctx.ended session sent outcome) (f : α → β) :
    (action >>= fun x ↦ pure (f x)).runIn session = ctx.ended session sent (outcome.map f) := by
  cases outcome with
  | ok x => exact runIn_bind_ok h _
  | error e => exact runIn_bind_error h _

/-- What is refused ends a run that has executed nothing. -/
theorem runIn_require_eq (outcome : Except Refusal α) :
    (ctx.require outcome).runIn session =
      ctx.ended session [] (outcome.mapError RepositoryError.refused) := by
  cases outcome with
  | ok x =>
    change (Except.ok x, session) = (Except.ok x, session.after [] [])
    rw [Session.after_nil]
  | error refusal =>
    rw [require, runIn_fail, Session.afterLogging_eq]
    rfl

/-- A reported run of the store ends as it does alone, and its failure is wrapped. -/
theorem runIn_report_eq (wrap : StoreError → RepositoryError) {action : Action StoreError α}
    {outcome : Except StoreError α}
    (h : action.runIn session = (outcome, session.after sent [])) :
    (ctx.report wrap action).runIn session =
      ctx.ended session sent (outcome.mapError wrap) := by
  rw [runIn_report, h]
  cases outcome with
  | ok x => rfl
  | error e => simp [Session.afterLogging_eq, Except.mapError, ended]

/-- A run of the store ends as it does alone, and its failure is one of the database. -/
theorem runIn_database {action : Action StoreError α} {outcome : Except StoreError α}
    (h : action.runIn session = (outcome, session.after sent [])) :
    (ctx.database action).runIn session =
      ctx.ended session sent (outcome.mapError RepositoryError.ofStore) :=
  runIn_report_eq .ofStore h

/-- An action that sends one statement ends as its answer is read. -/
theorem runIn_database_eq {s : Statement} {decode : Reply → Except StoreError α}
    {action : Action StoreError α} (h : action.Asks s decode) :
    (ctx.database action).runIn session =
      ctx.ended session [s] ((decode (session.answer 0)).mapError RepositoryError.ofStore) :=
  runIn_database (h session)

end Context

end RecordStore
