import RecordStore.Context.Basic
import RecordStore.Json.Fields
import RecordStore.Json.Record
import RecordStore.Sql.Placeholder
import RecordStore.Store.Argument

/-!
# Sessions with a store

A session holds the replies that the store will give, in order, and records what was executed and
what was logged. Executing a statement takes the next reply; a store without further replies
answers with an error. An action is a computation in a session that may fail.
-/

namespace RecordStore

/-- A row of the store: values by column. -/
abbrev Row := Fields

/-- What the store answers to one statement. -/
inductive Reply where
  | rows (rows : List Row)
  | affected (count : Nat)
  | error (message : String)

/-- A statement as the store received it. -/
structure Executed where
  sql : String
  args : List Argument
deriving DecidableEq

/-- A statement with its placeholders numbered and its arguments bound. -/
def Executed.ofStatement (s : Statement) : Executed :=
  ⟨s.toPostgres, s.args.map Argument.ofJson⟩

/-- The replies to come, and what has been executed and logged, the earliest first. -/
structure Session where
  replies : List Reply
  executed : List Executed := []
  events : List LogEvent := []

namespace Session

/-- The session after a statement has been executed: its reply is used up. -/
def afterExecuting (session : Session) (s : Statement) : Session :=
  { session with
    replies := session.replies.tail
    executed := session.executed ++ [Executed.ofStatement s] }

/-- The session after an event has been logged. -/
def afterLogging (session : Session) (event : LogEvent) : Session :=
  { session with events := session.events ++ [event] }

end Session

/-- A computation in a session that fails with an error or gives a value. -/
abbrev Action (ε α : Type) : Type := ExceptT ε (StateM Session) α

namespace Action

/-- The outcome of an action and the session after it. -/
def runIn {ε α : Type} (action : Action ε α) (session : Session) : Except ε α × Session :=
  (action.run).run session

/-- The action that does nothing and has a given outcome. -/
def ofExcept {ε α : Type} : Except ε α → Action ε α
  | .ok x => pure x
  | .error e => throw e

section

variable {ε α β : Type}

@[simp] theorem runIn_pure (x : α) (session : Session) :
    (pure x : Action ε α).runIn session = (.ok x, session) := rfl

/-- The second action runs in the session that the first one leaves, unless the first one fails. -/
theorem runIn_bind (action : Action ε α) (next : α → Action ε β) (session : Session) :
    (action >>= next).runIn session =
      match action.runIn session with
      | (.ok x, later) => (next x).runIn later
      | (.error e, later) => (.error e, later) := by
  simp only [runIn, ExceptT.run, StateT.run, bind, ExceptT.bind, ExceptT.mk, StateT.bind,
    ExceptT.bindCont]
  cases h : action session with
  | mk outcome later => cases outcome <;> rfl

/-- An outcome that is given leaves the session as it is. -/
@[simp] theorem runIn_ofExcept (outcome : Except ε α) (session : Session) :
    (ofExcept outcome).runIn session = (outcome, session) := by
  cases outcome <;> rfl

end

end Action

/-- How one row is read as a value. -/
abbrev RowReader (α : Type) : Type := Row → Except StoreError α

namespace Store

/-- The reply of a store that has no replies left. -/
def exhausted : Reply := .error "script exhausted"

/-- Executes a statement and takes the store's next reply. -/
def send (s : Statement) : Action StoreError Reply := do
  let session ← get
  set (session.afterExecuting s)
  return session.replies.headD exhausted

/-- Executing a statement never fails by itself: an error is a reply like others. -/
@[simp] theorem runIn_send (s : Statement) (session : Session) :
    (send s).runIn session = (.ok (session.replies.headD exhausted), session.afterExecuting s) :=
  rfl

/-- The rows that a statement gives. -/
def fetchRows (s : Statement) : Action StoreError (List Row) := do
  match ← send s with
  | .rows rows => return rows
  | .affected _ => return []
  | .error message => throw (.database message)

/-- All rows that a statement gives. -/
def fetchAll {α : Type} (read : RowReader α) (s : Statement) : Action StoreError (List α) := do
  let rows ← fetchRows s
  .ofExcept (rows.mapM read)

/-- The first row that a statement gives, if there is one. -/
def fetchOptional {α : Type} (read : RowReader α) (s : Statement) :
    Action StoreError (Option α) := do
  match ← fetchRows s with
  | [] => return none
  | row :: _ => return some (← .ofExcept (read row))

/-- The first row that a statement gives; it is a failure that there is none. -/
def fetchOne {α : Type} (read : RowReader α) (s : Statement) : Action StoreError α := do
  match ← fetchOptional read s with
  | some x => return x
  | none => throw .rowNotFound

/-- The number of rows that a statement affects. -/
def execute (s : Statement) : Action StoreError Nat := do
  match ← send s with
  | .rows rows => return rows.length
  | .affected count => return count
  | .error message => throw (.database message)

end Store

namespace Row

/-- The value of a row's first column, read in a given way. -/
def first {α : Type} (read : Json → Option α) : RowReader α := fun row ↦
  match row.entries with
  | [] => .error (.columnNotFound "0")
  | (name, value) :: _ =>
    match read value with
    | some x => .ok x
    | none => .error (.columnNotFound name)

/-- The 64-bit integer of a row's first column. -/
def int64 : RowReader Int64 := first Json.int64?

/-- The text of a row's first column. -/
def text : RowReader String := first Json.string?

end Row

/-- The number that a counting statement gives. -/
def Store.count (s : Statement) : Action StoreError Int64 := Store.fetchOne Row.int64 s

namespace Context

/-- Fails with an error and logs it. -/
def fail {α : Type} (ctx : Context) (e : RepositoryError) : Action RepositoryError α := do
  modify fun session ↦ session.afterLogging (ctx.event e)
  throw e

/-- A failure logs one event and changes nothing else. -/
@[simp] theorem runIn_fail {α : Type} (ctx : Context) (e : RepositoryError) (session : Session) :
    (ctx.fail e : Action RepositoryError α).runIn session =
      (.error e, session.afterLogging (ctx.event e)) :=
  rfl

/-- An action of the store in which a failure becomes an error that is logged. -/
def report {α : Type} (ctx : Context) (wrap : StoreError → RepositoryError)
    (action : Action StoreError α) : Action RepositoryError α :=
  .mk do
    match ← action.run with
    | .ok x => return .ok x
    | .error e => (ctx.fail (wrap e)).run

/-- A reported action runs as it does alone, and then a failure is wrapped and logged. -/
theorem runIn_report {α : Type} (ctx : Context) (wrap : StoreError → RepositoryError)
    (action : Action StoreError α) (session : Session) :
    (ctx.report wrap action).runIn session =
      match action.runIn session with
      | (.ok x, later) => (.ok x, later)
      | (.error e, later) => (.error (wrap e), later.afterLogging (ctx.event (wrap e))) := by
  simp only [Action.runIn, report, ExceptT.run, ExceptT.mk, StateT.run, bind, StateT.bind]
  cases h : action session with
  | mk outcome later => cases outcome <;> rfl

/-- An action of the store in which every failure is one of the database. -/
def database {α : Type} (ctx : Context) (action : Action StoreError α) :
    Action RepositoryError α :=
  ctx.report .ofStore action

/-- An action of the store that looks up one row, which may be missing. -/
def lookup {α : Type} (ctx : Context) (action : Action StoreError α) : Action RepositoryError α :=
  ctx.report .ofLookup action

/-- The value of something that may be refused; a refusal is an error that is logged. -/
def require {α : Type} (ctx : Context) : Except Refusal α → Action RepositoryError α
  | .ok x => pure x
  | .error r => ctx.fail ⟨.database, .refusal r⟩

end Context

end RecordStore
