import RecordStore.Config.Basic
import RecordStore.Error.Repository

/-!
# Units of work

A context is what one unit of work holds: the configuration and an identifier that ties the log
events of the unit together. Reporting an error makes one event, at error level for a failure of
the database and at debug level for a missing record.
-/

namespace RecordStore

/-- The level of a log event. -/
inductive LogLevel where
  | error
  | debug
deriving DecidableEq

/-- The name of a level. -/
def LogLevel.name : LogLevel → String
  | .error => "ERROR"
  | .debug => "DEBUG"

/-- What is logged about an error. -/
structure LogEvent where
  level : LogLevel
  message : String
  requestId : String
  code : String
  error : String
deriving DecidableEq

/-- What a unit of work holds. -/
structure Context where
  config : StoreConfig
  requestId : String
deriving DecidableEq

namespace Context

/-- The text of a 128-bit number as an identifier: hexadecimal digits in groups of 8, 4, 4, 4
and 12. -/
def identifier (number : Nat) : String :=
  let digits := Nat.toDigits 16 (number % Nat.pow 2 128)
  let padded := List.replicate (32 - digits.length) '0' ++ digits
  let part (start size : Nat) : String := String.ofList ((padded.drop start).take size)
  String.intercalate "-" [part 0 8, part 8 4, part 12 4, part 16 4, part 20 12]

/-- A context of a configuration, with an identifier drawn as a number. -/
def ofConfig (config : StoreConfig) (number : Nat) : Context := ⟨config, identifier number⟩

/-- A context for another unit of work under the same configuration. -/
def session (ctx : Context) (number : Nat) : Context := ofConfig ctx.config number

/-- The context with an identifier of the caller. -/
def withRequestId (ctx : Context) (requestId : String) : Context := { ctx with requestId }

/-- The level and the message of the event for an error of a kind. -/
def eventHeading : ErrorKind → LogLevel × String
  | .database => (.error, "repository operation failed")
  | .notFound => (.debug, "record not found")

/-- The event that reports an error. -/
def event (ctx : Context) (e : RepositoryError) : LogEvent :=
  { level := (eventHeading e.kind).1
    message := (eventHeading e.kind).2
    requestId := ctx.requestId
    code := e.kind.code
    error := e.cause.message }

end Context

end RecordStore
