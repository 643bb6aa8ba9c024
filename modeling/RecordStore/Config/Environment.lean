import RecordStore.Config.Basic
import RecordStore.Integer.Text
import RecordStore.Text.Blank

/-!
# Configuration from an environment

A configuration is read from named variables, a blank one counting as absent. The address is a
variable of its own or is put together from host, port, user, password and name as they stand. The
first check that fails is the one reported.

A process reads its own environment after a loader has set variables from a file. The loader is a
parameter: all that is asked of it is that a variable which is set already keeps its value.
-/

namespace RecordStore

/-- The value of each variable that is set. -/
abbrev Environment := String → Option String

/-- Why an environment gives no configuration. -/
inductive ConfigError where
  /-- A variable that is needed is absent. -/
  | missing (key : String)
  /-- A variable holds no number of its range. -/
  | invalid (key value : String)
deriving DecidableEq

/-- The text of an error. -/
def ConfigError.message : ConfigError → String
  | .missing key => "Missing configuration: " ++ key
  | .invalid key value => "Invalid value for " ++ key ++ ": " ++ value

namespace Environment

/-- The value of a variable that is not blank. -/
def present? (env : Environment) (key : String) : Option String :=
  (env key).filter fun value ↦ !isBlankText value

/-- The user and the password as they stand in front of the host. -/
def credentials (env : Environment) : String :=
  match env.present? "APP_DB_USER", env.present? "APP_DB_PASSWORD" with
  | some user, some password => user ++ ":" ++ password ++ "@"
  | some user, none => user ++ "@"
  | none, _ => ""

/-- The address that host, name and the other parts make up. -/
def composedUrl (env : Environment) : Except ConfigError String :=
  match env.present? "APP_DB_HOST" with
  | none => .error (.missing "APP_DB_DSN or APP_DB_HOST")
  | some host =>
    match env.present? "APP_DB_NAME" with
    | none => .error (.missing "APP_DB_NAME")
    | some name =>
      let port := (env.present? "APP_DB_PORT").getD "5432"
      .ok ("postgres://" ++ env.credentials ++ host ++ ":" ++ port ++ "/" ++ name)

/-- The address of the database. -/
def databaseUrl (env : Environment) : Except ConfigError String :=
  match env.present? "APP_DB_DSN" with
  | some url => .ok url
  | none => env.composedUrl

/-- The number of a variable, or another one when the variable is absent. Blanks around the number
are ignored; an error shows the value with them. -/
def numberOr {α : Type} (env : Environment) (read : List Char → Option α) (key : String)
    (absent : α) : Except ConfigError α :=
  match env.present? key with
  | none => .ok absent
  | some value =>
    match read (trimChars value.toList) with
    | some n => .ok n
    | none => .error (.invalid key value)

/-- The configuration of an environment. -/
def config (env : Environment) : Except ConfigError StoreConfig := do
  let settings : ConfigSettings := { databaseUrl := ← env.databaseUrl }
  let maxConnections ←
    env.numberOr readUInt32 "APP_DB_MAX_CONNECTIONS" settings.maxConnections
  let pageLimitDefault ←
    env.numberOr readInt64 "APP_PAGE_LIMIT_DEFAULT" settings.pageLimitDefault
  let pageLimitMax ← env.numberOr readInt64 "APP_PAGE_LIMIT_MAX" settings.pageLimitMax
  return { settings with maxConnections, pageLimitDefault, pageLimitMax }.build

/-- An environment in which every variable of another one is set as it is there. -/
def Extends (later env : Environment) : Prop :=
  ∀ {key value : String}, env key = some value → later key = some value

/-- The configuration of an environment that a loader has added to. A loader that fails is no
failure: what it has set until then counts. -/
def configAfter (load : Environment → Environment) (env : Environment) :
    Except ConfigError StoreConfig :=
  (load env).config

end Environment

end RecordStore
