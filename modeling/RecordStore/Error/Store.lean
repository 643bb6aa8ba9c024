/-!
# Failures of the store

What can go wrong with a statement that has been sent, and the text of each failure.
-/

namespace RecordStore

/-- A failure that the store reports. -/
inductive StoreError where
  /-- A statement that has to give a row gave none. -/
  | rowNotFound
  /-- No connection came free in time. -/
  | poolTimedOut
  /-- The pool gives out no more connections. -/
  | poolClosed
  /-- A row has no usable column of this name. -/
  | columnNotFound (name : String)
  /-- Something is not set up for the request. -/
  | configuration (message : String)
  /-- The data received make no sense. -/
  | protocol (message : String)
  /-- The database refused the statement. -/
  | database (message : String)
deriving DecidableEq

/-- The text of a failure. -/
def StoreError.message : StoreError → String
  | .rowNotFound => "no rows returned by a query that expected to return at least one row"
  | .poolTimedOut => "pool timed out while waiting for an open connection"
  | .poolClosed => "attempted to acquire a connection on a closed pool"
  | .columnNotFound name => "no column found for name: " ++ name
  | .configuration message => "error with configuration: " ++ message
  | .protocol message => "encountered unexpected or invalid data: " ++ message
  | .database message => "error returned from database: " ++ message

end RecordStore
