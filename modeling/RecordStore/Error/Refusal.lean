import RecordStore.Json.Printer

/-!
# Refusals

A refusal says why a statement is not built, so that nothing reaches the store.
-/

namespace RecordStore

/-- The writes that have to be filtered. -/
inductive FilteredWrite where
  | update
  | delete
deriving DecidableEq

/-- The word for a write. -/
def FilteredWrite.word : FilteredWrite → String
  | .update => "update"
  | .delete => "delete"

/-- Why a statement is not built. -/
inductive Refusal where
  /-- No filter says which rows to write. -/
  | unfiltered (write : FilteredWrite)
  /-- A row to write is not a JSON object. -/
  | notAnObject (value : Json)
  /-- No column is left to write. -/
  | noColumns
  /-- A value cannot be read as a row of the model. What the reader of the model says is wrong with
  it is not kept, so the text of this refusal ends where the reader's own text would follow. -/
  | unreadable
deriving DecidableEq

/-- The text of a refusal. -/
def Refusal.message : Refusal → String
  | .unfiltered write => "WHERE conditions required for " ++ write.word
  | .notAnObject value => "Expected a JSON object or array of objects, got " ++ value.text
  | .noColumns => "Nothing to write: no columns left after select/omit"
  | .unreadable => "JSON serialization error"

end RecordStore
