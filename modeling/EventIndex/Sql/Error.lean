import EventIndex.Store.Error

/-!
# Database errors

What goes wrong between the store and the database. After a broken connection, a time out, a failed
serialization or a deadlock the transaction may be tried again.
-/

namespace EventIndex.Sql

inductive Error where
  | poolTimedOut
  | poolClosed
  | workerCrashed
  | rowNotFound
  | communication (reason : String)
  | protocol (reason : String)
  | columnNotFound (name : String)
  /-- The database refuses a statement, with a code of five characters if it gives one. -/
  | refused (code : Option String) (reason : String)
  | configuration (reason : String)
deriving DecidableEq, Repr

namespace Error

def message : Error → String
  | poolTimedOut => "pool timed out while waiting for an open connection"
  | poolClosed => "attempted to acquire a connection on a closed pool"
  | workerCrashed => "attempted to communicate with a crashed background worker"
  | rowNotFound => "no rows returned by a query that expected to return at least one row"
  | communication reason => s!"error communicating with database: {reason}"
  | protocol reason => s!"encountered unexpected or invalid data: {reason}"
  | columnNotFound name => s!"no column found for name: {name}"
  | refused _ reason => s!"error returned from database: {reason}"
  | configuration reason => s!"error with configuration: {reason}"

/-- The codes of a failed serialization and of a deadlock. -/
def retriableCodes : List String :=
  ["40001", "40P01"]

def isTransient : Error → Bool
  | poolTimedOut | communication _ => true
  | refused (some code) _ => retriableCodes.contains code
  | _ => false

def toStorage (e : Error) : StorageError :=
  if e.isTransient then .transient e.message else .permanent e.message

/-- The database has closed the connection instead of answering. -/
def hungUp : Error :=
  .communication "expected to read 5 bytes, got 0 bytes at EOF"

def breaksConnection : Error → Bool
  | communication _ => true
  | _ => false

end Error

end EventIndex.Sql
