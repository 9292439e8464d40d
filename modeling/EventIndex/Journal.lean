/-!
# Journal lines

What the indexer tells about its work while it runs.
-/

namespace EventIndex

inductive Level where
  | info
  | warn
  | error
deriving DecidableEq, Repr

def Level.name : Level → String
  | info => "INFO"
  | warn => "WARN"
  | error => "ERROR"

/-- Who writes a line: the command as a whole, or the indexer within it. -/
inductive Scope where
  | command
  | indexer
deriving DecidableEq, Repr

/-- A line of the journal, with the names and values that make it precise. -/
structure Line where
  scope : Scope
  level : Level
  message : String
  fields : List (String × String)
deriving DecidableEq, Repr

namespace Line

def info (message : String) (fields : List (String × String)) : Line :=
  ⟨.indexer, .info, message, fields⟩

def warn (message : String) (fields : List (String × String)) : Line :=
  ⟨.indexer, .warn, message, fields⟩

def error (message : String) (fields : List (String × String)) : Line :=
  ⟨.indexer, .error, message, fields⟩

def command (level : Level) (message : String) : Line :=
  ⟨.command, level, message, []⟩

def text (l : Line) : String :=
  l.fields.foldl (fun s (name, value) => s!"{s} {name}={value}") s!"{l.level.name} {l.message}"

end Line

end EventIndex
