import EventIndex.Position

/-!
# Storage errors

Why a store did not do what it was asked. After a transient error the whole transaction may be tried
again.
-/

namespace EventIndex

inductive StorageError where
  /-- The log has an entry at the position where one was to be appended. -/
  | positionTaken (p : Position)
  /-- The store was told to let a commit fail. -/
  | commitRefused
  | transient (reason : String)
  | permanent (reason : String)
deriving DecidableEq

namespace StorageError

def isTransient : StorageError → Bool
  | commitRefused | transient _ => true
  | positionTaken _ | permanent _ => false

def reason : StorageError → String
  | positionTaken p => s!"indexed event already exists at {p.text}"
  | commitRefused => "injected commit failure"
  | transient reason | permanent reason => reason

def message (e : StorageError) : String :=
  if e.isTransient then s!"transient storage error: {e.reason}" else s!"storage error: {e.reason}"

end StorageError

end EventIndex
