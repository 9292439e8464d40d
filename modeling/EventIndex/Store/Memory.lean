import EventIndex.Store.Basic

/-!
# The store in memory

A transaction gathers its writes and reads through to what has been committed for all that it has
not written. The commit puts the writes over the committed data.
-/

namespace EventIndex

/-- What has been committed for a contract. -/
structure Partition where
  tables : Tables
  log : Std.ExtTreeMap Position LogEntry
  checkpoint : Option Checkpoint

namespace Partition

def empty : Partition :=
  ⟨∅, ∅, none⟩

instance : EmptyCollection Partition := ⟨empty⟩

/-- The log in the order of positions. -/
def entries (p : Partition) : List LogEntry :=
  p.log.values

def query (p : Partition) : (q : Query) → q.Answer
  | .checkpoint => p.checkpoint
  | .entries => p.entries
  | .row k id => p.tables.row? k id
  | .snapshot => p.tables.snapshot

end Partition

/-- What an open transaction has written. -/
structure WriteSet where
  contract : ContractId
  /-- Whether the committed rows are hidden. -/
  cleared : Bool
  tables : Tables
  log : Std.ExtTreeMap Position LogEntry
  /-- The checkpoint, if it was written or removed. -/
  checkpoint : Option (Option Checkpoint)

namespace WriteSet

def start (contract : ContractId) : WriteSet :=
  ⟨contract, false, ∅, ∅, none⟩

/-- The committed tables, unless they are hidden. -/
def beneath (w : WriteSet) (p : Partition) : Tables :=
  if w.cleared then ∅ else p.tables

def entry? (w : WriteSet) (p : Partition) (position : Position) : Option LogEntry :=
  w.log[position]? <|> p.log[position]?

def row? (w : WriteSet) (p : Partition) (k : EntityKind) (id : UInt64) : Option k.Row :=
  w.tables.row? k id <|> (w.beneath p).row? k id

def quarantine? (w : WriteSet) (p : Partition) (e : Entity) : Option Quarantine :=
  w.tables.quarantine? e <|> (w.beneath p).quarantine? e

def request (w : WriteSet) (p : Partition) :
    (r : Request) → Except StorageError r.Answer × WriteSet
  | .checkpoint => (.ok (w.checkpoint.getD p.checkpoint), w)
  | .saveCheckpoint c => (.ok (), { w with checkpoint := some (some c) })
  | .clear => (.ok (), { w with cleared := true, tables := ∅, checkpoint := some none })
  | .entry position => (.ok (w.entry? p position), w)
  | .append x =>
    if (w.entry? p x.position).isSome then (.error (.positionTaken x.position), w)
    else (.ok (), { w with log := w.log.insert x.position x })
  | .entries => (.ok (p.log.insertMany w.log.toList).values, w)
  | .row k id => (.ok (w.row? p k id), w)
  | .saveRow k row => (.ok (), { w with tables := w.tables.insert k row })
  | .quarantine e => (.ok (w.quarantine? p e), w)
  | .saveQuarantine q =>
    if (w.quarantine? p q.entity).isSome then (.ok (), w)
    else (.ok (), { w with tables := w.tables.freeze q })

/-- The committed data with the writes put over it. -/
def mergeInto (w : WriteSet) (p : Partition) : Partition where
  tables := (w.beneath p).overlay w.tables
  log := p.log.insertMany w.log.toList
  checkpoint := w.checkpoint.getD p.checkpoint

end WriteSet

/-- The committed data of all contracts, and how many commits are to fail. -/
structure MemoryStore where
  partitions : Std.ExtTreeMap ContractId Partition
  commitFailures : Nat

namespace MemoryStore

def empty : MemoryStore :=
  ⟨∅, 0⟩

/-- The committed data of a contract; a contract without any has empty tables. -/
def partition (s : MemoryStore) (contract : ContractId) : Partition :=
  s.partitions.getD contract ∅

/-- The contracts that have committed, in order. -/
def contracts (s : MemoryStore) : List ContractId :=
  s.partitions.keys

def failCommits (s : MemoryStore) (count : Nat) : MemoryStore :=
  { s with commitFailures := count }

def commit (w : WriteSet) (s : MemoryStore) : Except StorageError Unit × MemoryStore :=
  match s.commitFailures with
  | n + 1 => (.error .commitRefused, { s with commitFailures := n })
  | 0 =>
    let partition := w.mergeInto (s.partition w.contract)
    (.ok (), { s with partitions := s.partitions.insert w.contract partition })

instance : Store MemoryStore where
  Tx := WriteSet
  start contract s := (.ok (.start contract), s)
  request r w s :=
    let (answer, w) := w.request (s.partition w.contract) r
    (answer, w, s)
  commit := commit
  abandon _ s := s
  query contract q s := (.ok ((s.partition contract).query q), s)

end MemoryStore

end EventIndex
