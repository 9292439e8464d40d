import EventIndex.Batch.Process
import EventIndex.Row.Codec
import EventIndex.Source
import EventIndex.Store.Memory

/-!
# Replay

The rows of a contract are a function of its log: its entries, replayed in the order of their
positions into an empty store, give the same rows again.
-/

namespace EventIndex

namespace Batch

variable {S : Signature} {α : Type}

/-- Answers requests from memory, and leaves the journal and the clock to the surrounding program.
-/
def memoryHandler (p : Partition) : Handler Request.signature (StateT WriteSet (Program S)) where
  answer r := fun w => pure (w.request p r)
  note line := fun w => do
    Program.write line
    pure ((), w)
  now := fun w => do return (← Program.clock, w)
  pause ms := fun w => do
    Program.wait ms
    pure ((), w)

/-- Does a batch in memory and gives its result with the committed data, unless it fails. -/
def runInMemory (b : Batch α) (contract : ContractId) (p : Partition) :
    Program S (Except IndexerError (α × Partition)) := do
  let (result, w) ← (Program.run (memoryHandler p) b.run).run (.start contract)
  return result.map fun a => (a, w.mergeInto p)

end Batch

namespace Replay

variable {S : Signature}

def snapshot (contract : ContractId) (entries : List LogEntry) :
    Program S (Except IndexerError Snapshot) := do
  let events := MemorySource.sortEvents (entries.map LogEntry.toRaw)
  let result ← (Batch.process contract events).runInMemory contract ∅
  return result.map fun (_, p) => p.tables.snapshot

/-- Whether a snapshot is what the entries give, by the texts of the two. -/
def agrees (contract : ContractId) (replayed current : Snapshot) : Program S Bool := do
  let same := replayed.canonicalText = current.canonicalText
  if !same then
    Program.write (.warn "derived rows diverge from the indexed-event log"
      [("contract", contract.address)])
  pure same

end Replay

end EventIndex
