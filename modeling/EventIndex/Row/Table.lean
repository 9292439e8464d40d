import EventIndex.Row.Basic
import Std.Data.ExtTreeMap

/-!
# Tables

The rows of each kind of entity form a table by their numbers, and the frozen entities one by
entity. What holds of a table holds of all kinds alike.
-/

namespace EventIndex

namespace EntityKind

def Row : EntityKind → Type
  | trade => Trade
  | proposal => Proposal
  | reward => Reward
  | grant => Grant

/-- The number of the entity that a row belongs to. -/
def rowId : (k : EntityKind) → k.Row → UInt64
  | trade, r => Trade.tradeId r
  | proposal, r => Proposal.proposalId r
  | reward, r => Reward.rewardId r
  | grant, r => Grant.grantId r

end EntityKind

abbrev Table (k : EntityKind) := Std.ExtTreeMap UInt64 k.Row

/-- The state that is derived from the events of a contract. -/
structure Tables where
  trades : Table .trade
  proposals : Table .proposal
  rewards : Table .reward
  grants : Table .grant
  quarantined : Std.ExtTreeMap Entity Quarantine

namespace Tables

def empty : Tables :=
  ⟨∅, ∅, ∅, ∅, ∅⟩

instance : EmptyCollection Tables := ⟨empty⟩

def table (t : Tables) : (k : EntityKind) → Table k
  | .trade => t.trades
  | .proposal => t.proposals
  | .reward => t.rewards
  | .grant => t.grants

def row? (t : Tables) (k : EntityKind) (id : UInt64) : Option k.Row :=
  (t.table k)[id]?

/-- Stores a row under its own number. -/
def insert (t : Tables) : (k : EntityKind) → k.Row → Tables
  | .trade, r => { t with trades := t.trades.insert (Trade.tradeId r) r }
  | .proposal, r => { t with proposals := t.proposals.insert (Proposal.proposalId r) r }
  | .reward, r => { t with rewards := t.rewards.insert (Reward.rewardId r) r }
  | .grant, r => { t with grants := t.grants.insert (Grant.grantId r) r }

def quarantine? (t : Tables) (e : Entity) : Option Quarantine :=
  t.quarantined[e]?

/-- Freezes an entity, whatever is known of it. -/
def freeze (t : Tables) (q : Quarantine) : Tables :=
  { t with quarantined := t.quarantined.insert q.entity q }

/-- Puts the rows of `new` over those of `old`. -/
def overlay (old new : Tables) : Tables where
  trades := old.trades.insertMany new.trades.toList
  proposals := old.proposals.insertMany new.proposals.toList
  rewards := old.rewards.insertMany new.rewards.toList
  grants := old.grants.insertMany new.grants.toList
  quarantined := old.quarantined.insertMany new.quarantined.toList

def snapshot (t : Tables) : Snapshot where
  trades := t.trades.values
  proposals := t.proposals.values
  rewards := t.rewards.values
  grants := t.grants.values
  quarantined := t.quarantined.values

end Tables

end EventIndex
