import EventIndex.Checkpoint
import EventIndex.Event
import EventIndex.Row.Table
import EventIndex.Sql.Statement

/-!
# Records in the database

The relations in which the log, the rows and the checkpoint of a contract are kept. A word of 64
bits is kept as a number, a position as its key. What a record is written as is read back as the
record.
-/

namespace EventIndex

open Sql

namespace Sql.Value

def word64 (n : UInt64) : Value :=
  numeric (.ofNat n.toNat)

def word32 (n : UInt32) : Value :=
  bigint n.toNat

def amount (a : Amount) : Value :=
  text a.text

def position (p : Position) : Value :=
  bytes p.key

def contract (c : ContractId) : Value :=
  text c.address

end Sql.Value

namespace Checkpoint

def relation : Relation where
  name := "checkpoints"
  columns := [⟨"contract_id", .text⟩, ⟨"position", .bytes⟩, ⟨"events_applied", .numeric⟩,
    ⟨"updated_at", .instant⟩]
  keySize := 1
  onConflict := .replace
  looseColumns := false
  looseValues := false

def values (c : Checkpoint) : List Value :=
  [.contract c.contract, .position c.position, .word64 c.eventsApplied, .instant c.updatedAt]

/-- The checkpoint of the contract that was asked for, whatever contract the row names. -/
def ofRow (contract : ContractId) (r : Sql.Row) : Except RowError Checkpoint := do
  return {
    contract := contract
    position := ← r.position "position"
    eventsApplied := ← r.word64 "events_applied"
    updatedAt := ← r.instant "updated_at" }

end Checkpoint

namespace LogEntry

def relation : Relation where
  name := "indexed_events"
  columns := [⟨"contract_id", .text⟩, ⟨"position", .bytes⟩, ⟨"topic", .text⟩, ⟨"ledger", .bigint⟩,
    ⟨"ledger_closed_at", .instant⟩, ⟨"raw_payload", .json⟩, ⟨"decoded_payload", .json⟩,
    ⟨"decode_error", .text⟩, ⟨"created_at", .instant⟩]
  keySize := 2
  onConflict := .refuse
  looseColumns := true
  looseValues := false

/-- The ledger of the position has a column of its own. -/
def values (x : LogEntry) : List Value :=
  [.contract x.contract, .position x.position, .text x.topic, .word32 x.position.ledger,
    .instant x.ledgerClosedAt, .json x.rawPayload, .optional .json x.decodedPayload,
    .optional .text x.decodeError, .instant x.createdAt]

def ofRow (r : Sql.Row) : Except RowError LogEntry := do
  let ledgerClosedAt ← r.instant "ledger_closed_at"
  let rawPayload ← r.json "raw_payload"
  return {
    contract := ⟨← r.text "contract_id"⟩
    topic := ← r.text "topic"
    position := ← r.position "position"
    ledgerClosedAt := ledgerClosedAt
    rawPayload := rawPayload
    decodedPayload := ← Row.optional Row.json r "decoded_payload"
    decodeError := ← Row.optional Row.text r "decode_error"
    createdAt := ← r.instant "created_at" }

end LogEntry

namespace Trade

def relation : Relation where
  name := "trades"
  columns := [⟨"contract_id", .text⟩, ⟨"trade_id", .numeric⟩, ⟨"maker", .text⟩, ⟨"taker", .text⟩,
    ⟨"base_asset", .text⟩, ⟨"quote_asset", .text⟩, ⟨"base_amount", .amount⟩,
    ⟨"quote_amount", .amount⟩, ⟨"executed_at", .numeric⟩, ⟨"position", .bytes⟩]
  keySize := 2
  onConflict := .replace
  looseColumns := true
  looseValues := false

def values (t : Trade) : List Value :=
  [.contract t.contract, .word64 t.tradeId, .text t.maker, .text t.taker, .text t.baseAsset,
    .text t.quoteAsset, .amount t.baseAmount, .amount t.quoteAmount, .word64 t.executedAt,
    .position t.position]

def ofRow (r : Sql.Row) : Except RowError Trade := do
  return {
    contract := ⟨← r.text "contract_id"⟩
    tradeId := ← r.word64 "trade_id"
    maker := ← r.text "maker"
    taker := ← r.text "taker"
    baseAsset := ← r.text "base_asset"
    quoteAsset := ← r.text "quote_asset"
    baseAmount := ← r.amount "base_amount"
    quoteAmount := ← r.amount "quote_amount"
    executedAt := ← r.word64 "executed_at"
    position := ← r.position "position" }

end Trade

namespace Proposal

def relation : Relation where
  name := "proposals"
  columns := [⟨"contract_id", .text⟩, ⟨"proposal_id", .numeric⟩, ⟨"proposer", .text⟩,
    ⟨"title", .text⟩, ⟨"approval_threshold", .bigint⟩, ⟨"current_approvals", .bigint⟩,
    ⟨"status", .text⟩, ⟨"created_at", .numeric⟩, ⟨"closed_at", .numeric⟩,
    ⟨"created_position", .bytes⟩, ⟨"last_position", .bytes⟩]
  keySize := 2
  onConflict := .replace
  looseColumns := true
  looseValues := false

def values (p : Proposal) : List Value :=
  [.contract p.contract, .word64 p.proposalId, .text p.proposer, .text p.title,
    .word32 p.approvalThreshold, .word32 p.currentApprovals, .text p.status.name,
    .word64 p.createdAt, .optional .word64 p.closedAt, .position p.createdPosition,
    .position p.lastPosition]

def ofRow (r : Sql.Row) : Except RowError Proposal := do
  let status ← r.text "status"
  return {
    contract := ⟨← r.text "contract_id"⟩
    proposalId := ← r.word64 "proposal_id"
    proposer := ← r.text "proposer"
    title := ← r.text "title"
    approvalThreshold := ← r.word32 "approval_threshold"
    currentApprovals := ← r.word32 "current_approvals"
    status := ← (ProposalStatus.ofName? status).elim (.error (.invalid "status" status)) .ok
    createdAt := ← r.word64 "created_at"
    closedAt := ← Row.optional Row.word64 r "closed_at"
    createdPosition := ← r.position "created_position"
    lastPosition := ← r.position "last_position" }

end Proposal

namespace Reward

def relation : Relation where
  name := "rewards"
  columns := [⟨"contract_id", .text⟩, ⟨"reward_id", .numeric⟩, ⟨"recipient", .text⟩,
    ⟨"amount", .amount⟩, ⟨"reason", .text⟩, ⟨"added_at", .numeric⟩, ⟨"claimed", .boolean⟩,
    ⟨"claimed_amount", .amount⟩, ⟨"claimed_at", .numeric⟩, ⟨"created_position", .bytes⟩,
    ⟨"claim_position", .bytes⟩]
  keySize := 2
  onConflict := .replace
  looseColumns := true
  looseValues := true

def values (w : Reward) : List Value :=
  [.contract w.contract, .word64 w.rewardId, .text w.recipient, .amount w.amount, .text w.reason,
    .word64 w.addedAt, .boolean w.claimed, .optional .amount w.claimedAmount,
    .optional .word64 w.claimedAt, .position w.createdPosition,
    .optional .position w.claimPosition]

def ofRow (r : Sql.Row) : Except RowError Reward := do
  return {
    contract := ⟨← r.text "contract_id"⟩
    rewardId := ← r.word64 "reward_id"
    recipient := ← r.text "recipient"
    amount := ← r.amount "amount"
    reason := ← r.text "reason"
    addedAt := ← r.word64 "added_at"
    claimed := ← r.boolean "claimed"
    claimedAmount := ← Row.optional Row.amount r "claimed_amount"
    claimedAt := ← Row.optional Row.word64 r "claimed_at"
    createdPosition := ← r.position "created_position"
    claimPosition := ← Row.optional Row.position r "claim_position" }

end Reward

namespace Grant

def relation : Relation where
  name := "grants"
  columns := [⟨"contract_id", .text⟩, ⟨"grant_id", .numeric⟩, ⟨"beneficiary", .text⟩,
    ⟨"amount", .amount⟩, ⟨"start_time", .numeric⟩, ⟨"cliff_seconds", .numeric⟩,
    ⟨"duration_seconds", .numeric⟩, ⟨"granted_at", .numeric⟩, ⟨"total_claimed", .amount⟩,
    ⟨"claim_count", .bigint⟩, ⟨"status", .text⟩, ⟨"revoked_at", .numeric⟩,
    ⟨"unvested_amount", .amount⟩, ⟨"created_position", .bytes⟩, ⟨"last_position", .bytes⟩]
  keySize := 2
  onConflict := .replace
  looseColumns := true
  looseValues := true

def values (g : Grant) : List Value :=
  [.contract g.contract, .word64 g.grantId, .text g.beneficiary, .amount g.amount,
    .word64 g.startTime, .word64 g.cliffSeconds, .word64 g.durationSeconds, .word64 g.grantedAt,
    .amount g.totalClaimed, .word32 g.claimCount, .text g.status.name,
    .optional .word64 g.revokedAt, .optional .amount g.unvestedAmount, .position g.createdPosition,
    .position g.lastPosition]

def ofRow (r : Sql.Row) : Except RowError Grant := do
  let status ← r.text "status"
  return {
    contract := ⟨← r.text "contract_id"⟩
    grantId := ← r.word64 "grant_id"
    beneficiary := ← r.text "beneficiary"
    amount := ← r.amount "amount"
    startTime := ← r.word64 "start_time"
    cliffSeconds := ← r.word64 "cliff_seconds"
    durationSeconds := ← r.word64 "duration_seconds"
    grantedAt := ← r.word64 "granted_at"
    totalClaimed := ← r.amount "total_claimed"
    claimCount := ← r.word32 "claim_count"
    status := ← (GrantStatus.ofName? status).elim (.error (.invalid "status" status)) .ok
    revokedAt := ← Row.optional Row.word64 r "revoked_at"
    unvestedAmount := ← Row.optional Row.amount r "unvested_amount"
    createdPosition := ← r.position "created_position"
    lastPosition := ← r.position "last_position" }

end Grant

namespace Quarantine

def relation : Relation where
  name := "quarantined_entities"
  columns := [⟨"contract_id", .text⟩, ⟨"entity_kind", .text⟩, ⟨"entity_id", .numeric⟩,
    ⟨"position", .bytes⟩, ⟨"reason", .text⟩]
  keySize := 3
  onConflict := .keep
  looseColumns := false
  looseValues := false

def values (q : Quarantine) : List Value :=
  [.contract q.contract, .text q.entity.kind.name, .word64 q.entity.id, .position q.position,
    .text q.reason]

def ofRow (r : Sql.Row) : Except RowError Quarantine := do
  let kind ← r.text "entity_kind"
  return {
    contract := ⟨← r.text "contract_id"⟩
    entity := {
      kind := ← (EntityKind.ofName? kind).elim (.error (.invalid "entity_kind" kind)) .ok
      id := ← r.word64 "entity_id" }
    position := ← r.position "position"
    reason := ← r.text "reason" }

end Quarantine

namespace EntityKind

/-- Where the rows of a kind of entity are kept. -/
def relation : EntityKind → Relation
  | trade => Trade.relation
  | proposal => Proposal.relation
  | reward => Reward.relation
  | grant => Grant.relation

def idColumn (k : EntityKind) : String :=
  s!"{k.name}_id"

def values : (k : EntityKind) → k.Row → List Value
  | trade, r => Trade.values r
  | proposal, r => Proposal.values r
  | reward, r => Reward.values r
  | grant, r => Grant.values r

def ofRow : (k : EntityKind) → Sql.Row → Except RowError k.Row
  | trade, r => Trade.ofRow r
  | proposal, r => Proposal.ofRow r
  | reward, r => Reward.ofRow r
  | grant, r => Grant.ofRow r

end EntityKind

end EventIndex
