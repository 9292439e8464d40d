import EventIndex.Sql.Record
import EventIndex.Store.Request

/-!
# Requests as statements

The statements that a request or a query is made of, and how the answer is read from the rows that
each of them brings.
-/

namespace EventIndex

open Sql

namespace Sql

/-- Selects what a contract has in a relation. -/
def Relation.ofContract (r : Relation) (contract : ContractId) (order : List String) : Statement :=
  r.select [("contract_id", .contract contract)] order

def selectCheckpoint (contract : ContractId) : Statement :=
  Checkpoint.relation.ofContract contract []

def selectEntries (contract : ContractId) : Statement :=
  LogEntry.relation.ofContract contract ["position"]

def selectRow (contract : ContractId) (k : EntityKind) (id : UInt64) : Statement :=
  k.relation.select [("contract_id", .contract contract), (k.idColumn, .word64 id)] []

/-- All that is derived from the log. -/
def derivedRelations : List Relation :=
  [Trade.relation, Proposal.relation, Reward.relation, Grant.relation, Quarantine.relation,
    Checkpoint.relation]

abbrev Brought := List Row

/-- The record of the first row, if there is a row. -/
def Brought.first {α : Type} (ofRow : Row → Except RowError α) (rows : Brought) :
    Except RowError (Option α) :=
  rows.head?.mapM ofRow

def Brought.all {α : Type} (ofRow : Row → Except RowError α) (rows : Brought) :
    Except RowError (List α) :=
  rows.mapM ofRow

/-- The rows of one statement among several. -/
def broughtBy (results : List Brought) (index : Nat) : Brought :=
  results.getD index []

end Sql

namespace Request

def statements (contract : ContractId) : Request → List Statement
  | checkpoint => [selectCheckpoint contract]
  | saveCheckpoint c => [Checkpoint.relation.insert c.values]
  | clear => derivedRelations.map (·.delete contract)
  | entry p =>
    [LogEntry.relation.select [("contract_id", .contract contract), ("position", .position p)] []]
  | append x => [LogEntry.relation.insert x.values]
  | entries => [selectEntries contract]
  | row k id => [selectRow contract k id]
  | saveRow k r => [k.relation.insert (k.values r)]
  | quarantine e =>
    [Quarantine.relation.select [("contract_id", .contract contract),
      ("entity_kind", .text e.kind.name), ("entity_id", .word64 e.id)] []]
  | saveQuarantine q => [Quarantine.relation.insert q.values]

def readAnswer (contract : ContractId) (results : List Brought) :
    (r : Request) → Except RowError r.Answer
  | checkpoint => (broughtBy results 0).first (Checkpoint.ofRow contract)
  | entry _ => (broughtBy results 0).first LogEntry.ofRow
  | entries => (broughtBy results 0).all LogEntry.ofRow
  | row k _ => (broughtBy results 0).first k.ofRow
  | quarantine _ => (broughtBy results 0).first Quarantine.ofRow
  | saveCheckpoint _ | clear | append _ | saveRow .. | saveQuarantine _ => .ok ()

end Request

namespace Query

def statements (contract : ContractId) : Query → List Statement
  | checkpoint => [selectCheckpoint contract]
  | entries => [selectEntries contract]
  | row k id => [selectRow contract k id]
  | snapshot =>
    EntityKind.all.map (fun k => k.relation.ofContract contract [k.idColumn]) ++
      [Quarantine.relation.ofContract contract ["entity_kind", "entity_id"]]

/-- Frozen entities in the order of entities, whatever the order of their rows. -/
def sortQuarantined (qs : List Quarantine) : List Quarantine :=
  qs.mergeSort fun a b => (compare a.entity b.entity).isLE

def readAnswer (contract : ContractId) (results : List Brought) :
    (q : Query) → Except RowError q.Answer
  | checkpoint => (broughtBy results 0).first (Checkpoint.ofRow contract)
  | entries => (broughtBy results 0).all LogEntry.ofRow
  | row k _ => (broughtBy results 0).first k.ofRow
  | snapshot => do
    let quarantined ← (broughtBy results 4).all Quarantine.ofRow
    return {
      trades := ← (broughtBy results 0).all Trade.ofRow
      proposals := ← (broughtBy results 1).all Proposal.ofRow
      rewards := ← (broughtBy results 2).all Reward.ofRow
      grants := ← (broughtBy results 3).all Grant.ofRow
      quarantined := sortQuarantined quarantined }

end Query

end EventIndex
