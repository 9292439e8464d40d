import EventIndex.Store.Request

/-!
# Stores

A store keeps the log, the rows and the checkpoint of each contract. All that is written in a
transaction is committed together or not at all.
-/

namespace EventIndex

/-- A store with the state `σ`. A transaction is over the data of one contract. -/
class Store (σ : Type) where
  Tx : Type
  /-- Opens a transaction. -/
  start : ContractId → σ → Except StorageError Tx × σ
  request : (r : Request) → Tx → σ → Except StorageError r.Answer × Tx × σ
  /-- Ends the transaction and keeps what it wrote. -/
  commit : Tx → σ → Except StorageError Unit × σ
  /-- Ends the transaction and forgets what it wrote. -/
  abandon : Tx → σ → σ
  /-- Reads what has been committed. -/
  query : ContractId → (q : Query) → σ → Except StorageError q.Answer × σ

end EventIndex
