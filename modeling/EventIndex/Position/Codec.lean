import EventIndex.Position
import EventIndex.Json.Record

/-!
# Positions in JSON

A contract is its address, a hash is its digits, and a position is a record of its three parts.
-/

namespace EventIndex

open Json

def ContractId.codec : Codec ContractId :=
  Codec.string.map ContractId.mk ContractId.address

def TxHash.codec : Codec TxHash :=
  Codec.parsed "a hex encoded string" (fun s => (TxHash.ofText s).mapError .hash) TxHash.text

def Position.form : RecordForm where
  name := "Position"
  strict := false
  fields := [Codec.word32.field "ledger", TxHash.codec.field "tx_hash",
    Codec.word32.field "event_index"]

def Position.codec : Codec Position :=
  Position.form.codec (fun (ledger, txHash, eventIndex, ()) => ⟨ledger, txHash, eventIndex⟩)
    fun p => (p.ledger, p.txHash, p.eventIndex, ())

end EventIndex
