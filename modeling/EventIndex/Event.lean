import EventIndex.Json.Codec
import EventIndex.Position.Codec
import EventIndex.Time.Text

/-!
# Events and log entries

An event as the ledger delivers it, and the entry of the log that records it together with what was
made of its payload. An entry is never changed.
-/

namespace EventIndex

open Json

/-- An event as it was delivered. -/
structure RawEvent where
  contract : ContractId
  topic : String
  payload : Json
  ledger : UInt32
  ledgerClosedAt : Timestamp
  txHash : TxHash
  eventIndex : UInt32
deriving DecidableEq

structure LogEntry where
  contract : ContractId
  topic : String
  position : Position
  ledgerClosedAt : Timestamp
  rawPayload : Json
  /-- The typed payload, if the topic is known and the payload was decoded. -/
  decodedPayload : Option Json
  /-- Why the payload was not decoded. -/
  decodeError : Option String
  createdAt : Timestamp
deriving DecidableEq

namespace RawEvent

def position (e : RawEvent) : Position :=
  ⟨e.ledger, e.txHash, e.eventIndex⟩

def form : RecordForm where
  name := "RawEvent"
  strict := false
  fields := [ContractId.codec.field "contract_id", Codec.string.field "topic",
    Codec.json.field "payload", Codec.word32.field "ledger",
    Codec.timestamp.field "ledger_closed_at", TxHash.codec.field "tx_hash",
    Codec.word32.field "event_index"]

def codec : Codec RawEvent :=
  form.codec
    (fun (contract, topic, payload, ledger, closedAt, txHash, eventIndex, ()) =>
      ⟨contract, topic, payload, ledger, closedAt, txHash, eventIndex⟩)
    fun e => (e.contract, e.topic, e.payload, e.ledger, e.ledgerClosedAt, e.txHash, e.eventIndex,
      ())

end RawEvent

namespace LogEntry

/-- The entry for an event that was seen at the time `now`. -/
def observed (e : RawEvent) (decodedPayload : Option Json) (decodeError : Option String)
    (now : Timestamp) : LogEntry where
  contract := e.contract
  topic := e.topic
  position := e.position
  ledgerClosedAt := e.ledgerClosedAt
  rawPayload := e.payload
  decodedPayload := decodedPayload
  decodeError := decodeError
  createdAt := now

/-- The event that the entry records. -/
def toRaw (x : LogEntry) : RawEvent where
  contract := x.contract
  topic := x.topic
  payload := x.rawPayload
  ledger := x.position.ledger
  ledgerClosedAt := x.ledgerClosedAt
  txHash := x.position.txHash
  eventIndex := x.position.eventIndex

def records (x : LogEntry) (e : RawEvent) : Bool :=
  x.toRaw = e

/-- Whether two entries record the same event, whatever was made of it and whenever. -/
def sameEvent (x y : LogEntry) : Bool :=
  x.toRaw = y.toRaw

def form : RecordForm where
  name := "IndexedEvent"
  strict := false
  fields := [ContractId.codec.field "contract_id", Codec.string.field "topic",
    Position.codec.field "position", Codec.timestamp.field "ledger_closed_at",
    Codec.json.field "raw_payload", Codec.json.optionalField "decoded_payload",
    Codec.string.optionalField "decode_error", Codec.timestamp.field "created_at"]

def codec : Codec LogEntry :=
  form.codec
    (fun (contract, topic, position, closedAt, raw, decoded, error, createdAt, ()) =>
      ⟨contract, topic, position, closedAt, raw, decoded, error, createdAt⟩)
    fun x => (x.contract, x.topic, x.position, x.ledgerClosedAt, x.rawPayload, x.decodedPayload,
      x.decodeError, x.createdAt, ())

theorem toRaw_observed (e : RawEvent) (d : Option Json) (r : Option String) (now : Timestamp) :
    (observed e d r now).toRaw = e := rfl

theorem records_iff {x : LogEntry} {e : RawEvent} : x.records e ↔ x.toRaw = e := by
  simp [records]

theorem sameEvent_iff {x y : LogEntry} : x.sameEvent y ↔ x.toRaw = y.toRaw := by
  simp [sameEvent]

end LogEntry

/-- Names an event in messages, so that it is found in the log. -/
structure EventContext where
  contract : ContractId
  position : Position
  topic : String
deriving DecidableEq

namespace EventContext

def of (e : RawEvent) : EventContext :=
  ⟨e.contract, e.position, e.topic⟩

def text (c : EventContext) : String :=
  s!"{c.topic} at {c.contract.address}/{c.position.text}"

end EventContext

end EventIndex
