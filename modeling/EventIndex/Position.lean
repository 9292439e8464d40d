import EventIndex.Hex

/-!
# Contracts and positions

A position names one event in the stream of a contract: the ledger, the hash of the transaction in
it, and the index of the event in the transaction. Positions are ordered by these three in turn.
The key of a position is 40 bytes long, and keys are ordered byte by byte as their positions are.
-/

namespace EventIndex

structure ContractId where
  address : String
deriving DecidableEq, Repr

namespace ContractId

instance : Ord ContractId := ⟨compareOn address⟩

instance : Std.TransOrd ContractId :=
  inferInstanceAs (Std.TransCmp (compareOn address))

instance : Std.LawfulEqOrd ContractId where
  eq_of_compare {a b} h := by
    cases a; cases b
    exact congrArg mk (Std.LawfulEqOrd.eq_of_compare h)

end ContractId

/-- The hash of a transaction, 32 bytes. -/
structure TxHash where
  bytes : List UInt8
  length_eq : bytes.length = 32
deriving DecidableEq

namespace TxHash

instance : Ord TxHash := ⟨compareOn bytes⟩

instance : Std.TransOrd TxHash :=
  inferInstanceAs (Std.TransCmp (compareOn bytes))

instance : Std.LawfulEqOrd TxHash where
  eq_of_compare {a b} h := by
    have h' : compare a.bytes b.bytes = .eq := h
    cases a; cases b
    simpa using h'

/-- The hash written in lower case digits. -/
def text (h : TxHash) : String :=
  Hex.encode h.bytes

def ofText (s : String) : Except Hex.Error TxHash :=
  match h : Hex.decode 32 s with
  | .ok bytes => .ok ⟨bytes, Hex.length_of_decode h⟩
  | .error e => .error e

def replicate (b : UInt8) : TxHash :=
  ⟨List.replicate 32 b, by simp⟩

end TxHash

/-- Where an event stands in the stream of its contract. -/
structure Position where
  ledger : UInt32
  txHash : TxHash
  eventIndex : UInt32
deriving DecidableEq

/-- A stored hash or key has the wrong number of bytes. -/
inductive KeyError where
  | wrongLength (length : Nat)
deriving DecidableEq, Repr

def KeyError.message : KeyError → String
  | wrongLength n => s!"invalid position key length: {n}"

def TxHash.ofBytes (bytes : List UInt8) : Except KeyError TxHash :=
  if h : bytes.length = 32 then .ok ⟨bytes, h⟩ else .error (.wrongLength bytes.length)

/-- The four bytes of a word, the highest first. -/
def bigEndian (n : UInt32) : List UInt8 :=
  [0x1000000, 0x10000, 0x100, 1].map fun weight => UInt8.ofNat (n.toNat / weight)

/-- The word with these bytes, the highest first. -/
def ofBigEndian (bytes : List UInt8) : UInt32 :=
  UInt32.ofNat (bytes.foldl (fun n b => n * 256 + b.toNat) 0)

namespace Position

instance : Ord Position :=
  ⟨compareLex (compareOn ledger) (compareLex (compareOn txHash) (compareOn eventIndex))⟩

instance : Std.TransOrd Position :=
  inferInstanceAs (Std.TransCmp
    (compareLex (compareOn ledger) (compareLex (compareOn txHash) (compareOn eventIndex))))

instance : Std.LawfulEqOrd Position where
  eq_of_compare {a b} h := by
    change ((compare a.ledger b.ledger).then ((compare a.txHash b.txHash).then
      (compare a.eventIndex b.eventIndex))) = .eq at h
    simp only [Ordering.then_eq_eq, Std.LawfulEqCmp.compare_eq_iff_eq] at h
    cases a; cases b
    simp_all

instance : LT Position := ltOfOrd
instance : LE Position := leOfOrd
instance : DecidableLT Position := inferInstanceAs (DecidableRel fun a b => compare a b = .lt)
instance : DecidableLE Position :=
  inferInstanceAs (DecidableRel fun a b => (compare a b).isLE = true)
instance : Max Position := maxOfLe

def keyLength : Nat := 40

/-- The bytes of the position, in an order that sorts as positions do. -/
def key (p : Position) : List UInt8 :=
  bigEndian p.ledger ++ p.txHash.bytes ++ bigEndian p.eventIndex

def ofKey (bytes : List UInt8) : Except KeyError Position :=
  if h : bytes.length = keyLength then
    .ok {
      ledger := ofBigEndian (bytes.take 4)
      txHash := ⟨(bytes.drop 4).take 32, by simp [h, keyLength]⟩
      eventIndex := ofBigEndian (bytes.drop 36) }
  else .error (.wrongLength bytes.length)

def text (p : Position) : String :=
  s!"{p.ledger.toNat}:{p.txHash.text}:{p.eventIndex.toNat}"

end Position

end EventIndex
