import EventIndex.Log
import EventIndex.Proofs.Position.Key
import EventIndex.Proofs.Sql.Snapshot

/-! # The log in the order of its keys

A row of the log holds the key of its position, and the database sorts rows by these bytes. Keys
stand in the order of their positions, and every key is read back, so the entries come out in the
order of their positions. -/

namespace EventIndex

open Sql

/-! ## Rows of the log -/

namespace LogEntry

/-- The bytes that a row of the log is sorted by. -/
def storedKey (row : Row) : List UInt8 :=
  match row.get "position" with
  | .bytes key => key
  | _ => []

theorem storedKey_of_carries {x : LogEntry} {row : Row} (h : relation.Carries x.values row) :
    storedKey row = x.position.key := by
  have hposition : ColumnType.bytes.Keeps (.position x.position) (row.get "position") :=
    h (⟨"position", .bytes⟩, .position x.position) (.tail _ (.head _))
  rw [storedKey]
  generalize row.get "position" = v at hposition
  cases hposition
  rfl

theorem exists_read_of_carries {xs : List LogEntry} {rows : List Row}
    (h : List.Forall₂ (fun x row => relation.Carries x.values row) xs rows) :
    ∃ read, Brought.all ofRow rows = .ok read ∧
      rows.map storedKey = read.map fun x => x.position.key := by
  refine ⟨_, Brought.all_of_forall₂
    (List.forall₂_map_left_iff.mpr (h.imp fun _ _ => ofRow_of_carries)), ?_⟩
  induction h with
  | nil => rfl
  | cons hx _ ih => rw [List.map_cons, ih, storedKey_of_carries hx]; rfl

end LogEntry

/-! ## The order -/

namespace Log

theorem mergeSort_key (entries : List LogEntry) :
    entries.mergeSort (fun x y => x.position.key ≤ y.position.key) = sort entries := by
  simp only [sort, Position.key_le_key_iff]

theorem pairwise_storedKey_iff {rows : List Row} {read : List LogEntry}
    (h : rows.map LogEntry.storedKey = read.map fun x => x.position.key) :
    rows.Pairwise (fun r s => LogEntry.storedKey r ≤ LogEntry.storedKey s) ↔
      read.Pairwise fun x y => x.position ≤ y.position := by
  rw [← List.pairwise_map (f := LogEntry.storedKey) (R := (· ≤ ·)), h, List.pairwise_map]
  simp only [Position.key_le_key_iff]

end Log

namespace Position

/-- Positions are ordered as their keys are, byte by byte, and just the byte strings of 40 bytes are
keys, each of one position. So entries that are sorted by the stored keys are sorted by their
positions. -/
theorem key_orderIso :
    (∀ p q : Position,
      (p < q ↔ p.ledger < q.ledger ∨ p.ledger = q.ledger ∧
        (p.txHash.bytes < q.txHash.bytes ∨ p.txHash.bytes = q.txHash.bytes ∧
          p.eventIndex < q.eventIndex)) ∧
      (p < q ↔ p.key < q.key) ∧ (p.key = q.key → p = q)) ∧
    (∀ p : Position, ofKey p.key = .ok p) ∧
    (∀ bytes : List UInt8,
      ((∃ p, ofKey bytes = .ok p) ↔ bytes.length = 40) ∧
      (∀ p, ofKey bytes = .ok p → p.key = bytes) ∧
      (bytes.length ≠ 40 → ofKey bytes = .error (.wrongLength bytes.length))) ∧
    (∀ entries : List LogEntry,
      entries.mergeSort (fun x y => x.position.key ≤ y.position.key) = Log.sort entries) ∧
    ∀ (entries : List LogEntry) (rows : List Row),
      List.Forall₂ (fun x row => LogEntry.relation.Carries x.values row) entries rows →
      ∃ read, Brought.all LogEntry.ofRow rows = .ok read ∧
        (rows.Pairwise (fun r s => LogEntry.storedKey r ≤ LogEntry.storedKey s) ↔
          read.Pairwise fun x y => x.position ≤ y.position) := by
  refine ⟨fun p q => ⟨lt_iff, key_lt_key_iff.symm, fun h => key_injective h⟩, ofKey_key, ?_,
    Log.mergeSort_key, ?_⟩
  · intro bytes
    refine ⟨⟨?_, ?_⟩, fun p => ofKey_eq_ok_iff.mp, ofKey_of_length_ne⟩
    · rintro ⟨p, hp⟩
      rw [← ofKey_eq_ok_iff.mp hp, length_key]
    · intro hlength
      obtain ⟨p, rfl⟩ := exists_key hlength
      exact ⟨p, ofKey_key p⟩
  · intro entries rows hrows
    obtain ⟨read, hread, hkeys⟩ := LogEntry.exists_read_of_carries hrows
    exact ⟨read, hread, Log.pairwise_storedKey_iff hkeys⟩

/-- The last position of a ledger and the first one of the next, whose number has another byte. -/
theorem key_orderIso_of_next_ledger :
    let earlier : Position := ⟨0xff, .replicate 0xff, 0xffffffff⟩
    let later : Position := ⟨0x100, .replicate 0, 0⟩
    let entry (p : Position) : LogEntry := ⟨⟨"C"⟩, "NOTE", p, .epoch, .null, none, none, .epoch⟩
    let row (p : Position) : Row := LogEntry.relation.row [.text "C", .bytes p.key, .text "NOTE",
      .bigint p.ledger.toNat, .instant Timestamp.epoch.toMicros, .json .null, .null, .null,
      .instant Timestamp.epoch.toMicros]
    earlier < later ∧ earlier.key < later.key ∧ ofKey later.key = .ok later ∧
      ofKey (List.replicate 12 0) = .error (.wrongLength 12) ∧
      [entry later, entry earlier].mergeSort (fun x y => x.position.key ≤ y.position.key) =
        [entry earlier, entry later] ∧
      ∃ read, Brought.all LogEntry.ofRow [row earlier, row later] = .ok read ∧
        read.Pairwise fun x y => x.position ≤ y.position := by
  intro earlier later entry row
  obtain ⟨hpairs, hread, hbytes, hsort, hrows⟩ := key_orderIso
  obtain ⟨-, hkeys, -⟩ := hpairs earlier later
  have hlt : earlier < later := by decide
  have hsorted : Log.sort [entry later, entry earlier] = [entry earlier, entry later] := by
    simp [Log.sort, List.mergeSort, List.MergeSort.Internal.splitInTwo, entry, hlt.not_ge]
  have hcarries (p : Position) : LogEntry.relation.Carries (entry p).values (row p) :=
    Relation.carries_row (by decide) <| .cons (.text _) <| .cons (.bytes _) <| .cons (.text _) <|
      .cons (.bigint _) <| .cons (.instant _) <| .cons (.json _) <| .cons (.null _) <|
      .cons (.null _) <| .cons (.instant _) .nil
  obtain ⟨read, hall, hordered⟩ := hrows [entry earlier, entry later] [row earlier, row later]
    (.cons (hcarries earlier) (.cons (hcarries later) .nil))
  exact ⟨hlt, hkeys.mp hlt, hread later, (hbytes _).2.2 (by decide), (hsort _).trans hsorted,
    read, hall, hordered.mp (by decide)⟩

end Position

end EventIndex
