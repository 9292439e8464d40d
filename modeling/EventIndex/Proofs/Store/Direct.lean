import EventIndex.Proofs.Program.Weakest
import EventIndex.Proofs.Table.Lookup
import EventIndex.Store.Memory

/-! # Transactions on the data themselves

A transaction over the store in memory gathers its writes. It cannot be told from one that makes
each write in a copy of the committed data at once. -/

namespace EventIndex

open OrderedMap

namespace Partition

/-- A request answered from the data, with its writes made there at once. -/
def request (p : Partition) : (r : Request) → Except StorageError r.Answer × Partition
  | .checkpoint => (.ok p.checkpoint, p)
  | .saveCheckpoint c => (.ok (), { p with checkpoint := some c })
  | .clear => (.ok (), { p with tables := ∅, checkpoint := none })
  | .entry position => (.ok p.log[position]?, p)
  | .append x =>
    if p.log[x.position]?.isSome then (.error (.positionTaken x.position), p)
    else (.ok (), { p with log := p.log.insert x.position x })
  | .entries => (.ok p.entries, p)
  | .row k id => (.ok (p.tables.row? k id), p)
  | .saveRow k row => (.ok (), { p with tables := p.tables.insert k row })
  | .quarantine e => (.ok (p.tables.quarantine? e), p)
  | .saveQuarantine q =>
    if (p.tables.quarantine? q.entity).isSome then (.ok (), p)
    else (.ok (), { p with tables := p.tables.freeze q })

abbrev rule : Rule Request.signature Partition :=
  .ofAnswer fun r p => p.request r

end Partition

namespace WriteSet

variable (w : WriteSet) (p : Partition)

@[simp] theorem mergeInto_start (contract : ContractId) : (start contract).mergeInto p = p := by
  have h : (start contract).mergeInto p =
      ⟨p.tables.overlay ∅, p.log.insertMany (∅ : Std.ExtTreeMap Position LogEntry).toList,
        p.checkpoint⟩ := rfl
  rw [h, Tables.overlay_empty, insertMany_toList_empty]

theorem entry?_eq (position : Position) : w.entry? p position = (w.mergeInto p).log[position]? :=
  (getElem?_insertMany_toList _ _ _).symm

theorem row?_eq (k : EntityKind) (id : UInt64) :
    w.row? p k id = (w.mergeInto p).tables.row? k id :=
  (Tables.row?_overlay _ _ _ _).symm

theorem quarantine?_eq (e : Entity) :
    w.quarantine? p e = (w.mergeInto p).tables.quarantine? e :=
  (Tables.quarantine?_overlay _ _ _).symm

theorem request_answer (r : Request) : (w.request p r).1 = ((w.mergeInto p).request r).1 := by
  cases r with
  | entry position => simp only [request, Partition.request, entry?_eq]
  | append x =>
    simp only [request, Partition.request, entry?_eq]
    split <;> rfl
  | row k id => simp only [request, Partition.request, row?_eq]
  | quarantine e => simp only [request, Partition.request, quarantine?_eq]
  | saveQuarantine q =>
    simp only [request, Partition.request, quarantine?_eq]
    split <;> rfl
  | _ => rfl

/-- The writes of a request, merged, are those that are made in the merged data. -/
theorem request_mergeInto (r : Request) :
    (w.request p r).2.mergeInto p = ((w.mergeInto p).request r).2 := by
  cases r with
  | clear =>
    change Partition.mk ((∅ : Tables).overlay ∅) _ _ = _
    rw [Tables.overlay_empty]
    rfl
  | append x =>
    simp only [request, Partition.request, entry?_eq]
    split
    · rfl
    · simp only [mergeInto, insertMany_toList_insert]
      rfl
  | saveRow k row =>
    simp only [request, Partition.request, mergeInto, beneath, Tables.overlay_insert]
    rfl
  | saveQuarantine q =>
    simp only [request, Partition.request, quarantine?_eq]
    split
    · rfl
    · simp only [mergeInto, beneath, Tables.overlay_freeze]
  | _ => rfl

@[simp] theorem request_contract (r : Request) : (w.request p r).2.contract = w.contract := by
  cases r with
  | append x =>
    simp only [request]
    split <;> rfl
  | saveQuarantine q =>
    simp only [request]
    split <;> rfl
  | _ => rfl

end WriteSet

/-! ## Sessions on the data -/

namespace Session

variable (data : Partition)

@[simp] theorem wp_ask (r : Request) (Q : Except StorageError r.Answer → Partition → Prop) :
    @Program.wp _ _ (no_index _) Partition.rule (@ExceptT.run _ _ (no_index _) (ask r)) Q data =
      Q (data.request r).1 (data.request r).2 := rfl

@[simp] theorem wp_note (line : Line) (Q : Except StorageError Unit → Partition → Prop) :
    (note line).run.wp Partition.rule Q data = Q (.ok ()) data := rfl

end Session

end EventIndex
