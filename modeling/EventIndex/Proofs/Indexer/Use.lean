import EventIndex.Proofs.Indexer.System
import EventIndex.Proofs.Projection.Again

/-! # Transactions in use

A transaction of a contract may be used freely: batches are processed and decoded events applied in
any order and at any positions, until it is committed or given up. Whatever came of them, the tables
that it sees stay regular, so that an event that is applied once more changes nothing. -/

namespace EventIndex

open Program

/-! ## What is done in a transaction -/

theorem Course.regular_take {s : Course} (h : s.data.tables.Regular) (x : RawEvent × Timestamp) :
    (s.take x).data.tables.Regular := by
  simp only [take]
  split
  · simpa using h
  · change (s.see.index x.1 x.2).data.tables.Regular
    rcases s.see.tables_index x.1 x.2 with htables | htables <;> rw [htables]
    · exact h.absorb x.1
    · exact h

namespace Batch

variable {contract : ContractId} {data : Partition}

private theorem wp_take_regular (contract : ContractId) {s : Course} (h : s.data.tables.Regular)
    (e : RawEvent) : (take contract (s.tracker, s.report) e).run.wp Partition.rule
      (fun r data' => data'.tables.Regular ∧ ∀ progress, r = .ok progress →
        ∃ s' : Course, progress = (s'.tracker, s'.report) ∧ data' = s'.data) s.data := by
  by_cases he : e.contract = contract
  · refine wp_take s he fun now => ⟨Course.regular_take h (e, now), ?_⟩
    rintro _ ⟨⟩
    exact ⟨_, rfl, rfl⟩
  · refine wp_take_foreign s he ⟨h, ?_⟩
    rintro _ ⟨⟩

private theorem wp_foldlM_take_regular (es : List RawEvent) {s : Course}
    (h : s.data.tables.Regular) :
    (es.foldlM (take contract) (s.tracker, s.report)).run.wp Partition.rule
      (fun r data' => data'.tables.Regular ∧ ∀ progress, r = .ok progress →
        ∃ s' : Course, progress = (s'.tracker, s'.report) ∧ data' = s'.data) s.data := by
  induction es generalizing s with
  | nil =>
    refine ⟨h, ?_⟩
    rintro _ ⟨⟩
    exact ⟨s, rfl, rfl⟩
  | cons e es ih =>
    rw [List.foldlM_cons, wp_run_bind]
    refine wp_mono (Rule.mono_ofAnswer _) _ ?_ (wp_take_regular contract h e)
    rintro r data' ⟨hregular, hok⟩
    cases r with
    | error err => exact ⟨hregular, by simp⟩
    | ok progress =>
      obtain ⟨s', rfl, rfl⟩ := hok progress rfl
      exact ih hregular

/-- A batch keeps the tables regular, also one that is broken off. -/
theorem wp_process_regular (h : data.tables.Regular) (es : List RawEvent) :
    (process contract es).run.wp Partition.rule (fun _ data' => data'.tables.Regular) data := by
  rw [process, wp_run_bind, wp_ofSession]
  simp only [Session.tracker, wp_run_bind, Session.wp_ask, Partition.request, wp_run_pure,
    Except.mapError]
  refine wp_mono (Rule.mono_ofAnswer _) _ ?_
    (wp_foldlM_take_regular es (s := .start contract data) h)
  rintro r data' ⟨hregular, hok⟩
  cases r with
  | error err => exact hregular
  | ok progress =>
    obtain ⟨s, rfl, rfl⟩ := hok progress rfl
    simp only [wp_ofSession]
    exact wp_persist s fun now c t _ => hregular

theorem wp_rebuild_regular (data : Partition) :
    (rebuild contract).run.wp Partition.rule (fun _ data' => data'.tables.Regular) data := by
  rw [wp_rebuild]
  exact wp_process_regular .empty _

end Batch

/-! ## Desks in use -/

namespace Desk

variable {ρ α : Type}

/-- The data that the open transaction sees. -/
def sees (d : Desk MemoryStore ρ) : Option Partition :=
  d.tx.map fun w : WriteSet => w.mergeInto (d.world.store.partition w.contract)

theorem sees_eq {contract : ContractId} {store : MemoryStore} {metrics : Metrics}
    {d : Desk MemoryStore ρ} {data : Partition}
    (h : World.Merges contract store metrics d data) : d.sees = some data := by
  obtain ⟨⟨rfl, -⟩, w, hw, rfl, rfl⟩ := h
  simp [sees, hw]

/-- The committed tables of the contract are regular, and those that the open transaction, which is
of the contract, sees. -/
structure Regular (contract : ContractId) (d : Desk MemoryStore ρ) : Prop where
  committed : (d.world.store.partition contract).tables.Regular
  contract_eq : ∀ w : WriteSet, d.tx = some w → w.contract = contract
  seen : ∀ w : WriteSet, d.tx = some w →
    (w.mergeInto (d.world.store.partition contract)).tables.Regular

namespace Regular

variable {contract : ContractId} {d : Desk MemoryStore ρ}

private theorem closed {world : World MemoryStore ρ}
    (h : (world.store.partition contract).tables.Regular) : Regular contract ⟨world, none⟩ where
  committed := h
  contract_eq := by rintro w ⟨⟩
  seen := by rintro w ⟨⟩

theorem exists_merges (h : Regular contract d) (hopen : d.tx.isSome) :
    ∃ p, World.Merges contract d.world.store d.world.metrics d p ∧ p.tables.Regular := by
  obtain ⟨w, hw⟩ := Option.isSome_iff_exists.mp hopen
  exact ⟨_, ⟨⟨rfl, rfl⟩, w, hw, h.contract_eq w hw, rfl⟩, h.seen w hw⟩

end Regular

variable [EventSource ρ]

def batch (d : Desk MemoryStore ρ) (b : Batch α) : Except IndexerError α × Desk MemoryStore ρ :=
  ((Job.ofBatch b).run.run Desk.handler).run d

def apply (d : Desk MemoryStore ρ) (contract : ContractId) (p : Position) (e : Decoded) :
    Except IndexerError (Except Refusal Applied) × Desk MemoryStore ρ :=
  d.batch (.ofSession (EventIndex.apply contract p e))

/-- The desks at which a contract is worked on, from an empty store on: by calls of the indexer, and
in transactions in which batches are processed, rows are rebuilt and decoded events applied. The
surroundings may do anything but change the committed data of the contract. -/
inductive InUse (contract : ContractId) : Desk MemoryStore ρ → Prop
  | start {world : World MemoryStore ρ} (hstore : world.store.partitions = ∅) :
    InUse contract ⟨world, none⟩
  | call {d : Desk MemoryStore ρ} {job : Job (Except IndexerError BatchReport)}
    (h : InUse contract d) (hjob : job.IsCall contract) :
    InUse contract ⟨(d.world.perform job).2, none⟩
  | begin {d : Desk MemoryStore ρ} (h : InUse contract d) :
    InUse contract (d.answer (.start contract)).2
  | process {d : Desk MemoryStore ρ} (h : InUse contract d) (hopen : d.tx.isSome)
    (es : List RawEvent) : InUse contract (d.batch (Batch.process contract es)).2
  | rebuild {d : Desk MemoryStore ρ} (h : InUse contract d) (hopen : d.tx.isSome) :
    InUse contract (d.batch (Batch.rebuild contract)).2
  | apply {d : Desk MemoryStore ρ} (h : InUse contract d) (hopen : d.tx.isSome)
    (other : ContractId) (p : Position) {topic : Topic} {v : Json} {q : Position} {e : Decoded}
    (hdecode : decode topic v q = .ok e) : InUse contract (d.apply other p e).2
  | commit {d : Desk MemoryStore ρ} (h : InUse contract d) : InUse contract (d.answer .commit).2
  | abandon {d : Desk MemoryStore ρ} (h : InUse contract d) : InUse contract (d.answer .abandon).2
  | surroundings {d : Desk MemoryStore ρ} {world : World MemoryStore ρ} (h : InUse contract d)
    (hdata : world.store.partition contract = d.world.store.partition contract) :
    InUse contract ⟨world, d.tx⟩

namespace Regular

variable {contract : ContractId} {d : Desk MemoryStore ρ}

/-- What keeps the tables regular may be done in the open transaction. -/
theorem batch (h : Regular contract d) (hopen : d.tx.isSome) {b : Batch α}
    (hb : ∀ p, p.tables.Regular →
      b.run.wp Partition.rule (fun _ p' => p'.tables.Regular) p) :
    Regular contract (d.batch b).2 := by
  obtain ⟨p, hmerges, hp⟩ := h.exists_merges hopen
  obtain ⟨p', ⟨⟨hstore, -⟩, w, hw, hcontract, rfl⟩, hregular⟩ :=
    World.run_ofBatch_spec hmerges b (hb p hp)
  refine ⟨?_, ?_, ?_⟩
  · rw [show (d.batch b).2.world.store = d.world.store from hstore]
    exact h.committed
  · intro w' hw'
    obtain rfl : w = w' := Option.some.inj (hw.symm.trans hw')
    exact hcontract
  · intro w' hw'
    obtain rfl : w = w' := Option.some.inj (hw.symm.trans hw')
    rw [show (d.batch b).2.world.store = d.world.store from hstore]
    exact hregular

theorem call (h : Regular contract d) {job : Job (Except IndexerError BatchReport)}
    (hjob : job.IsCall contract) : Regular contract ⟨(d.world.perform job).2, none⟩ := by
  obtain ⟨b, last, hdecided, hb⟩ : ∃ (b : Batch BatchReport) (last : World MemoryStore ρ),
      last.DecidedBy contract b d.world (d.world.perform job).1 (d.world.perform job).2.store ∧
      ∀ p, p.tables.Regular → b.run.wp Partition.rule (fun _ p' => p'.tables.Regular) p := by
    cases hjob with
    | process policy es =>
      obtain ⟨last, hdecided, -⟩ := d.world.perform_process policy contract es
      exact ⟨_, last, hdecided, fun p hp => Batch.wp_process_regular hp es⟩
    | rebuild policy =>
      obtain ⟨last, hdecided, -⟩ := d.world.perform_rebuild policy contract
      exact ⟨_, last, hdecided, fun p _ => Batch.wp_rebuild_regular p⟩
  have hlast : (last.store.partition contract).tables.Regular :=
    hdecided.partition_eq contract ▸ h.committed
  obtain ⟨r, p, hregular, -, hstore⟩ := last.transact_spec contract b (hb _ hlast)
  refine closed ?_
  rw [hdecided.store_eq, hstore]
  cases hsettled : (last.store.settle contract r p).1 with
  | ok report => rwa [(MemoryStore.settle_ok hsettled).2]
  | error err =>
    rw [MemoryStore.partition, MemoryStore.settle_error hsettled]
    exact hlast

theorem begin (h : Regular contract d) : Regular contract (d.answer (.start contract)).2 where
  committed := h.committed
  contract_eq := by
    rintro w ⟨⟩
    rfl
  seen := by
    rintro w ⟨⟩
    rw [WriteSet.mergeInto_start]
    exact h.committed

theorem commit (h : Regular contract d) : Regular contract (d.answer .commit).2 := by
  obtain ⟨world, tx⟩ := d
  cases tx with
  | none => exact h
  | some w =>
    obtain rfl : w.contract = contract := h.contract_eq w rfl
    refine closed ?_
    change ((world.store.commit w).2.partition w.contract).tables.Regular
    cases hf : world.store.commitFailures with
    | succ n =>
      simp only [MemoryStore.commit, hf]
      exact h.committed
    | zero =>
      simp only [MemoryStore.commit, hf, MemoryStore.partition_insert, if_true]
      exact h.seen w rfl

theorem abandon (h : Regular contract d) : Regular contract (d.answer .abandon).2 := by
  obtain ⟨world, tx⟩ := d
  cases tx <;> exact closed h.committed

end Regular

theorem InUse.regular {contract : ContractId} {d : Desk MemoryStore ρ} (h : InUse contract d) :
    Regular contract d := by
  induction h with
  | @start world hstore =>
    refine .closed ?_
    have hempty : world.store.partition contract = ∅ := by
      simp [MemoryStore.partition, hstore]
    rw [hempty]
    exact .empty
  | call h hjob ih => exact ih.call hjob
  | begin h ih => exact ih.begin
  | process h hopen es ih => exact ih.batch hopen fun p hp => Batch.wp_process_regular hp es
  | rebuild h hopen ih => exact ih.batch hopen fun p _ => Batch.wp_rebuild_regular p
  | apply h hopen other p hdecode ih =>
    refine ih.batch hopen fun data hdata => ?_
    rw [Batch.wp_ofSession, wp_apply]
    exact hdata.apply other p hdecode
  | commit h ih => exact ih.commit
  | abandon h ih => exact ih.abandon
  | surroundings h hdata ih =>
    exact ⟨hdata ▸ ih.committed, ih.contract_eq, hdata ▸ ih.seen⟩

/-! ## Applying an event once more -/

section Apply

variable {contract : ContractId} {store : MemoryStore} {metrics : Metrics}
  {d : Desk MemoryStore ρ} {data : Partition}

theorem apply_spec (h : World.Merges contract store metrics d data) (other : ContractId)
    (p : Position) (e : Decoded) :
    (d.apply other p e).1 = .ok (data.tables.apply other p e).1 ∧
      World.Merges contract store metrics (d.apply other p e).2
        { data with tables := (data.tables.apply other p e).2 } := by
  have hwp : (Batch.ofSession (EventIndex.apply other p e)).run.wp Partition.rule
      (fun r data' => r = .ok (data.tables.apply other p e).1 ∧
        data' = { data with tables := (data.tables.apply other p e).2 }) data := by
    rw [Batch.wp_ofSession, wp_apply]
    exact ⟨rfl, rfl⟩
  obtain ⟨data', hmerges, hanswer, rfl⟩ := World.run_ofBatch_spec h _ hwp
  exact ⟨hanswer, hmerges⟩

end Apply

/-- In a transaction at a desk in use, an event that is applied twice at one position, whatever this
position is, leaves the transaction with what it sees after the first time. The second answer
follows from the first, and a refused event is refused again because of the quarantine. -/
theorem InUse.apply_twice {contract : ContractId} {d : Desk MemoryStore ρ} (h : InUse contract d)
    (hopen : d.tx.isSome) (other : ContractId) (p : Position) (e : Decoded) :
    let once := d.apply other p e
    let twice := once.2.apply other p e
    ∃ first second data, once.1 = .ok first ∧ twice.1 = .ok second ∧
      once.2.sees = some data ∧ twice.2.sees = some data ∧ data.tables.Again first second := by
  intro once twice
  obtain ⟨data, hmerges, hregular⟩ := h.regular.exists_merges hopen
  obtain ⟨hfirst, honce⟩ := apply_spec hmerges other p e
  obtain ⟨hsecond, htwice⟩ := apply_spec honce other p e
  obtain ⟨hsame, hagain⟩ := hregular.apply_again other p e
  refine ⟨_, _, _, hfirst, hsecond, sees_eq honce, ?_, hagain⟩
  have hsees := sees_eq htwice
  dsimp only at hsees
  rwa [hsame] at hsees

/-- A claim is applied twice after the grant, and found there. At a position before the grant it is
refused, and then because of its quarantine. -/
theorem InUse.apply_twice_of_claim :
    let contract : ContractId := ⟨"C"⟩
    let beneficiary : String × Json := ("beneficiary", .string "B")
    let id : String × Json := ("grant_id", .number "1")
    let granted : RawEvent := ⟨contract, "GRANT", .object [("amount", .string "9"), beneficiary,
      ("cliff_seconds", .number "0"), ("duration_seconds", .number "9"), id,
      ("granted_at", .number "0"), ("start_time", .number "0")], 2, .epoch, .replicate 0, 0⟩
    let claimed : Decoded := .recognized (.claim ⟨1, "B", ⟨5, by decide, by decide⟩, 1⟩)
    let start : Desk MemoryStore MemorySource := ⟨.start .empty .empty, none⟩
    let opened := (start.answer (.start contract)).2
    let d := (opened.batch (Batch.process contract [granted])).2
    let position (ledger : UInt32) : Position := ⟨ledger, .replicate 0, 0⟩
    let applied (ledger : UInt32) := d.apply contract (position ledger) claimed
    let again (ledger : UInt32) := (applied ledger).2.apply contract (position ledger) claimed
    d.InUse contract ∧ d.tx.isSome ∧
      ((applied 3).1 = .ok (.ok .written) ∧ (again 3).1 = .ok (.ok .unchanged) ∧
        (again 3).2.sees = (applied 3).2.sees) ∧
      (applied 1).1 = .ok (.error (.integrity (.grant 1) (.precedes (position 1) (position 2)))) ∧
        (again 1).1 = .ok (.error (.quarantined (.grant 1) (position 1))) ∧
        (again 1).2.sees = (applied 1).2.sees := by
  intro contract beneficiary id granted claimed start opened d position applied again
  have huse : d.InUse contract := ((InUse.start rfl).begin).process rfl [granted]
  have hopen : d.tx.isSome := by decide +kernel
  have hwritten : (applied 3).1 = .ok (.ok .written) := by decide +kernel
  have hrefused : (applied 1).1 =
      .ok (.error (.integrity (.grant 1) (.precedes (position 1) (position 2)))) := by
    decide +kernel
  have hfrozen : (applied 1).2.sees.map
      (fun data => (data.tables.quarantine? (.grant 1)).map Quarantine.position) =
        some (some (position 1)) := by decide +kernel
  have hlater : (again 3).1 = .ok (.ok .unchanged) ∧ (again 3).2.sees = (applied 3).2.sees := by
    obtain ⟨first, second, data, hfirst, hsecond, honce, htwice, hagain⟩ :=
      huse.apply_twice hopen contract (position 3) claimed
    obtain rfl : .ok .written = first := Except.ok.inj (hwritten.symm.trans hfirst)
    cases hagain
    exact ⟨hsecond, htwice.trans honce.symm⟩
  have hearlier : (again 1).1 = .ok (.error (.quarantined (.grant 1) (position 1))) ∧
      (again 1).2.sees = (applied 1).2.sees := by
    obtain ⟨first, second, data, hfirst, hsecond, honce, htwice, hagain⟩ :=
      huse.apply_twice hopen contract (position 1) claimed
    obtain rfl := Except.ok.inj (hrefused.symm.trans hfirst)
    cases hagain with
    | refused hq =>
      rw [show (applied 1).2.sees = some data from honce, Option.map_some] at hfrozen
      obtain ⟨q, hq', hposition⟩ := Option.map_eq_some_iff.mp (Option.some.inj hfrozen)
      obtain rfl := Option.some.inj (hq.symm.trans hq')
      exact ⟨hposition ▸ hsecond, htwice.trans honce.symm⟩
  exact ⟨huse, hopen, ⟨hwritten, hlater⟩, hrefused, hearlier⟩

end Desk

end EventIndex
