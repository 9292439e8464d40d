import EventIndex.Indexer.Run
import EventIndex.Proofs.Indexer.System
import EventIndex.Proofs.Source.Selection

/-! # Completeness of replay

The log is enough to have all rows again: in every reachable state its replay gives the committed
rows. -/

namespace EventIndex

open Program

/-! ## Batches in memory -/

section Memory

variable {S : Signature} {σ α : Type} (rule : Rule S σ) {p : Partition} {s : σ}

private theorem wp_run_memoryHandler (x : Program Request.signature α) (w : WriteSet)
    {Q : α → Partition → Prop} (h : x.wp Partition.rule Q (w.mergeInto p)) :
    ((x.run (Batch.memoryHandler p)).run w).wp rule
      (fun r s' => s' = s ∧ Q r.1 (r.2.mergeInto p)) s := by
  induction x generalizing w with
  | done a => exact ⟨rfl, h⟩
  | note line x ih => exact ih w h
  | now x ih => exact fun t => ih t w (h t)
  | pause ms x ih => exact ih w h
  | call r x ih =>
    have hrequest :
        (x (w.request p r).1).wp Partition.rule Q ((w.request p r).2.mergeInto p) := by
      rw [w.request_mergeInto, w.request_answer]
      exact h
    exact ih _ _ hrequest

/-- A batch in memory gives what it gives on the data themselves, and asks for nothing. -/
theorem Batch.wp_runInMemory (b : Batch α) (contract : ContractId)
    {Q : Except IndexerError (α × Partition) → Prop}
    (h : b.run.wp Partition.rule (fun r p' => Q (r.map (·, p'))) p) :
    (b.runInMemory contract p).wp rule (fun r s' => s' = s ∧ Q r) s := by
  rw [Batch.runInMemory, wp_bind]
  rw [← WriteSet.mergeInto_start p contract] at h
  exact wp_run_memoryHandler rule b.run (.start contract) h

end Memory

/-! ## Replaying a log -/

/-- Entries of the contract, replayed, give the rows of their maxima. Any other entry is refused. -/
theorem Replay.wp_snapshot {S : Signature} {σ : Type} (rule : Rule S σ) (s : σ)
    (contract : ContractId) (entries : List LogEntry) :
    (Replay.snapshot contract entries).wp rule (fun r s' => s' = s ∧
      match r with
      | .ok snapshot => (∀ x ∈ entries, x.contract = contract) ∧ snapshot =
          (Tables.derive (maxima [] (MemorySource.sortEvents
            (entries.map LogEntry.toRaw)))).snapshot
      | .error err => ∃ x ∈ entries, x.contract ≠ contract ∧
          err = .foreignEvent contract x.contract) s := by
  let events := MemorySource.sortEvents (entries.map LogEntry.toRaw)
  have hmem {e : RawEvent} : e ∈ events ↔ ∃ x ∈ entries, x.toRaw = e := by
    rw [MemorySource.mem_sortEvents, List.mem_map]
  rw [Replay.snapshot, wp_bind]
  refine Batch.wp_runInMemory rule (Q := fun r => match r.map (fun x => x.2.tables.snapshot) with
      | .ok snapshot => (∀ x ∈ entries, x.contract = contract) ∧
          snapshot = (Tables.derive (maxima [] events)).snapshot
      | .error err => ∃ x ∈ entries, x.contract ≠ contract ∧
          err = .foreignEvent contract x.contract) _ contract ?_
  refine wp_mono (Rule.mono_ofAnswer _) _ ?_ (Batch.wp_process_of_holds (.empty contract) events)
  intro r q hq
  cases r with
  | error err =>
    obtain ⟨e, he, hforeign, rfl⟩ := hq
    obtain ⟨x, hx, rfl⟩ := hmem.mp he
    exact ⟨x, hx, hforeign, rfl⟩
  | ok report =>
    have hcontract : ∀ x ∈ entries, x.contract = contract := fun x hx =>
      hq.contract_eq _ (hmem.mpr ⟨x, hx, rfl⟩)
    exact ⟨hcontract, congrArg Tables.snapshot hq.holds.tables_eq⟩

namespace Partition.Holds

variable {contract : ContractId} {p : Partition} {es : List RawEvent}

theorem sort_entries (h : p.Holds contract es) : Log.sort p.entries = p.entries := by
  apply List.mergeSort_of_pairwise
  have hrising : Rising (p.entries.map LogEntry.toRaw) := by
    rw [h.entries_eq]
    exact h.log.rising
  refine (List.pairwise_map.mp hrising).imp ?_
  intro x y hxy
  exact decide_eq_true (le_of_lt hxy)

theorem sortEvents (h : p.Holds contract es) : MemorySource.sortEvents es = es := by
  apply List.mergeSort_of_pairwise
  refine h.log.rising.imp ?_
  intro e f hef
  exact decide_eq_true (le_of_lt hef)

private theorem wp_snapshot {S : Signature} {σ : Type} (h : p.Holds contract es)
    {rule : Rule S σ} (hmono : rule.Mono) (s : σ) :
    (Replay.snapshot contract (Log.sort p.entries)).wp rule
      (fun r s' => s' = s ∧ r = .ok p.tables.snapshot) s := by
  have hmaxima : maxima [] es = es := Rising.maxima_eq (by simpa using h.log.rising)
  have hreplay := Replay.wp_snapshot rule s contract p.entries
  rw [h.entries_eq, h.sortEvents, hmaxima, ← h.tables_eq] at hreplay
  rw [h.sort_entries]
  refine wp_mono hmono _ ?_ hreplay
  rintro r s' ⟨hs, hr⟩
  cases r with
  | error err =>
    obtain ⟨x, hx, hforeign, -⟩ := hr
    have hmem : x.toRaw ∈ es := h.entries_eq ▸ List.mem_map_of_mem hx
    exact absurd (h.log.contract_eq _ hmem) hforeign
  | ok snapshot => exact ⟨hs, congrArg _ hr.2⟩

end Partition.Holds

/-! ## Replay in the indexer -/

/-- The rule of jobs that only read the store. -/
private def Effect.reading : Rule Effect.signature MemoryStore
  | .query contract q, Q, s => Q (.ok ((s.partition contract).query q)) s
  | _, _, _ => False

private theorem Effect.reading_mono : Effect.reading.Mono := by
  intro op Q Q' s hQ hrule
  cases op with
  | query contract q => exact hQ _ _ hrule
  | _ => exact hrule.elim

variable {ρ : Type} [EventSource ρ] {contract : ContractId} {es : List RawEvent}

private theorem handler_obeys_reading :
    (Desk.handler : Handler _ (StateM (Desk MemoryStore ρ))).Obeys Effect.reading
      (fun d store => d.world.store = store) where
  note _ _ _ h := h
  now _ _ h := h
  pause _ _ _ h := h
  answer := by
    rintro op Q d _ rfl hrule
    cases op with
    | query contract q => exact ⟨_, rfl, hrule⟩
    | _ => exact hrule.elim

private theorem wp_query (q : Query) (Q : Except StorageError q.Answer → MemoryStore → Prop)
    (store : MemoryStore) :
    (Job.perform (.query contract q)).wp Effect.reading Q store =
      Q (.ok ((store.partition contract).query q)) store := rfl

private theorem wp_matchesLog {store : MemoryStore}
    (h : (store.partition contract).Holds contract es) :
    (Job.matchesLog contract).wp Effect.reading (fun r _ => r = .ok true) store := by
  rw [Job.matchesLog, wp_bind, wp_query]
  dsimp only [Partition.query]
  rw [wp_bind]
  refine wp_mono Effect.reading_mono _ ?_ (h.wp_snapshot Effect.reading_mono store)
  rintro _ store' ⟨hstore, rfl⟩
  obtain rfl : store = store' := hstore.symm
  dsimp only
  rw [wp_bind, wp_query]
  simp [Replay.agrees, Partition.query]

/-- In every reachable state, the log of each contract gives the committed rows again, in all
tables. -/
theorem System.Reachable.replay_eq_snapshot {s : System ρ} (h : s.Reachable)
    (contract : ContractId) :
    let committed := s.world.store.partition contract
    (s.world.perform (Replay.snapshot contract (Log.sort committed.entries))).1 =
        .ok committed.tables.snapshot ∧
      (s.world.perform (Job.matchesLog contract)).1 = .ok true := by
  obtain ⟨es, hes⟩ := h.derived contract
  have hdesk : (⟨s.world, none⟩ : Desk MemoryStore ρ).world.store = s.world.store := rfl
  obtain ⟨_, -, -, hsnapshot⟩ :=
    run_of_wp handler_obeys_reading _ hdesk (hes.wp_snapshot Effect.reading_mono s.world.store)
  obtain ⟨_, -, hmatches⟩ := run_of_wp handler_obeys_reading _ hdesk (wp_matchesLog hes)
  exact ⟨hsnapshot, hmatches⟩

/-- A reward and the quarantine of a proposal are replayed after a batch with one event twice. -/
theorem System.replay_eq_snapshot_after_process :
    let contract : ContractId := ⟨"C"⟩
    let added : RawEvent := ⟨contract, "REWARD_ADDED", .object [("added_at", .number "1"),
      ("amount", .string "5"), ("reason", .string "bug"), ("recipient", .string "R"),
      ("reward_id", .number "7")], 1, .epoch, .replicate 0, 0⟩
    let cancelled : RawEvent := ⟨contract, "PROPOSAL_CANCELLED", .object [
      ("cancelled_at", .number "2"), ("cancelled_by", .string "A"), ("proposal_id", .number "7")],
      2, .epoch, .replicate 0, 0⟩
    let call := Job.process ⟨3, 100, 2.0, 1000⟩ contract [added, cancelled, added]
    let s : System MemorySource := ⟨((World.start .empty .empty).perform call).2, fun _ => none⟩
    let committed := s.world.store.partition contract
    s.Reachable ∧ (committed.tables.row? .reward 7).isSome ∧
      (committed.tables.quarantine? ⟨.proposal, 7⟩).isSome ∧
      (s.world.perform (Replay.snapshot contract (Log.sort committed.entries))).1 =
        .ok committed.tables.snapshot ∧
      (s.world.perform (Job.matchesLog contract)).1 = .ok true := by
  intro contract added cancelled call s committed
  have hstart : (⟨World.start .empty .empty, fun _ => none⟩ : System MemorySource).Reachable :=
    .start rfl
  have hreachable : s.Reachable := hstart.perform rfl (.process _ _)
  have hreward : (committed.tables.row? .reward 7).isSome := by decide +kernel
  have hproposal : (committed.tables.quarantine? ⟨.proposal, 7⟩).isSome := by decide +kernel
  exact ⟨hreachable, hreward, hproposal, hreachable.replay_eq_snapshot contract⟩

end EventIndex
