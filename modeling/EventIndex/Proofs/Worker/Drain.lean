import EventIndex.Proofs.Indexer.System
import EventIndex.Proofs.Source.Selection
import EventIndex.Proofs.Worker.Report

/-! # Draining a source

A worker that stops when it has caught up fetches and commits batches until nothing is left after
its checkpoint. How large the batches are makes no difference to what is indexed. -/

namespace EventIndex

open Program

/-! ## The batches of a drained source -/

namespace MemorySource

variable (s : MemorySource) (contract : ContractId)

/-- The batches of so many rounds, from the data `p` on. -/
def drain (size : Nat) : Nat → Partition → List (List RawEvent)
  | 0, _ => []
  | n + 1, p =>
    match (s.select contract p.position?).take size with
    | [] => []
    | e :: es => (e :: es) :: drain size n (p.settled contract (e :: es)).2

@[simp] theorem drain_undated (size n : Nat) (p : Partition) :
    s.drain contract size n p.undated = s.drain contract size n p := by
  cases n with
  | zero => rfl
  | succ n => simp only [drain, Partition.position?_undated, Partition.settled_undated]

theorem drain_cons {size n : Nat} {p q : Partition} {e : RawEvent} {es : List RawEvent}
    (hbatch : (s.select contract p.position?).take size = e :: es)
    (hq : q.undated = (p.settled contract (e :: es)).2) :
    s.drain contract size (n + 1) p = (e :: es) :: s.drain contract size n q := by
  rw [drain, hbatch]
  change (e :: es) :: s.drain contract size n (p.settled contract (e :: es)).2 = _
  rw [← hq, drain_undated]

/-- What a worker comes to that drains the source: its report, and the data without dates. -/
def outcome (config : Config) (rounds : Nat) (p : Partition) : WorkerReport × Partition :=
  let batches := s.drain contract config.batchSize.toNat rounds p
  let data := (p.settledAll contract batches).2
  (⟨contract, .caughtUp, batches.length, (batches.map List.length).sum, data.position?⟩, data)

variable {s contract}

/-- Where the first of the selected events are logged, the maxima of what is selected then follow
them. -/
theorem maxima_select {p q : Partition} {r : Position} {logged b rest : List RawEvent}
    (hq : q.Holds contract (logged ++ maxima logged b))
    (hselect : s.select contract p.position? = b ++ rest) (hr : q.position? = some r)
    (hlater : ∀ p', p.position? = some p' → p' ≤ r) (hreached : ∀ e ∈ b, e.position ≤ r) :
    logged ++ maxima logged b ++
        maxima (logged ++ maxima logged b) (s.select contract (some r)) =
      logged ++ maxima logged (s.select contract p.position?) := by
  have hrest : s.select contract (some r) = rest.filter (r < ·.position) := by
    have hnone : b.filter (r < ·.position) = [] :=
      List.filter_eq_nil_iff.mpr fun f hf => by simpa using hreached f hf
    rw [select_later hlater, hselect, List.filter_append, hnone, List.nil_append]
  have hlate : ∀ f ∈ rest, decide (r < f.position) = false →
      ¬ f.After (logged ++ maxima logged b) := by
    intro f _ hf hafter
    rw [hq.after_iff, hr] at hafter
    exact of_decide_eq_false hf (by simpa using hafter)
  rw [hrest, maxima_filter hlate, hselect, maxima_append, List.append_assoc,
    maxima_congr (after_append_maxima logged b)]

/-- On the data of logged events, the drained batches come to what one batch of all selected maxima
comes to. -/
theorem drain_holds {size n : Nat} (hsize : size ≠ 0) {p : Partition} {logged es : List RawEvent}
    (hp : p.Holds contract logged) (hs : s = .ofEvents es)
    (hn : (s.select contract p.position?).length < n) :
    ∃ q : Partition, q.Holds contract (logged ++ maxima logged (s.select contract p.position?)) ∧
      (p.settledAll contract (s.drain contract size n p)).2 = q.undated := by
  induction n generalizing p logged with
  | zero => exact absurd hn (Nat.not_lt_zero _)
  | succ n ih =>
    cases hbatch : (s.select contract p.position?).take size with
    | nil =>
      have hnil : s.select contract p.position? = [] := by
        simpa [hsize] using hbatch
      refine ⟨p, by simpa [hnil, maxima] using hp, ?_⟩
      rw [drain, hbatch]
      rfl
    | cons e b =>
      have hselect : s.select contract p.position? =
          (e :: b) ++ (s.select contract p.position?).drop size := by
        rw [← hbatch, List.take_append_drop]
      have hmem : ∀ f ∈ e :: b, f ∈ s.select contract p.position? :=
        fun f hf => List.mem_of_mem_take (hbatch ▸ hf)
      have hcontract : ∀ f ∈ e :: b, f.contract = contract :=
        fun f hf => contract_of_mem_select (hs ▸ hmem f hf)
      obtain ⟨q, hq, hundated⟩ := hp.exists_settled hcontract
      obtain ⟨r, hr, hlater, hreached⟩ :=
        p.exists_position?_settled contract (List.cons_ne_nil e b)
      rw [← hundated, Partition.position?_undated] at hr
      have hn' := length_select_lt hn hlater (hmem e List.mem_cons_self)
        (hreached e List.mem_cons_self)
      rw [← hr] at hn'
      obtain ⟨last, hlast, hsettled⟩ := ih hq hn'
      rw [hr, maxima_select hq hselect hr hlater hreached] at hlast
      refine ⟨last, hlast, ?_⟩
      rw [s.drain_cons contract hbatch hundated, Partition.settledAll, ← hundated,
        Partition.settledAll_undated]
      exact hsettled

end MemorySource

/-! ## A worker in calm surroundings -/

namespace Worker

variable {contract : ContractId} {p₀ p : Partition} {o : Observed} {w : Worker}
  {s : MemorySource} {es : List RawEvent}

private theorem not_fails (hs : s = .ofEvents es) (cause : IndexerError) :
    ¬ (Surroundings.calm s contract).Fails contract cause := by
  rintro (⟨⟨⟩⟩ | ⟨⟨⟩⟩ | ⟨hfetches, hforeign⟩)
  rename_i after limit batch e
  obtain rfl : batch = (s.select contract after).take limit := Except.ok.inj hfetches
  have hmem := List.mem_of_mem_take (List.mem_of_find?_eq_some hforeign)
  have hne := List.find?_some hforeign
  simp [MemorySource.contract_of_mem_select (hs ▸ hmem)] at hne

theorem wp_rounds_calm (hs : s = .ofEvents es) (hsize : w.config.batchSize.toNat ≠ 0)
    (hstop : w.config.stopWhenCaughtUp) (h : ∀ exit, (w.report exit).Tells contract p₀ p o)
    {n : Nat} (hn : (s.select contract p.position?).length < n) :
    (w.rounds n).wp (Effect.watched contract (.calm s contract))
      (fun r v => ∃ report, r = some report ∧ report.exit = .caughtUp ∧
        report.Tells contract p₀ v.data v.seen ∧
        v.seen.committed = o.committed ++ s.drain contract w.config.batchSize.toNat n p)
      (View.mk p none o) := by
  induction n generalizing w p o with
  | zero => exact absurd hn (Nat.not_lt_zero _)
  | succ n ih =>
    obtain rfl : w.contract = contract := (h .stopped).contract_eq
    have hafter : w.after = p.position? := (h .stopped).lastPosition_eq
    rw [rounds, wp_bind]
    refine wp_mono (Effect.watched_mono _ _) _ ?_ (w.wp_round p o)
    intro next v hround
    have htells := tells_round (h .stopped) hround
    cases hround with
    | stopped hstops => cases hstops
    | failed hfails => exact absurd hfails (not_fails hs _)
    | drained hfetches =>
      have hbatch := Except.ok.inj hfetches
      rw [hafter] at hbatch
      simp only [hstop, if_true]
      rw [wp_map, wp_finish]
      refine ⟨_, rfl, rfl, (htells .caughtUp).1, ?_⟩
      rw [MemorySource.drain, ← hbatch, List.append_nil]
    | @committed b times now failure hfetches hne hes htimes =>
      have hbatch := Except.ok.inj hfetches
      rw [hafter] at hbatch
      obtain ⟨r, hr, hlater, hreached⟩ := p.exists_position?_process w.contract hne htimes now
      obtain ⟨e, b, rfl⟩ := List.exists_cons_of_ne_nil hne
      have hundated := congrArg Prod.snd (p.process_undated w.contract htimes now)
      have hmem : e ∈ s.select w.contract p.position? :=
        List.mem_of_mem_take (hbatch ▸ List.mem_cons_self)
      have hn' := MemorySource.length_select_lt hn hlater hmem (hreached e List.mem_cons_self)
      rw [← hr] at hn'
      let processed := p.process w.contract ((e :: b).zip times) now
      have hnext := ih (w := w.advance processed.1) hsize hstop (fun exit => (htells exit).1) hn'
      refine wp_mono (Effect.watched_mono _ _) _ ?_ hnext
      rintro r v ⟨report, rfl, hexit, hreport, hcommitted⟩
      refine ⟨report, rfl, hexit, hreport, ?_⟩
      rw [hcommitted, s.drain_cons w.contract hbatch.symm hundated, List.append_assoc]
      rfl

theorem wp_run_calm (hs : s = .ofEvents es) {config : Config} (hsize : config.batchSize ≠ 0)
    (hstop : config.stopWhenCaughtUp) (contract : ContractId) (p : Partition) {limit : Nat}
    (hlimit : (s.select contract p.position?).length < limit) :
    (run config contract limit).wp (Effect.watched contract (.calm s contract))
      (fun r v => ∃ report, r = some report ∧ report.exit = .caughtUp ∧
        report.Tells contract p v.data v.seen ∧
        v.seen.committed = s.drain contract config.batchSize.toNat limit p)
      (View.mk p none .nothing) := by
  have hsize' : config.batchSize.toNat ≠ 0 := by
    simpa [← UInt64.toNat_inj] using hsize
  rw [run, wp_bind]
  apply Job.wp_resume
  exact wp_rounds_calm (w := start config contract p.position?) hs hsize' hstop
    (tells_start config contract p) hlimit

theorem wp_run_outcome (hs : s = .ofEvents es) {config : Config} (hsize : config.batchSize ≠ 0)
    (hstop : config.stopWhenCaughtUp) (contract : ContractId) (p : Partition) {limit : Nat}
    (hlimit : (s.select contract p.position?).length < limit) :
    (run config contract limit).wp (Effect.watched contract (.calm s contract))
      (fun r v => r = some (s.outcome contract config limit p).1 ∧
        v.data.undated = (s.outcome contract config limit p).2) (View.mk p none .nothing) := by
  refine wp_mono (Effect.watched_mono _ _) _ ?_ (wp_run_calm hs hsize hstop contract p hlimit)
  rintro r v ⟨⟨c, exit, batches, events, position⟩, rfl, rfl, htells, hcommitted⟩
  obtain ⟨rfl, rfl, rfl, rfl, -, hdata, -⟩ := htells
  rw [hcommitted] at hdata
  refine ⟨?_, hdata⟩
  simp only [MemorySource.outcome, ← hdata, hcommitted, Partition.position?_undated]

theorem perform_run {w : World MemoryStore MemorySource} (hw : w.Calm s) (hs : s = .ofEvents es)
    {config : Config} (hsize : config.batchSize ≠ 0) (hstop : config.stopWhenCaughtUp)
    (contract : ContractId) {limit : Nat}
    (hlimit : (s.select contract (w.store.partition contract).position?).length < limit) :
    let worked := w.perform (run config contract limit)
    ∃ report o, worked.1 = some report ∧ report.exit = .caughtUp ∧
      report.Tells contract (w.store.partition contract) (worked.2.store.partition contract) o ∧
      o.committed = s.drain contract config.batchSize.toNat limit (w.store.partition contract) := by
  have hobeys := handler_obeys_watched (Surroundings.describe_calm s contract) w.store
  have hshows : Desk.Shows contract w.store (World.Calm s) ⟨w, none⟩
      ⟨w.store.partition contract, none, .nothing⟩ :=
    ⟨rfl, rfl, by simp, hw, fun _ _ => rfl⟩
  obtain ⟨v, hv, report, hreport, hexit, htells, hcommitted⟩ :=
    run_of_wp hobeys (run config contract limit) hshows
      (wp_run_calm hs hsize hstop contract _ hlimit)
  rw [hv.data_eq] at htells
  exact ⟨report, v.seen, hreport, hexit, htells, hcommitted⟩

end Worker

/-- A worker that stops when it has caught up ends so, whatever the size of its batches. To the log
it adds, for each position after the checkpoint at which the source has events, the one that was
added first. The rows and the checkpoint are, but for dates, what these events give in one batch,
and the position that it reports is that of the checkpoint. -/
theorem System.Reachable.drained {s : System MemorySource} (h : s.Reachable) {es : List RawEvent}
    (hsource : s.world.source = .ofEvents es) (hstop : s.world.stop = false)
    (hcommit : s.world.store.commitFailures = 0) (contract : ContractId) :
    let old := s.data contract
    ∃ news : List RawEvent, Rising news ∧
      (∀ e, e ∈ news ↔ (∀ c, old.checkpoint = some c → c.position < e.position) ∧
        (es.filter (·.contract = contract)).find? (·.position = e.position) = some e) ∧
      ∀ (config : Config) (limit : Nat), config.batchSize ≠ 0 → config.stopWhenCaughtUp →
        (es.filter (·.contract = contract)).length < limit →
          let worked := s.world.perform (Worker.run config contract limit)
          let once := s.world.transact contract (Batch.process contract news)
          let data := worked.2.store.partition contract
          (∃ report, worked.1 = some report ∧ report.exit = .caughtUp ∧
            report.lastPosition = data.checkpoint.map Checkpoint.position) ∧
          (∀ (position : Position) (x : LogEntry), old.log[position]? = some x →
            data.log[position]? = some x) ∧
          data.entries.map LogEntry.toRaw = old.entries.map LogEntry.toRaw ++ news ∧
          (∃ r, once.1 = .ok r) ∧
          data.undated = (once.2.store.partition contract).undated := by
  intro old
  obtain ⟨logged, hlogged⟩ := h.derived contract
  change old.Holds contract logged at hlogged
  let source := MemorySource.ofEvents es
  let selected := source.select contract old.position?
  let news := maxima logged selected
  have hrising : Rising (logged ++ news) := hlogged.log.rising.append_maxima selected
  have hmem (e : RawEvent) :
      e ∈ news ↔ e.After logged ∧ selected.find? (·.position = e.position) = some e :=
    mem_maxima_iff (source.pairwise_select contract old.position?)
  have hcontract : ∀ e ∈ news, e.contract = contract := fun e he =>
    MemorySource.contract_of_mem_select (List.mem_of_find?_eq_some ((hmem e).mp he).2)
  refine ⟨news, hrising.sublist (List.sublist_append_right _ _), ?_, ?_⟩
  · intro e
    have hafter : (∀ c, old.checkpoint = some c → c.position < e.position) ↔
        old.position?.all (· < e.position) := by
      cases hc : old.checkpoint <;> simp [Partition.position?, hc]
    rw [hmem, hlogged.after_iff, hafter, ← MemorySource.eventsOf_ofEvents]
    apply and_congr_right
    intro he
    rw [MemorySource.find?_select he]
  · intro config limit hsize hcaughtUp hlimit worked once data
    have hselected : selected.length < limit := by
      rw [← MemorySource.eventsOf_ofEvents] at hlimit
      exact (source.length_select_le contract old.position?).trans_lt hlimit
    obtain ⟨report, o, hreport, hexit, htells, hcommitted⟩ :=
      Worker.perform_run ⟨hsource, hstop, hcommit⟩ rfl hsize hcaughtUp contract hselected
    obtain ⟨q, hq, hdrained⟩ :=
      MemorySource.drain_holds (by simpa [← UInt64.toNat_inj] using hsize) hlogged rfl hselected
    obtain ⟨q', hq', hsettled⟩ := hlogged.exists_settled hcontract
    rw [hrising.maxima_eq] at hq'
    obtain ⟨hanswer, honce, -⟩ := World.transact_process_settled hcontract hcommit
    have hdata : data.undated = q.undated := by
      rw [← hdrained, htells.undated_eq, hcommitted]
    refine ⟨⟨report, hreport, hexit, htells.lastPosition_eq⟩, htells.getElem?_log, ?_,
      ⟨_, hanswer⟩, ?_⟩
    · rw [← data.toRaw_entries_undated, hdata, q.toRaw_entries_undated, hq.entries_eq,
        hlogged.entries_eq]
    · exact hdata.trans ((hq.undated_eq hq').trans (hsettled.trans honce.symm))

private theorem System.Reachable.calm {world : World MemoryStore MemorySource}
    {calls : ContractId → Option Running} (h : Reachable ⟨world, calls⟩) (source : MemorySource) :
    Reachable ⟨{ world.refusing 0 with source := source, stop := false }, calls⟩ :=
  h.step (.surroundings rfl)

/-- After a first batch the source has two events at one position. -/
theorem System.Reachable.drained_of_conflict :
    let contract : ContractId := ⟨"C"⟩
    let event (ledger : UInt32) (topic : String) : RawEvent :=
      ⟨contract, topic, .null, ledger, .epoch, .replicate 0, 0⟩
    let es := [event 3 "NOTE", event 1 "NOTE", event 3 "OTHER", event 2 "NOTE"]
    let first := Job.process Config.default.retryPolicy contract [event 1 "NOTE"]
    let begun : World MemoryStore MemorySource := (World.start .empty .empty).perform first |>.2
    let world : World MemoryStore MemorySource :=
      { begun.refusing 0 with source := .ofEvents es, stop := false }
    let s : System MemorySource := ⟨world, fun _ => none⟩
    let config : Config := { Config.default with batchSize := 1, stopWhenCaughtUp := true }
    let worked := world.perform (Worker.run config contract 5)
    s.Reachable ∧ (∃ report, worked.1 = some report ∧ report.exit = .caughtUp) ∧
      ∃ news : List RawEvent, event 2 "NOTE" ∈ news ∧ event 3 "NOTE" ∈ news ∧
        event 1 "NOTE" ∉ news ∧ event 3 "OTHER" ∉ news ∧
        (worked.2.store.partition contract).entries.map LogEntry.toRaw =
          event 1 "NOTE" :: news := by
  intro contract event es first begun world s config worked
  let empty : World MemoryStore MemorySource := .start .empty .empty
  have hempty : Reachable ⟨empty, fun _ => none⟩ := .start rfl
  have hcall : first.IsCall contract := .process _ _
  have hbegun : Reachable ⟨begun, fun _ => none⟩ := hempty.perform rfl hcall
  have hs : s.Reachable := hbegun.calm (.ofEvents es)
  have hsource : s.world.source = .ofEvents es := rfl
  have hcheckpoint : (s.data contract).checkpoint.map Checkpoint.position =
      some (event 1 "NOTE").position := by decide +kernel
  have hentries : (s.data contract).entries.map LogEntry.toRaw = [event 1 "NOTE"] := by
    decide +kernel
  obtain ⟨news, -, hnews, hdrained⟩ := hs.drained hsource rfl rfl contract
  obtain ⟨⟨report, hreport, hexit, -⟩, -, hlog, -⟩ :=
    hdrained config 5 (by decide) rfl (by decide)
  rw [hentries] at hlog
  obtain ⟨c, hc, hposition⟩ := Option.map_eq_some_iff.mp hcheckpoint
  have hafter (e : RawEvent) : (∀ c, (s.data contract).checkpoint = some c →
      c.position < e.position) ↔ (event 1 "NOTE").position < e.position := by
    simp [hc, hposition]
  simp only [hafter] at hnews
  refine ⟨hs, ⟨report, hreport, hexit⟩, news, ?_, ?_, ?_, ?_, hlog⟩
  · exact (hnews _).mpr (by decide)
  · exact (hnews _).mpr (by decide)
  · exact fun h => absurd ((hnews _).mp h) (by decide)
  · exact fun h => absurd ((hnews _).mp h) (by decide)

end EventIndex
