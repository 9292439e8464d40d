import EventIndex.Proofs.Delivery.Accounting
import EventIndex.Proofs.Source.Pages
import EventIndex.Proofs.Worker.Drain

/-! # What a worker delivers

A worker that has caught up has passed on the pages of what its source had after the checkpoint.
Where a page ended between events of one position, the others of these were passed over: they are
neither counted nor reported. -/

namespace EventIndex

/-! ## Drained batches are pages -/

theorem Partition.position?_settled (p : Partition) (contract : ContractId) (es : List RawEvent) :
    (p.settled contract es).2.position? =
      (p.position?.toList ++ es.map RawEvent.position).max? := by
  have haccounted := p.accounted_settled contract es
  rw [haccounted.position?_eq, haccounted.lastPosition_eq, position?_undated]

/-- What is not in the pages of sorted events would be late in one batch of all of them, since it
does not advance the checkpoint. -/
theorem Partition.late_flatten_pages (p : Partition) (contract : ContractId) {es : List RawEvent}
    (h : Sorted es) {size : Nat} (hsize : size ≠ 0) :
    let delivered := (pages size es).flatten
    let part := (p.settled contract delivered).1
    let all := (p.settled contract es).1
    part.replayed + part.orderingViolations.length + es.length =
      all.replayed + all.orderingViolations.length + delivered.length := by
  intro delivered part all
  have hpart := p.accounted_settled contract delivered
  have hall := p.accounted_settled contract es
  have hadvanced : part.advanced = all.advanced := by
    rw [hpart.advanced_eq, hall.advanced_eq, h.advancing_flatten_pages hsize]
  have hsum : delivered.length = part.replayed + part.orderingViolations.length + part.advanced :=
    hpart.seen_eq.symm.trans hpart.seen_sum
  have hsum' : es.length = all.replayed + all.orderingViolations.length + all.advanced :=
    hall.seen_eq.symm.trans hall.seen_sum
  omega

namespace MemorySource

variable {s : MemorySource} {contract : ContractId} {p : Partition}

theorem position?_settled_of_turned {size : Nat} {page left : List RawEvent} {reached : Position}
    (h : Turned size (s.select contract p.position?) page reached left) :
    (p.settled contract page).2.position? = some reached := by
  rw [p.position?_settled contract, List.max?_eq_some_iff]
  obtain ⟨e, he, hreached⟩ := h.exists_mem
  refine ⟨List.mem_append_right _ (List.mem_map.mpr ⟨e, he, hreached⟩), fun q hq => ?_⟩
  rcases List.mem_append.mp hq with hq | hq
  · have hselected : e ∈ s.select contract p.position? :=
      h.eq_append ▸ List.mem_append_left _ he
    have hafter := (mem_select.mp hselected).2
    rw [Option.mem_toList.mp hq] at hafter
    exact hreached ▸ (by simpa using hafter : q < e.position).le
  · obtain ⟨f, hf, rfl⟩ := List.mem_map.mp hq
    exact h.page_le f hf

/-- The batches of a drained source are the pages of what it has after the checkpoint. -/
theorem drain_eq_pages {size : Nat} (hsize : size ≠ 0) {n : Nat}
    (hn : (s.select contract p.position?).length < n) :
    s.drain contract size n p = pages size (s.select contract p.position?) := by
  induction n generalizing p with
  | zero => exact absurd hn (Nat.not_lt_zero _)
  | succ n ih =>
    by_cases hnil : s.select contract p.position? = []
    · simp [drain, hnil, pages]
    · have hsorted : Sorted (s.select contract p.position?) := s.pairwise_select _ _
      obtain ⟨page, reached, left, hturned⟩ := hsorted.turned hnil hsize
      have hreached := position?_settled_of_turned hturned
      obtain ⟨e, he, hposition⟩ := hturned.exists_mem
      obtain ⟨r, hr, hlater, -⟩ := p.exists_position?_settled contract (List.ne_nil_of_mem he)
      obtain rfl := Option.some.inj (hr.symm.trans hreached)
      have hn' := length_select_lt hn hlater (hturned.eq_append ▸ List.mem_append_left _ he)
        hposition.le
      obtain ⟨f, fs, rfl⟩ := List.exists_cons_of_ne_nil (List.ne_nil_of_mem he)
      rw [hturned.pages_eq, ← select_later hlater, ← hr, ← ih (by rwa [hr])]
      exact s.drain_cons contract hturned.page_eq.symm (p.undated_settled contract _)

end MemorySource

/-! ## What a worker counts -/

namespace World

variable {α : Type} {s : MemorySource} {d : Desk MemoryStore MemorySource}

theorem Calm.run (h : d.world.Calm s) (p : Job α) :
    ((p.run Desk.handler).run d).2.world.Calm s := by
  induction p generalizing d with
  | done a => exact h
  | note line p ih => exact ih ⟨h.source_eq, h.stop_eq, h.commitFailures_eq⟩
  | now p ih => exact ih _ ⟨h.source_eq, h.stop_eq, h.commitFailures_eq⟩
  | pause ms p ih => exact ih h
  | call e p ih => exact ih _ (h.answer e)

theorem run_process_eq (policy : RetryPolicy) (contract : ContractId) (es : List RawEvent)
    (d : Desk MemoryStore MemorySource) :
    ((Job.process policy contract es).run Desk.handler).run d =
      ((Job.process policy contract es).run Desk.handler).run ⟨d.world, none⟩ := by
  have hattempt (d : Desk MemoryStore MemorySource) (retry left : Nat) :
      ((policy.attempt (Job.transact contract (Batch.process contract es))
        (fun _ _ => Job.perform .recordRetry) retry left).run Desk.handler).run d =
      ((policy.attempt (Job.transact contract (Batch.process contract es))
        (fun _ _ => Job.perform .recordRetry) retry left).run Desk.handler).run
          ⟨d.world, none⟩ := by
    cases left <;>
      rw [RetryPolicy.attempt, Program.run_bind_run, Program.run_bind_run,
        run_transact_eq contract _ d]
  simp only [Job.process, Job.retrying, RetryPolicy.run, Program.run_bind_run]
  rw [hattempt]
  rfl

theorem run_fetch (h : d.world.Calm s) (w : Worker) :
    (w.fetch.run Desk.handler).run d =
      (.ok ((s.select w.contract w.after).take w.config.batchSize.toNat), d) := by
  obtain ⟨⟨store, source, metrics, stop, times, looks, journal⟩, tx⟩ := d
  obtain ⟨rfl, rfl, -⟩ := h
  rw [Worker.fetch, Job.retrying, Program.run_bind_run, RetryPolicy.run]
  cases w.config.retryPolicy.maxRetries.toNat <;> rfl

end World

namespace Worker

variable {s : MemorySource} {es : List RawEvent} {d : Desk MemoryStore MemorySource}

private theorem run_round (hd : d.world.Calm s) (w : Worker) :
    (w.round.run Desk.handler).run d =
      (((match (s.select w.contract w.after).take w.config.batchSize.toNat with
        | [] =>
          if w.config.stopWhenCaughtUp then pure (w, some .caughtUp)
          else do
            w.wait
            pure (w, none)
        | events => do
          match (← Job.process w.config.retryPolicy w.contract events) with
          | .error e => pure (w, some (.paused e))
          | .ok report => pure (w.advance report, none) :
        Job (Worker × Option Exit)).run Desk.handler).run d) := by
  have hgoes : ((Job.perform .stopRequested).run Desk.handler).run d = (false, d) := by
    change (d.world.stop || _, d) = _
    rw [hd.stop_eq]
    rfl
  rw [round, Program.run_bind_run, hgoes]
  simp only [Bool.false_eq_true, if_false]
  rw [Program.run_bind_run, World.run_fetch hd]
  cases (s.select w.contract w.after).take w.config.batchSize.toNat <;> rfl

theorem run_round_of_cons (hs : s = .ofEvents es) {w : Worker} (hd : d.world.Calm s)
    {e : RawEvent} {b : List RawEvent}
    (hbatch : (s.select w.contract w.after).take w.config.batchSize.toNat = e :: b) :
    let settled := (d.world.store.partition w.contract).settled w.contract (e :: b)
    ∃ d' : Desk MemoryStore MemorySource,
      (w.round.run Desk.handler).run d = ((w.advance settled.1, none), d') ∧
      d'.world.Calm s ∧ (d'.world.store.partition w.contract).undated = settled.2 ∧
      d'.world.metrics.replaysSkipped =
        d.world.metrics.replaysSkipped + .ofNat settled.1.replayed ∧
      d'.world.metrics.orderingViolations =
        d.world.metrics.orderingViolations + .ofNat settled.1.orderingViolations.length := by
  intro settled
  have hcontract : ∀ f ∈ e :: b, f.contract = w.contract := fun f hf =>
    MemorySource.contract_of_mem_select (hs ▸ List.mem_of_mem_take (hbatch ▸ hf))
  let processing := Job.process w.config.retryPolicy w.contract (e :: b)
  let ended := (processing.run Desk.handler).run (⟨d.world, none⟩ : Desk MemoryStore MemorySource)
  have hcalm : ended.2.world.Calm s := World.Calm.run (d := ⟨d.world, none⟩) hd processing
  have hcommits : d.world.store.commitFailures ≤ w.config.retryPolicy.maxRetries.toNat :=
    hd.commitFailures_eq ▸ Nat.zero_le _
  obtain ⟨p', nanos, hp', hanswer, hstore, hmetrics⟩ := World.process_of_le hcontract hcommits
  have hok : ended.1 = .ok settled.1 := hanswer
  have hdata : ended.2.world.store = _ := hstore
  have hcounted : ended.2.world.metrics = _ := hmetrics
  rw [hd.commitFailures_eq, Metrics.recordRetries_zero] at hcounted
  refine ⟨ended.2, ?_, hcalm, ?_, ?_, ?_⟩
  · rw [run_round hd, hbatch]
    dsimp only
    rw [Program.run_bind_run, World.run_process_eq]
    change ((Program.run Desk.handler (match ended.1 with | .error e => _ | .ok report => _)).run
      ended.2) = _
    rw [hok]
    rfl
  · rw [hdata, MemoryStore.partition_insert_self, hp']
  · rw [hcounted]
    rfl
  · rw [hcounted]
    rfl

theorem run_rounds_late (hs : s = .ofEvents es) {w : Worker} (hd : d.world.Calm s) {p : Partition}
    (hp : (d.world.store.partition w.contract).undated = p.undated)
    (hafter : w.after = p.position?) (hstop : w.config.stopWhenCaughtUp) {n : Nat}
    (hn : (s.select w.contract p.position?).length < n) :
    let drained := (s.drain w.contract w.config.batchSize.toNat n p).flatten
    let late := (p.settled w.contract drained).1
    let metrics := (((w.rounds n).run Desk.handler).run d).2.world.metrics
    metrics.replaysSkipped = d.world.metrics.replaysSkipped + .ofNat late.replayed ∧
      metrics.orderingViolations =
        d.world.metrics.orderingViolations + .ofNat late.orderingViolations.length := by
  induction n generalizing w d p with
  | zero => exact absurd hn (Nat.not_lt_zero _)
  | succ n ih =>
    intro drained late metrics
    cases hbatch : (s.select w.contract p.position?).take w.config.batchSize.toNat with
    | nil =>
      have hround : (w.round.run Desk.handler).run d = ((w, some .caughtUp), d) := by
        rw [run_round hd, hafter, hbatch, if_pos hstop]
        rfl
      have hmetrics : metrics = d.world.metrics := by
        simp only [metrics]
        rw [rounds, Program.run_bind_run, hround]
        rfl
      have hlate : late = (p.settled w.contract []).1 := by
        simp only [late, drained, MemorySource.drain, hbatch, List.flatten_nil]
      rw [hmetrics, hlate]
      exact ⟨(UInt64.add_zero _).symm, (UInt64.add_zero _).symm⟩
    | cons e b =>
      obtain ⟨d', hround, hcalm, hdata, hreplayed, hviolations⟩ :=
        run_round_of_cons hs hd (hafter ▸ hbatch)
      let settled := p.settled w.contract (e :: b)
      rw [← Partition.settled_undated, hp, Partition.settled_undated]
        at hround hdata hreplayed hviolations
      have hafter' : (w.advance settled.1).after = settled.2.position? := by
        change (settled.1.lastPosition <|> w.after) = _
        rw [hafter, ← Partition.position?_undated]
        exact p.undated.lastPosition_process_or w.contract _ .epoch
      obtain ⟨r, hr, hlater, hreached⟩ :=
        p.exists_position?_settled w.contract (List.cons_ne_nil e b)
      have hmem : e ∈ s.select w.contract p.position? :=
        List.mem_of_mem_take (hbatch ▸ List.mem_cons_self)
      have hn' : (s.select w.contract settled.2.position?).length < n :=
        hr ▸ MemorySource.length_select_lt hn hlater hmem (hreached e List.mem_cons_self)
      have hp' : (d'.world.store.partition w.contract).undated = settled.2.undated :=
        hdata.trans (p.undated_settled w.contract _).symm
      obtain ⟨hreplayed', hviolations'⟩ := ih (w := w.advance settled.1) hcalm hp' hafter' hstop hn'
      have hmetrics : metrics =
          ((((w.advance settled.1).rounds n).run Desk.handler).run d').2.world.metrics := by
        simp only [metrics]
        rw [rounds, Program.run_bind_run, hround]
      have hlate : late = settled.1.combine (settled.2.settled w.contract
          (s.drain w.contract w.config.batchSize.toNat n settled.2).flatten).1 := by
        simp only [late, drained, MemorySource.drain, hbatch, List.flatten_cons,
          Partition.settled_append, settled]
      rw [hmetrics, hlate]
      constructor
      · rw [hreplayed', hreplayed, BatchReport.combine, UInt64.ofNat_add, UInt64.add_assoc]
        rfl
      · rw [hviolations', hviolations, BatchReport.combine, List.length_append, UInt64.ofNat_add,
          UInt64.add_assoc]
        rfl

theorem perform_run_late {w : World MemoryStore MemorySource} (hw : w.Calm s)
    (hs : s = .ofEvents es) {config : Config} (hstop : config.stopWhenCaughtUp)
    (contract : ContractId) {limit : Nat}
    (hlimit : (s.select contract (w.store.partition contract).position?).length < limit) :
    let p := w.store.partition contract
    let late := (p.settled contract (s.drain contract config.batchSize.toNat limit p).flatten).1
    let metrics := (w.perform (run config contract limit)).2.metrics
    metrics.replaysSkipped = w.metrics.replaysSkipped + .ofNat late.replayed ∧
      metrics.orderingViolations =
        w.metrics.orderingViolations + .ofNat late.orderingViolations.length := by
  intro p late metrics
  let line := Line.info "worker started" [("contract", contract.address)]
  let d : Desk MemoryStore MemorySource := ⟨{ w with journal := line :: w.journal }, none⟩
  have hd : d.world.Calm s := ⟨hw.source_eq, hw.stop_eq, hw.commitFailures_eq⟩
  let started := start config contract p.position?
  have hmetrics :
      metrics = (((started.rounds limit).run Desk.handler).run d).2.world.metrics := by
    change ((((run config contract limit).run Desk.handler).run ⟨w, none⟩).2.world.metrics) = _
    rw [run, Program.run_bind_run, Job.retrying, Program.run_bind_run, RetryPolicy.run]
    cases config.retryPolicy.maxRetries.toNat <;> rfl
  rw [hmetrics]
  exact run_rounds_late (w := started) hs hd rfl rfl hstop hlimit

/-- How a worker that has caught up has passed on the sorted events `ahead`, in pages of `size`. One
batch of what it has passed on reports `part`, and one of everything reports `all`. -/
structure PassesOn (size : Nat) (ahead : List RawEvent) (part all : BatchReport)
    (before after : Metrics) (report : WorkerReport) : Prop where
  exit_eq : report.exit = .caughtUp
  batches_eq : report.batches = (pages size ahead).length
  events_eq : report.events = (pages size ahead).flatten.length
  replaysSkipped_eq : after.replaysSkipped = before.replaysSkipped + .ofNat part.replayed
  orderingViolations_eq :
    after.orderingViolations = before.orderingViolations + .ofNat part.orderingViolations.length
  /-- What is passed over would have been late. -/
  late_eq : part.replayed + part.orderingViolations.length + ahead.length =
    all.replayed + all.orderingViolations.length + (pages size ahead).flatten.length
  /-- No event is passed on twice. -/
  sublist : (pages size ahead).flatten.Sublist ahead
  /-- Of the events at each position the first ones are passed on. -/
  at_position : ∀ q,
    (pages size ahead).flatten.find? (·.position = q) = ahead.find? (·.position = q) ∧
      (pages size ahead).flatten.filter (·.position = q) <+: ahead.filter (·.position = q)
  /-- Everything is passed on if and only if no page ends between events of one position. -/
  all_iff : (pages size ahead).flatten = ahead ↔ ∀ page ∈ pages size ahead, ∀ e ∈ page,
    ahead.filter (·.position = e.position) = page.filter (·.position = e.position)
  /-- So it is if each position has one event. -/
  all_of_rising : Rising ahead → (pages size ahead).flatten = ahead

/-- A worker that has caught up has passed on the pages of what its source had after the checkpoint,
whatever the source has, and counts what one batch of these pages reports. -/
theorem run_delivers {w : World MemoryStore MemorySource} (hw : w.Calm (.ofEvents es))
    (contract : ContractId) :
    let checkpoint := (w.store.partition contract).position?
    let ahead := MemorySource.sortEvents
      ((es.filter (·.contract = contract)).filter (RawEvent.isAhead checkpoint))
    ∃ all, (w.transact contract (Batch.process contract ahead)).1 = .ok all ∧
      ∀ (config : Config) (limit : Nat), config.batchSize ≠ 0 → config.stopWhenCaughtUp →
        ahead.length < limit →
          let size := config.batchSize.toNat
          let worked := w.perform (run config contract limit)
          ∃ report part, worked.1 = some report ∧
            (w.transact contract (Batch.process contract (pages size ahead).flatten)).1 =
              .ok part ∧
            PassesOn size ahead part all w.metrics worked.2.metrics report := by
  intro checkpoint ahead
  let p := w.store.partition contract
  have hahead : (MemorySource.ofEvents es).select contract checkpoint = ahead := by
    rw [MemorySource.select, MemorySource.eventsOf_ofEvents]
    rfl
  have hsorted : Sorted ahead := MemorySource.pairwise_sortEvents _
  have hcontract : ∀ e ∈ ahead, e.contract = contract := fun e he =>
    MemorySource.contract_of_mem_select (hahead.symm ▸ he)
  obtain ⟨hall, -, -⟩ := World.transact_process_settled hcontract hw.commitFailures_eq
  refine ⟨_, hall, fun config limit hsize hstop hlimit => ?_⟩
  intro size worked
  have hsize' : size ≠ 0 := by simpa [size, ← UInt64.toNat_inj] using hsize
  have hsublist := hsorted.flatten_pages_sublist hsize'
  have hcontract' : ∀ e ∈ (pages size ahead).flatten, e.contract = contract := fun e he =>
    hcontract e (hsublist.subset he)
  obtain ⟨honce, -, -⟩ := World.transact_process_settled hcontract' hw.commitFailures_eq
  have hselected : ((MemorySource.ofEvents es).select contract checkpoint).length < limit := by
    rwa [hahead]
  have hdrain : (MemorySource.ofEvents es).drain contract size limit p = pages size ahead := by
    rw [MemorySource.drain_eq_pages hsize' hselected]
    exact congrArg (pages _) hahead
  obtain ⟨report, o, hreport, hexit, htells, hcommitted⟩ :=
    perform_run hw rfl hsize hstop contract hselected
  obtain ⟨hreplayed, hviolations⟩ := perform_run_late hw rfl hstop contract hselected
  rw [hdrain] at hcommitted hreplayed hviolations
  exact ⟨report, _, hreport, honce, {
    exit_eq := hexit
    batches_eq := by rw [htells.batches_eq, hcommitted]
    events_eq := by rw [htells.events_eq, hcommitted, List.length_flatten]
    replaysSkipped_eq := hreplayed
    orderingViolations_eq := hviolations
    late_eq := p.late_flatten_pages contract hsorted hsize'
    sublist := hsublist
    at_position q :=
      ⟨hsorted.find?_flatten_pages hsize' q, hsorted.filter_flatten_prefix hsize' q⟩
    all_iff := hsorted.flatten_pages_eq_iff hsize'
    all_of_rising h := h.flatten_pages hsize' }⟩

/-- A source has two different events at one position. In batches of one the second event is passed
over; in batches of two it is reported. -/
theorem run_delivers_of_conflict :
    let contract : ContractId := ⟨"C"⟩
    let event (topic : String) : RawEvent := ⟨contract, topic, .null, 1, .epoch, .replicate 0, 0⟩
    let es := [event "NOTE", event "OTHER"]
    let w : World MemoryStore MemorySource := .start .empty (.ofEvents es)
    let worked (size : UInt64) :=
      let config : Config := { Config.default with batchSize := size, stopWhenCaughtUp := true }
      w.perform (run config contract 3)
    (∃ report, (worked 1).1 = some report ∧ report.exit = .caughtUp ∧ report.events = 1 ∧
      (worked 1).2.metrics.orderingViolations = 0) ∧
    ∃ report, (worked 2).1 = some report ∧ report.exit = .caughtUp ∧ report.events = 2 ∧
      (worked 2).2.metrics.orderingViolations = 1 := by
  intro contract event es w worked
  have hw : w.Calm (.ofEvents es) := ⟨rfl, rfl, rfl⟩
  have hahead : MemorySource.sortEvents ((es.filter (·.contract = contract)).filter
      (RawEvent.isAhead (w.store.partition contract).position?)) = es := by
    have hall : (es.filter (·.contract = contract)).filter
        (RawEvent.isAhead (w.store.partition contract).position?) = es := by decide +kernel
    rw [hall]
    exact List.mergeSort_of_pairwise (by decide +kernel)
  -- Both events are at one position, so nothing is left after the first page.
  have hrest : pages 1 ([event "OTHER"].filter ((event "NOTE").position < ·.position)) = [] ∧
      pages 2 ([event "OTHER"].filter ((event "NOTE").position < ·.position)) = [] := by
    have hnil : [event "OTHER"].filter ((event "NOTE").position < ·.position) = [] := by
      decide +kernel
    simp only [hnil, pages, and_self]
  have hone : pages 1 es = [[event "NOTE"]] := by
    rw [pages]
    exact congrArg _ hrest.1
  have htwo : pages 2 es = [es] := by
    rw [pages]
    exact congrArg _ hrest.2
  obtain ⟨all, -, hdelivers⟩ := run_delivers hw contract
  rw [hahead] at hdelivers
  have hworked (size : UInt64) (hsize : size ≠ 0) {batches : List (List RawEvent)} {n : Nat}
      (hbatches : pages size.toNat es = batches)
      (hn : (w.transact contract (Batch.process contract batches.flatten)).1.toOption.map
        (·.orderingViolations.length) = some n) :
      ∃ report, (worked size).1 = some report ∧ report.exit = .caughtUp ∧
        report.events = batches.flatten.length ∧
        (worked size).2.metrics.orderingViolations = 0 + .ofNat n := by
    obtain ⟨report, part, hreport, honce, hpasses⟩ :=
      hdelivers { Config.default with batchSize := size, stopWhenCaughtUp := true } 3 hsize rfl
        (by decide)
    subst hbatches
    obtain rfl : part.orderingViolations.length = n := by
      simpa [honce, Except.toOption] using hn
    exact ⟨report, hreport, hpasses.exit_eq, hpasses.events_eq, hpasses.orderingViolations_eq⟩
  have hfirst :
      (w.transact contract (Batch.process contract [[event "NOTE"]].flatten)).1.toOption.map
        (·.orderingViolations.length) = some 0 := by decide +kernel
  have hboth :
      (w.transact contract (Batch.process contract [es].flatten)).1.toOption.map
        (·.orderingViolations.length) = some 1 := by decide +kernel
  exact ⟨hworked 1 (by decide) hone hfirst, hworked 2 (by decide) htwo hboth⟩

end Worker

end EventIndex
