import EventIndex.Proofs.Batch.Growth
import EventIndex.Proofs.Batch.Reach
import EventIndex.Proofs.Delivery.Chunks
import EventIndex.Proofs.Indexer.Retries
import EventIndex.Proofs.Worker.Round
import Mathlib.Algebra.GroupWithZero.Nat
import Mathlib.Logic.Relation

/-! # What a worker reports

A worker may end in several ways, and at any point of its work. Whenever it does, its report tells
what has been committed. -/

namespace EventIndex

open Program

/-! ## Reports and what was committed -/

/-- The report tells what has been committed for the contract from the data `p₀` on: it counts the
batches and their events, its position is that of the checkpoint, and the data are what these
batches give. -/
structure WorkerReport.Tells (contract : ContractId) (p₀ : Partition) (report : WorkerReport)
    (p : Partition) (o : Observed) : Prop where
  contract_eq : report.contract = contract
  batches_eq : report.batches = o.committed.length
  events_eq : report.events = (o.committed.map List.length).sum
  lastPosition_eq : report.lastPosition = p.position?
  contract_of_mem : ∀ b ∈ o.committed, ∀ e ∈ b, e.contract = contract
  undated_eq : p.undated = (p₀.settledAll contract o.committed).2
  getElem?_log : ∀ (position : Position) (x : LogEntry), p₀.log[position]? = some x →
    p.log[position]? = some x

/-- A worker that has paused gives the last error that was seen. If that one may pass, it says that
all attempts have been made. -/
def Exit.Tells (policy : RetryPolicy) (contract : ContractId) (o : Observed) (exit : Exit) : Prop :=
  ∀ e, exit = .paused e → ∃ cause, o.failure = some cause ∧
    ((∃ attempts last, e = .retriesExhausted contract attempts last) ↔ cause.isRetriable) ∧
    (cause.isRetriable → e = .retriesExhausted contract (policy.maxRetries.toNat + 1) cause) ∧
    (¬ cause.isRetriable → e = cause)

def Worker.report (w : Worker) (exit : Exit) : WorkerReport :=
  ⟨w.contract, exit, w.batches, w.events, w.after⟩

variable {s : Surroundings} {contract : ContractId} {p₀ p : Partition} {o : Observed}

theorem Exit.tells_of_fails {policy : RetryPolicy} {cause : IndexerError}
    (h : s.Fails contract cause) {fetched : List RawEvent} {committed : List (List RawEvent)} :
    (paused (policy.givenUp contract cause)).Tells policy contract
      ⟨fetched, committed, some cause⟩ := by
  rintro _ ⟨⟩
  refine ⟨cause, rfl, ?_⟩
  simp only [RetryPolicy.givenUp, IndexerError.ofFailure]
  by_cases hretriable : cause.isRetriable
  · simp [hretriable]
  · simp only [hretriable]
    refine ⟨iff_of_false ?_ Bool.false_ne_true, by simp, by simp⟩
    rintro ⟨attempts, last, rfl⟩
    cases h

namespace Worker

variable {w : Worker}

theorem tells_start (config : Config) (contract : ContractId) (p₀ : Partition) (exit : Exit) :
    ((start config contract p₀.position?).report exit).Tells contract p₀ p₀ .nothing where
  contract_eq := rfl
  batches_eq := rfl
  events_eq := rfl
  lastPosition_eq := rfl
  contract_of_mem := by simp [Observed.nothing]
  undated_eq := rfl
  getElem?_log _ _ h := h

theorem tells_advance {exit exit' : Exit} (h : (w.report exit).Tells contract p₀ p o)
    {es : List RawEvent} {times : List Timestamp} {now : Timestamp} {failure : Option IndexerError}
    (hes : ∀ e ∈ es, e.contract = w.contract) (htimes : times.length = es.length) :
    let processed := p.process w.contract (es.zip times) now
    ((w.advance processed.1).report exit').Tells contract p₀ processed.2
      ⟨es, o.committed ++ [es], failure⟩ := by
  obtain ⟨rfl, hbatches, hevents, hposition, hcontract, hdata, hlog⟩ := h
  intro processed
  refine ⟨rfl, ?_, ?_, ?_, ?_, ?_, ?_⟩
  · rw [List.length_append, ← hbatches]
    rfl
  · have hseen : processed.1.eventsSeen = es.length := by
      rw [Partition.eventsSeen_process, List.length_zip, htimes, min_self]
    rw [List.map_append, List.sum_append, ← hevents]
    simp only [report, advance, hseen, List.map_cons, List.map_nil, List.sum_singleton]
  · have hafter : w.after = p.position? := hposition
    change (processed.1.lastPosition <|> w.after) = _
    rw [hafter]
    exact p.lastPosition_process_or w.contract (es.zip times) now
  · exact List.forall_mem_append.mpr ⟨hcontract, by simpa [report] using hes⟩
  · have hprocessed := congrArg Prod.snd (p.process_undated w.contract htimes now)
    rw [Partition.settledAll_concat, ← hdata, Partition.settled_undated]
    exact hprocessed
  · intro position x hx
    exact Partition.getElem?_log_process (hlog position x hx) w.contract (es.zip times) now

/-- Neither the exit nor anything else that was seen matters for what has been committed. -/
theorem tells_congr {exit : Exit} (h : (w.report exit).Tells contract p₀ p o) (exit' : Exit)
    {o' : Observed} (ho : o'.committed = o.committed) :
    (w.report exit').Tells contract p₀ p o' := by
  obtain ⟨hcontract, hbatches, hevents, hposition, hmem, hdata, hlog⟩ := h
  rw [← ho] at hbatches hevents hmem hdata
  exact ⟨hcontract, hbatches, hevents, hposition, hmem, hdata, hlog⟩

theorem tells_round {exit : Exit} (h : (w.report exit).Tells contract p₀ p o)
    {next : Worker × Option Exit} {v : View} (hround : Round s w p o next v) (exit' : Exit) :
    (next.1.report exit').Tells contract p₀ v.data v.seen ∧ v.tx = none ∧
      next.1.config = w.config ∧
      ∀ x, next.2 = some x → x.Tells w.config.retryPolicy contract v.seen := by
  cases hround with
  | stopped hstops =>
    refine ⟨tells_congr h exit' rfl, rfl, rfl, ?_⟩
    rintro _ ⟨⟩ e ⟨⟩
  | failed hfails =>
    refine ⟨tells_congr h exit' rfl, rfl, rfl, ?_⟩
    rintro _ ⟨⟩
    obtain rfl : w.contract = contract := h.contract_eq
    exact Exit.tells_of_fails hfails
  | drained hfetches =>
    refine ⟨tells_congr h exit' rfl, rfl, rfl, ?_⟩
    intro x hx
    dsimp only at hx
    split at hx
    · rintro e rfl
      cases hx
    · cases hx
  | committed hfetches hne hes htimes =>
    refine ⟨tells_advance h hes htimes, rfl, rfl, ?_⟩
    rintro _ ⟨⟩

/-- However many rounds a worker makes, it reports what it has committed by then. -/
theorem wp_rounds (h : ∀ exit, (w.report exit).Tells contract p₀ p o) (n : Nat) :
    (w.rounds n).wp (Effect.watched contract s)
      (fun r v => ∀ report, r = some report → report.Tells contract p₀ v.data v.seen ∧
        report.exit.Tells w.config.retryPolicy contract v.seen) (View.mk p none o) := by
  induction n generalizing w p o with
  | zero =>
    rintro _ ⟨⟩
  | succ n ih =>
    obtain rfl : w.contract = contract := (h .stopped).contract_eq
    rw [rounds, wp_bind]
    refine wp_mono (Effect.watched_mono _ s) _ ?_ (w.wp_round p o)
    rintro ⟨w', _ | exit⟩ ⟨p', tx, o'⟩ hround
    · have hnext := fun exit => tells_round (h .stopped) hround exit
      obtain ⟨-, rfl, hconfig, -⟩ := hnext .stopped
      rw [← hconfig]
      exact ih fun exit => (hnext exit).1
    · obtain ⟨htells, -, -, hexit⟩ := tells_round (h .stopped) hround exit
      rw [wp_map, wp_finish]
      rintro _ ⟨⟩
      exact ⟨htells, hexit exit rfl⟩

theorem wp_run (config : Config) (contract : ContractId) (limit : Nat) (p₀ : Partition) :
    (run config contract limit).wp (Effect.watched contract s)
      (fun r v => ∀ report, r = some report → report.Tells contract p₀ v.data v.seen ∧
        report.exit.Tells config.retryPolicy contract v.seen) (View.mk p₀ none .nothing) := by
  rw [run, wp_bind]
  apply Job.wp_resume
  exact wp_rounds (tells_start config contract p₀) limit

end Worker

/-! ## A worker in its surroundings -/

/-- The worker of a contract in the middle of its work, and what has been seen of it. -/
structure Shift (ρ : Type) where
  world : World MemoryStore ρ
  worker : Waiting MemoryStore (Option WorkerReport)
  seen : Observed

namespace Shift

variable {ρ : Type} [EventSource ρ]

def start (w : World MemoryStore ρ) (config : Config) (contract : ContractId) (limit : Nat) :
    Shift ρ :=
  ⟨w, ⟨Worker.run config contract limit, none⟩, .nothing⟩

def work (contract : ContractId) (s : Shift ρ) : Shift ρ :=
  let next := (s.worker.job.step (Desk.watching contract)).run (⟨s.world, s.worker.tx⟩, s.seen)
  ⟨next.2.1.world, ⟨next.1, next.2.1.tx⟩, next.2.2⟩

def finish (contract : ContractId) (s : Shift ρ) : Shift ρ :=
  let ended := (s.worker.job.run (Desk.watching contract)).run (⟨s.world, s.worker.tx⟩, s.seen)
  ⟨ended.2.1.world, ⟨.done ended.1, ended.2.1.tx⟩, ended.2.2⟩

/-- Between the steps of the worker anything may happen, but the committed data of its contract stay
as they are: other contracts are worked on, the source changes, commits are made to fail, a stop is
requested. -/
inductive Step (contract : ContractId) : Shift ρ → Shift ρ → Prop
  | work (s : Shift ρ) : Step contract s (s.work contract)
  | surroundings {s : Shift ρ} {world : World MemoryStore ρ}
    (hdata : world.store.partition contract = s.world.store.partition contract) :
    Step contract s { s with world := world }

theorem reaches_finish (contract : ContractId) (s : Shift ρ) :
    Relation.ReflTransGen (Step contract) s (s.finish contract) := by
  obtain ⟨world, ⟨job, tx⟩, seen⟩ := s
  induction job generalizing world tx seen with
  | done a => exact .refl
  | note line job ih | pause ms job ih => exact .head (.work _) (ih _ _ _)
  | now job ih | call op job ih => exact .head (.work _) (ih _ _ _ _)

private abbrev view (contract : ContractId) (s : Shift ρ) : View :=
  ⟨s.world.store.partition contract, s.worker.tx, s.seen⟩

private structure Sound (contract : ContractId) (Q : Option WorkerReport → View → Prop)
    (s : Shift ρ) : Prop where
  contract_eq : ∀ w : WriteSet, s.worker.tx = some w → w.contract = contract
  wp_job : s.worker.job.wp (Effect.watched contract .any) Q (s.view contract)

private theorem Sound.step {contract : ContractId} {Q : Option WorkerReport → View → Prop}
    {s s' : Shift ρ} (h : Sound contract Q s) (hstep : Step contract s s') :
    Sound contract Q s' := by
  cases hstep with
  | work =>
    have hshows : Desk.Shows contract s.world.store (fun _ => True) ⟨s.world, s.worker.tx⟩
        (s.view contract) := ⟨rfl, rfl, h.contract_eq, trivial, fun _ _ => rfl⟩
    have hobeys := watching_obeys (ρ := ρ) (Surroundings.describe_any contract) s.world.store
    obtain ⟨⟨data, tx, seen⟩, ⟨⟨hdata, htx, hcontract, -, -⟩, hseen⟩, hjob⟩ :=
      step_of_wp hobeys s.worker.job (s := (⟨s.world, s.worker.tx⟩, s.seen)) ⟨hshows, rfl⟩ h.wp_job
    refine ⟨hcontract, ?_⟩
    dsimp only at hdata htx hseen
    subst hdata htx hseen
    exact hjob
  | surroundings hdata =>
    refine ⟨h.contract_eq, ?_⟩
    have hjob := h.wp_job
    simp only [view, ← hdata] at hjob
    exact hjob

private theorem Sound.steps {contract : ContractId} {Q : Option WorkerReport → View → Prop}
    {s s' : Shift ρ} (h : Sound contract Q s)
    (hsteps : Relation.ReflTransGen (Step contract) s s') : Sound contract Q s' := by
  induction hsteps with
  | refl => exact h
  | tail _ hstep ih => exact ih.step hstep

/-- Whenever and however a worker ends, whatever the data were and whatever happens meanwhile, its
report tells the truth. It counts the transactions that were committed and the events in these
batches, and gives the position of the committed checkpoint. The committed data of the contract are
what the committed batches give when they are processed in order, but for dates, so there is nothing
of a batch that made the worker pause. If it has paused, this was because of the last error; and if
that one may pass, the worker says that the retries are used up. -/
theorem report_tells {w : World MemoryStore ρ} {config : Config} {contract : ContractId}
    {limit : Nat} {s : Shift ρ}
    (h : Relation.ReflTransGen (Step contract) (start w config contract limit) s)
    {report : WorkerReport} (hended : s.worker.job = .done (some report)) :
    let data := s.world.store.partition contract
    let again := (w.refusing 0).processAll contract s.seen.committed
    report.contract = contract ∧
      report.batches = s.seen.committed.length ∧
      report.events = (s.seen.committed.map List.length).sum ∧
      report.lastPosition = data.checkpoint.map Checkpoint.position ∧
      (∀ answer ∈ again.1, ∃ r, answer = .ok r) ∧
      data.undated = (again.2.store.partition contract).undated ∧
      ∀ e, report.exit = .paused e → ∃ cause, s.seen.failure = some cause ∧
        ((∃ attempts last, e = .retriesExhausted contract attempts last) ↔ cause.isRetriable) ∧
        (cause.isRetriable →
          e = .retriesExhausted contract (config.maxRetries.toNat + 1) cause) ∧
        (¬ cause.isRetriable → e = cause) := by
  intro data again
  have hstart : Sound contract (fun r v => ∀ report, r = some report →
      report.Tells contract (w.store.partition contract) v.data v.seen ∧
        report.exit.Tells config.retryPolicy contract v.seen) (start w config contract limit) :=
    ⟨by simp [start], Worker.wp_run config contract limit _⟩
  have hjob := (hstart.steps h).wp_job
  rw [hended] at hjob
  obtain ⟨htells, hexit⟩ := hjob report rfl
  obtain ⟨hanswers, hdata⟩ :=
    World.processAll_settled (w := w.refusing 0) htells.contract_of_mem rfl
  refine ⟨htells.contract_eq, htells.batches_eq, htells.events_eq, htells.lastPosition_eq, ?_,
    htells.undated_eq.trans hdata.symm, hexit⟩
  intro answer hanswer
  rw [hanswers] at hanswer
  obtain ⟨r, -, rfl⟩ := List.mem_map.mp hanswer
  exact ⟨r, rfl⟩

/-- A batch is committed, and then the source is unavailable. -/
theorem report_tells_of_unavailable :
    let contract : ContractId := ⟨"C"⟩
    let event : RawEvent := ⟨contract, "NOTE", .null, 1, .epoch, .replicate 0, 0⟩
    let unavailable : SourceError := .unavailable "down"
    let source : PlannedSource := { PlannedSource.empty false with
      plan := [.ok [event], .error unavailable, .error unavailable] }
    let config : Config := { Config.default with maxRetries := 1 }
    let s := (start (.start .empty source) config contract 5).finish contract
    ∃ report : WorkerReport,
      Relation.ReflTransGen (Step contract) (start (.start .empty source) config contract 5) s ∧
      s.worker.job = .done (some report) ∧
      s.seen.committed = [[event]] ∧
      report.batches = 1 ∧ report.events = 1 ∧ report.lastPosition = some event.position ∧
      report.exit = .paused (.retriesExhausted contract 2 (.source unavailable)) := by
  intro contract event unavailable source config s
  let first : Shift PlannedSource := start (.start .empty source) config contract 5
  have hsteps : Relation.ReflTransGen (Step contract) first s := reaches_finish contract first
  let result : Option WorkerReport :=
    ((first.worker.job.run (Desk.watching contract)).run (⟨first.world, none⟩, .nothing)).1
  have hpaused : result.any WorkerReport.isPaused := by decide +kernel
  have hcommitted : s.seen.committed = [[event]] := by decide +kernel
  have hfailure : s.seen.failure = some (.source unavailable) := by decide +kernel
  have hcheckpoint : (s.world.store.partition contract).checkpoint.map Checkpoint.position =
      some event.position := by decide +kernel
  obtain ⟨report, hresult, hreport⟩ := (Option.any_eq_true _ _).mp hpaused
  have hended : s.worker.job = .done (some report) := congrArg Program.done hresult
  obtain ⟨-, hbatches, hevents, hposition, -, -, hexit⟩ := report_tells hsteps hended
  refine ⟨report, hsteps, hended, hcommitted, ?_, ?_, hposition.trans hcheckpoint, ?_⟩
  · rw [hbatches, hcommitted]
    rfl
  · rw [hevents, hcommitted]
    rfl
  · cases hpause : report.exit with
    | stopped | caughtUp => simp [WorkerReport.isPaused, hpause] at hreport
    | paused e =>
      obtain ⟨cause, hcause, -, hexhausted, -⟩ := hexit e hpause
      obtain rfl := Option.some.inj (hcause.symm.trans hfailure)
      rw [hexhausted rfl]
      rfl

end Shift

end EventIndex
