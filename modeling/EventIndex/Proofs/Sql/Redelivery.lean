import EventIndex.Proofs.Delivery.Again
import EventIndex.Proofs.Sql.Exchange
import EventIndex.Proofs.Sql.Record
import Mathlib.Tactic.ByContra

/-! # Events delivered again to a database

The database keeps the time of an event in whole microseconds, so that the log may give back another
event than was recorded. An event that is delivered again is recognised if it is given back as it
was; else it is taken for a second event at the position of the first. -/

namespace EventIndex

open Program Sql

/-! ## Whole microseconds -/

theorem Time.Date.exists_next? {d : Time.Date} (h : d.year < 262142) :
    ∃ next, d.next? = some next := by
  have hmin := d.min_year
  have hmonth := d.month_mem
  have hday := d.day_mem
  have hfirst (year : Int) (month : Nat) : 1 ≤ Time.daysIn year month := by
    unfold Time.daysIn
    repeat' split
    all_goals omega
  rw [next?]
  split
  · exact ⟨_, dif_pos ⟨⟨hmin, by omega⟩, hmonth, by omega, by omega⟩⟩
  · split
    · exact ⟨_, dif_pos ⟨⟨hmin, by omega⟩, ⟨by omega, by omega⟩, Nat.le_refl 1, hfirst _ _⟩⟩
    · exact ⟨_, dif_pos ⟨⟨by omega, by omega⟩, by omega, Nat.le_refl 1, hfirst _ _⟩⟩

theorem Timestamp.year_lt_of_elapsed_lt {t : Timestamp} (h : t.elapsed < millennium.elapsed) :
    t.date.year < 2000 := by
  have hmillennium : millennium.elapsed = 63082368000000000000 := by decide
  have hday := t.date.day_mem
  rw [hmillennium, elapsed, Time.Date.dayNumber, Time.Date.daysBefore] at h
  omega

/-- Apart from leap seconds, the instants that are kept are those without further digits. -/
theorem Timestamp.toMicros_eq_self_iff {t : Timestamp} (h : t.nanos < 1000000000) :
    t.toMicros = t ↔ t.nanos % 1000 = 0 := by
  have hsecond := t.second_lt
  constructor
  · intro heq
    by_contra hdigits
    unfold toMicros at heq
    dsimp only at heq
    have hnanos := congrArg Timestamp.nanos heq
    by_cases hup : t.elapsed < millennium.elapsed ∧ t.nanos % 1000 ≠ 0
    · have hyear := year_lt_of_elapsed_lt hup.1
      obtain ⟨next, hnext⟩ := Time.Date.exists_next? (d := t.date) (by omega)
      simp only [if_pos hup, hnext] at hnanos
      split at hnanos <;> dsimp only at hnanos <;> omega
    · -- What is cut off downwards does not go on to the next second.
      have hless : t.second + (t.nanos / 1000 + 0) / 1000000 < 86400 := by omega
      simp only [if_neg hup, dif_pos hless] at hnanos
      omega
  · intro hdigits
    have hup : ¬ (t.elapsed < millennium.elapsed ∧ t.nanos % 1000 ≠ 0) :=
      fun hup => hup.2 hdigits
    have hless : t.nanos / 1000 / 1000000 = 0 := by omega
    have hsame : t.nanos / 1000 % 1000000 * 1000 = t.nanos := by omega
    simp only [toMicros, if_neg hup, Nat.add_zero, hless, hsame, dif_pos hsecond]

/-! ## Events given back -/

/-- The event as a database gives it back. -/
def RawEvent.stored (e : RawEvent) : RawEvent :=
  { e with ledgerClosedAt := e.ledgerClosedAt.toMicros }

theorem RawEvent.stored_eq_self_iff {e : RawEvent} (h : e.ledgerClosedAt.nanos < 1000000000) :
    e.stored = e ↔ e.ledgerClosedAt.nanos % 1000 = 0 := by
  rw [← Timestamp.toMicros_eq_self_iff h]
  constructor
  · exact congrArg RawEvent.ledgerClosedAt
  · intro hmicros
    rw [RawEvent.stored, hmicros]

/-- The row is what the database keeps of an entry that records the event. -/
def LogEntry.KeptIn (e : RawEvent) (row : Row) : Prop :=
  ∃ decoded reason now, LogEntry.relation.Carries (observed e decoded reason now).values row

theorem LogEntry.KeptIn.ofRow {e : RawEvent} {row : Row} (h : LogEntry.KeptIn e row) :
    ∃ x, LogEntry.ofRow row = .ok x ∧ x.toRaw = e.stored := by
  obtain ⟨decoded, reason, now, hcarries⟩ := h
  exact ⟨_, LogEntry.ofRow_of_carries hcarries, rfl⟩

namespace BatchReport

/-- The report after further events that are logged and not after the checkpoint. -/
def redelivered (r : BatchReport) (checkpoint : Position) (es : List RawEvent) : BatchReport :=
  { r with
    eventsSeen := r.eventsSeen + es.length
    replayed := r.replayed + es.countP fun e => e.stored = e
    orderingViolations := r.orderingViolations ++
      (es.filter fun e => e.stored ≠ e).map fun e => ⟨.of e, checkpoint, true⟩ }

variable (r : BatchReport) (checkpoint : Position) (e : RawEvent) (es : List RawEvent)

theorem redelivered_nil : r.redelivered checkpoint [] = r := by
  simp [redelivered]

variable {e} in
theorem redelivered_of_stored (h : e.stored = e) :
    r.redelivered checkpoint [e] =
      { r with eventsSeen := r.eventsSeen + 1, replayed := r.replayed + 1 } := by
  simp [redelivered, h]

variable {e} in
theorem redelivered_of_not_stored (h : e.stored ≠ e) :
    r.redelivered checkpoint [e] =
      { r with
        eventsSeen := r.eventsSeen + 1
        orderingViolations := r.orderingViolations ++ [⟨.of e, checkpoint, true⟩] } := by
  simp [redelivered, h]

theorem redelivered_cons :
    r.redelivered checkpoint (e :: es) =
      (r.redelivered checkpoint [e]).redelivered checkpoint es := by
  have h : e :: es = [e] ++ es := rfl
  rw [h]
  simp only [redelivered, List.length_append, List.countP_append, List.filter_append,
    List.map_append, List.append_assoc, Nat.add_assoc]

/-- The report of a batch of logged events that are not after the checkpoint. -/
def ofRedelivery (c : Checkpoint) (es : List RawEvent) : BatchReport :=
  { empty c.contract with
    eventsSeen := es.length
    replayed := es.countP fun e => e.stored = e
    orderingViolations :=
      (es.filter fun e => e.stored ≠ e).map fun e => ⟨.of e, c.position, true⟩
    lastPosition := some c.position }

theorem ofRedelivery_eq (c : Checkpoint) (es : List RawEvent) :
    ofRedelivery c es =
      { (empty c.contract).redelivered c.position es with lastPosition := some c.position } := by
  simp [ofRedelivery, redelivered, empty]

end BatchReport

theorem Sql.Brought.first_singleton {α : Type} {ofRow : Row → Except RowError α} {row : Row} {a : α}
    (h : ofRow row = .ok a) : Brought.first ofRow [row] = .ok (some a) := by
  change some <$> ofRow row = _
  rw [h]
  rfl

/-! ## Answers about logged events -/

section Answers

variable {δ ρ : Type} [Server δ] [EventSource ρ]

/-- How a database replies that has logged the events and come to the checkpoint. In the states of
`I` it opens and commits transactions, and brings the row of the checkpoint and the row at the
position of each event. -/
structure Sql.Logged (I : δ → Prop) (c : Checkpoint) (es : List RawEvent) : Prop where
  start : Brings I (.plain "BEGIN") fun _ => True
  commit : Brings I (.plain "COMMIT") fun _ => True
  checkpoint : ∀ st ∈ Request.checkpoint.statements c.contract, Brings I st fun rows =>
    ∃ row, rows = [row] ∧ Checkpoint.relation.Carries c.values row
  entry : ∀ e ∈ es, ∀ st ∈ (Request.entry e.position).statements c.contract, Brings I st fun rows =>
    ∃ row, rows = [row] ∧ LogEntry.KeptIn e row

/-- What a batch of logged events may ask, and what it is answered. The state is whether a
transaction is open. -/
def Effect.redelivery (c : Checkpoint) (es : List RawEvent) : Rule Effect.signature Bool
  | .start contract, Q, _ => contract = c.contract ∧ Q (.ok ()) true
  | .request .checkpoint, Q, opened =>
    opened ∧ Q (.ok (some { c with updatedAt := c.updatedAt.toMicros })) opened
  | .request (.entry p), Q, opened =>
    opened ∧ ∃ e ∈ es, e.position = p ∧ ∀ x, x.toRaw = e.stored → Q (.ok (some x)) opened
  | .commit, Q, opened => opened ∧ Q (.ok ()) false
  | .recordBatch .., Q, opened => Q () opened
  | _, _, _ => False

theorem Effect.redelivery_mono (c : Checkpoint) (es : List RawEvent) :
    (Effect.redelivery c es).Mono := by
  intro op Q Q' opened hQ hrule
  cases op with
  | start contract => exact ⟨hrule.1, hQ _ _ hrule.2⟩
  | commit => exact ⟨hrule.1, hQ _ _ hrule.2⟩
  | recordBatch report nanos => exact hQ _ _ hrule
  | request r =>
    cases r with
    | checkpoint => exact ⟨hrule.1, hQ _ _ hrule.2⟩
    | entry p =>
      obtain ⟨hopened, e, he, hp, hanswer⟩ := hrule
      exact ⟨hopened, e, he, hp, fun x hx => hQ _ _ (hanswer x hx)⟩
    | _ => exact hrule.elim
  | _ => exact hrule.elim

/-- The server is in one of the states, the connection is open, and so is the transaction. -/
def Desk.Attends (I : δ → Prop) (contract : ContractId) (d : Desk (Database δ) ρ) (opened : Bool) :
    Prop :=
  I d.world.store.server ∧ d.world.store.link = .present ∧
    (opened → d.tx = some ⟨contract, false⟩)

variable {I : δ → Prop} {c : Checkpoint} {es : List RawEvent}

theorem Desk.answer_request_of_brings {d : Desk (Database δ) ρ} {contract : ContractId}
    (hd : d.Attends I contract true) {r : Request} {st : Statement} {P : List Row → Prop}
    {A : r.Answer → Prop} (hst : r.statements contract = [st]) (hbrings : Brings I st P)
    (hread : ∀ rows, P rows → ∃ a, r.readAnswer contract [rows] = .ok a ∧ A a) :
    ∃ a, (d.answer (.request r)).1 = .ok a ∧ A a ∧
      (d.answer (.request r)).2.Attends I contract true := by
  obtain ⟨world, tx⟩ := d
  obtain ⟨hI, hlink, htx⟩ := hd
  obtain rfl : tx = some ⟨contract, false⟩ := htx rfl
  obtain ⟨rows, hexecute, hrows, hI'⟩ := hbrings _ hI
  obtain ⟨a, ha, hA⟩ := hread rows hrows
  have hanswer : Store.request r (⟨contract, false⟩ : Sql.Transaction) world.store =
      (.ok a, ⟨contract, false⟩, world.store.after st) := by
    refine (Database.request_of_rows rfl hst hexecute).trans ?_
    rw [ha]
    rfl
  simp only [Desk.answer, hanswer]
  exact ⟨a, rfl, hA, hI', hlink, fun _ => rfl⟩

theorem Sql.Logged.answer (h : Logged I c es) {d : Desk (Database δ) ρ} {opened : Bool}
    (hd : d.Attends I c.contract opened) (op : Effect) {Q : op.Answer → Bool → Prop}
    (hQ : Effect.redelivery c es op Q opened) :
    ∃ opened', (d.answer op).2.Attends I c.contract opened' ∧ Q (d.answer op).1 opened' := by
  cases op with
  | start contract =>
    obtain ⟨rfl, hQ⟩ := hQ
    obtain ⟨hI, hlink, -⟩ := hd
    obtain ⟨rows, hexecute, -, hI'⟩ := h.start _ hI
    have hanswer := Database.start_of_rows c.contract hlink hexecute
    refine ⟨true, ?_⟩
    simp only [Desk.answer, hanswer]
    exact ⟨⟨hI', hlink, fun _ => rfl⟩, hQ⟩
  | commit =>
    obtain ⟨rfl, hQ⟩ := hQ
    obtain ⟨world, tx⟩ := d
    obtain ⟨hI, hlink, htx⟩ := hd
    obtain rfl : tx = some ⟨c.contract, false⟩ := htx rfl
    obtain ⟨rows, hexecute, -, hI'⟩ := h.commit _ hI
    have hopen : (⟨c.contract, false⟩ : Sql.Transaction).broken = false := rfl
    have hanswer := Database.commit_of_rows hopen hexecute
    refine ⟨false, ?_⟩
    simp only [Desk.answer, hanswer]
    exact ⟨⟨hI', hlink, fun h => by cases h⟩, hQ⟩
  | recordBatch report nanos => exact ⟨opened, hd, hQ⟩
  | request r =>
    cases r with
    | checkpoint =>
      obtain ⟨rfl, hQ⟩ := hQ
      have hread : ∀ rows : Brought,
          (∃ row, rows = [row] ∧ Checkpoint.relation.Carries c.values row) →
          ∃ a, Request.checkpoint.readAnswer c.contract [rows] = .ok a ∧
            a = some { c with updatedAt := c.updatedAt.toMicros } := by
        rintro _ ⟨row, rfl, hcarries⟩
        exact ⟨_, Brought.first_singleton (Checkpoint.ofRow_of_carries hcarries), rfl⟩
      obtain ⟨_, hanswer, rfl, hd'⟩ := Desk.answer_request_of_brings hd rfl
        (h.checkpoint _ List.mem_cons_self) hread
      exact ⟨true, hd', by rwa [hanswer]⟩
    | entry p =>
      obtain ⟨rfl, e, he, rfl, hQ⟩ := hQ
      have hread : ∀ rows : Brought, (∃ row, rows = [row] ∧ LogEntry.KeptIn e row) →
          ∃ a, (Request.entry e.position).readAnswer c.contract [rows] = .ok a ∧
            ∃ x : LogEntry, a = some x ∧ x.toRaw = e.stored := by
        rintro _ ⟨row, rfl, hkept⟩
        obtain ⟨x, hread, hx⟩ := hkept.ofRow
        exact ⟨_, Brought.first_singleton hread, x, rfl, hx⟩
      obtain ⟨_, hanswer, ⟨x, rfl, hx⟩, hd'⟩ := Desk.answer_request_of_brings hd rfl
        (h.entry e he _ List.mem_cons_self) hread
      exact ⟨true, hd', by rw [hanswer]; exact hQ x hx⟩
    | _ => exact hQ.elim
  | _ => exact hQ.elim

theorem Sql.Logged.obeys (h : Logged I c es) :
    (Desk.handler : Handler _ (StateM (Desk (Database δ) ρ))).Obeys (Effect.redelivery c es)
      (Desk.Attends I c.contract) where
  note _ _ _ hd := hd
  now _ _ hd := hd
  pause _ _ _ hd := hd
  answer op _ _ _ hd hQ := h.answer hd op hQ

end Answers

/-! ## Batches of logged events -/

def Request.redelivery (c : Checkpoint) (es : List RawEvent) : Rule Request.signature Bool :=
  fun r => Effect.redelivery c es (.request r)

namespace Batch

variable {c : Checkpoint} {es : List RawEvent}

theorem wp_lookup_redelivered {e : RawEvent} (he : e ∈ es)
    {Q : Except IndexerError (Option LogEntry) → Bool → Prop}
    (h : ∀ x, x.toRaw = e.stored → Q (.ok (some x)) true) :
    (ofSession (Log.lookup e.position)).run.wp (Request.redelivery c es) Q true := by
  rw [ofSession, wp_run_adapt]
  exact ⟨rfl, e, he, rfl, h⟩

/-- A logged event is dropped, as a replay if it is given back as it was. -/
theorem wp_drop_redelivered {e : RawEvent} (he : e ∈ es) (report : BatchReport)
    {Q : Except IndexerError BatchReport → Bool → Prop}
    (h : Q (.ok (report.redelivered c.position [e])) true) :
    (drop c.position e { report with eventsSeen := report.eventsSeen + 1 }).run.wp
      (Request.redelivery c es) Q true := by
  rw [drop, wp_run_bind]
  refine wp_lookup_redelivered he fun x hx => ?_
  have hrecords : (some x).any (·.records e) = decide (e.stored = e) := by
    rw [Option.any_some, LogEntry.records, hx]
  dsimp only
  rw [hrecords]
  by_cases hstored : e.stored = e
  · rw [if_pos (decide_eq_true hstored)]
    rwa [BatchReport.redelivered_of_stored _ _ hstored] at h
  · rw [if_neg (by simpa using hstored)]
    rwa [BatchReport.redelivered_of_not_stored _ _ hstored] at h

theorem wp_take_redelivered {e : RawEvent} (he : e ∈ es) (hcontract : e.contract = c.contract)
    {tracker : Tracker} (hreached : tracker.reached? e.position = some c.position)
    (report : BatchReport) {Q : Except IndexerError (Tracker × BatchReport) → Bool → Prop}
    (h : Q (.ok (tracker, report.redelivered c.position [e])) true) :
    (take c.contract (tracker, report) e).run.wp (Request.redelivery c es) Q true := by
  simp only [take, hcontract, ne_eq, not_true_eq_false, if_false, hreached]
  rw [wp_run_bind]
  exact wp_drop_redelivered he report h

theorem wp_foldlM_take_redelivered {fs : List RawEvent} (hfs : fs ⊆ es) {tracker : Tracker}
    (hcontract : ∀ e ∈ fs, e.contract = c.contract)
    (hreached : ∀ e ∈ fs, tracker.reached? e.position = some c.position) (report : BatchReport)
    {Q : Except IndexerError (Tracker × BatchReport) → Bool → Prop}
    (h : Q (.ok (tracker, report.redelivered c.position fs)) true) :
    (fs.foldlM (take c.contract) (tracker, report)).run.wp (Request.redelivery c es) Q true := by
  induction fs generalizing report with
  | nil => rwa [BatchReport.redelivered_nil] at h
  | cons e fs ih =>
    obtain ⟨he, hfs⟩ := List.cons_subset.mp hfs
    obtain ⟨hcontract, hcontracts⟩ := List.forall_mem_cons.mp hcontract
    obtain ⟨hreached, hreacheds⟩ := List.forall_mem_cons.mp hreached
    rw [List.foldlM_cons, wp_run_bind]
    refine wp_take_redelivered he hcontract hreached report ?_
    refine ih hfs hcontracts hreacheds (report.redelivered c.position [e]) ?_
    rwa [← BatchReport.redelivered_cons]

theorem wp_process_redelivered (hcontract : ∀ e ∈ es, e.contract = c.contract)
    (hreached : ∀ e ∈ es, e.position ≤ c.position)
    {Q : Except IndexerError BatchReport → Bool → Prop}
    (h : Q (.ok (.ofRedelivery c es)) true) :
    (process c.contract es).run.wp (Request.redelivery c es) Q true := by
  let tracker : Tracker := ⟨c.contract, some c.position, c.eventsApplied, false⟩
  have hposition (e : RawEvent) (he : e ∈ es) : tracker.reached? e.position = some c.position := by
    simp [Tracker.reached?, tracker, hreached e he]
  rw [BatchReport.ofRedelivery_eq] at h
  rw [process, wp_run_bind, ofSession, wp_run_adapt, Session.tracker, wp_run_bind]
  refine ⟨rfl, ?_⟩
  change (es.foldlM (take c.contract) (tracker, .empty c.contract) >>= _).run.wp _ _ _
  rw [wp_run_bind]
  exact wp_foldlM_take_redelivered (List.Subset.refl es) hcontract hposition _ h

theorem wp_record_stored {e : RawEvent} (he : e ∈ es) (d : Except DecodeError Decoded)
    (now : Timestamp) :
    (ofSession (Log.record (entryFor e.stored d now))).run.wp (Request.redelivery c es)
      (fun r _ => r = .ok (.ok .alreadyPresent)) true := by
  have hentry : (entryFor e.stored d now).toRaw = e.stored := by
    cases d <;> rfl
  have hposition : (entryFor e.stored d now).position = e.position := by
    cases d <;> rfl
  rw [ofSession, wp_run_adapt, Log.record, wp_run_bind, hposition]
  refine ⟨rfl, e, he, rfl, fun x hx => ?_⟩
  have hsame : x.sameEvent (entryFor e.stored d now) := by
    rw [LogEntry.sameEvent_iff, hx, hentry]
  dsimp only
  change ((if x.sameEvent (entryFor e.stored d now) then _ else _) : Session _).run.wp _ _ _
  rw [if_pos hsame]
  rfl

end Batch

/-! ## Calls -/

namespace Job

variable {c : Checkpoint} {es : List RawEvent}

theorem wp_transact_redelivered (hcontract : ∀ e ∈ es, e.contract = c.contract)
    (hreached : ∀ e ∈ es, e.position ≤ c.position)
    {Q : Except IndexerError BatchReport → Bool → Prop}
    (h : Q (.ok (.ofRedelivery c es)) false) :
    (transact c.contract (Batch.process c.contract es)).wp (Effect.redelivery c es) Q false := by
  rw [transact, wp_bind]
  refine ⟨rfl, ?_⟩
  change ((ofBatch _).run >>= _).wp _ _ _
  rw [wp_bind]
  change (((Batch.process c.contract es).run.expand fun r => perform (.request r))).wp _ _ _
  rw [wp_expand]
  refine Batch.wp_process_redelivered hcontract hreached ?_
  exact ⟨rfl, h⟩

theorem wp_retrying_of_ok {α : Type} {policy : RetryPolicy} {contract : ContractId}
    {job : Job (Except IndexerError α)} {Q : Except IndexerError α → Bool → Prop} {opened : Bool}
    (h : job.wp (Effect.redelivery c es)
      (fun r opened => ∃ a, r = .ok a ∧ Q (.ok a) opened) opened) :
    (retrying policy contract job).wp (Effect.redelivery c es) Q opened := by
  rw [retrying, wp_bind, RetryPolicy.run]
  cases policy.maxRetries.toNat with
  | zero =>
    rw [RetryPolicy.attempt, wp_bind]
    refine wp_mono (Effect.redelivery_mono c es) _ ?_ h
    rintro _ opened ⟨a, rfl, hQ⟩
    exact hQ
  | succ left =>
    rw [RetryPolicy.attempt, wp_bind]
    refine wp_mono (Effect.redelivery_mono c es) _ ?_ h
    rintro _ opened ⟨a, rfl, hQ⟩
    exact hQ

theorem wp_process_redelivered (policy : RetryPolicy)
    (hcontract : ∀ e ∈ es, e.contract = c.contract) (hreached : ∀ e ∈ es, e.position ≤ c.position) :
    (process policy c.contract es).wp (Effect.redelivery c es)
      (fun r _ => r = .ok (.ofRedelivery c es)) false := by
  rw [process, wp_bind, wp_clock]
  intro started
  rw [wp_bind]
  refine wp_retrying_of_ok (wp_transact_redelivered hcontract hreached ⟨_, rfl, ?_⟩)
  dsimp only
  rw [wp_bind, wp_clock]
  intro ended
  split
  · rfl
  · rfl

end Job

namespace Sql

variable {δ ρ : Type} [Server δ] [EventSource ρ] {I : δ → Prop} {c : Checkpoint}
  {es : List RawEvent}

/-- A call with logged events ends with the report of what is given back. -/
theorem Logged.perform_process (h : Logged I c es) (hcontract : ∀ e ∈ es, e.contract = c.contract)
    (hreached : ∀ e ∈ es, e.position ≤ c.position) (policy : RetryPolicy)
    {w : World (Database δ) ρ} (hserver : I w.store.server) (hlink : w.store.link = .present) :
    (w.perform (Job.process policy c.contract es)).1 = .ok (.ofRedelivery c es) := by
  have hattends : (⟨w, none⟩ : Desk (Database δ) ρ).Attends I c.contract false :=
    ⟨hserver, hlink, fun h => by cases h⟩
  obtain ⟨_, -, hreport⟩ := run_of_wp h.obeys _ hattends
    (Job.wp_process_redelivered policy hcontract hreached)
  exact hreport

theorem Logged.run_record (h : Logged I c es) {d : Desk (Database δ) ρ}
    (hd : d.Attends I c.contract true) {e : RawEvent} (he : e ∈ es)
    (decoded : Except DecodeError Decoded) (now : Timestamp) :
    (((Job.ofBatch (Batch.ofSession (Log.record (Batch.entryFor e.stored decoded now)))).run.run
      Desk.handler).run d).1 = .ok (.ok .alreadyPresent) := by
  have hwp : (Job.ofBatch (Batch.ofSession
      (Log.record (Batch.entryFor e.stored decoded now)))).run.wp (Effect.redelivery c es)
        (fun r _ => r = .ok (.ok .alreadyPresent)) true := by
    change (((Batch.ofSession _).run.expand fun r => Job.perform (.request r))).wp _ _ _
    rw [wp_expand]
    exact Batch.wp_record_stored he decoded now
  obtain ⟨_, -, hanswer⟩ := run_of_wp h.obeys _ hd hwp
  exact hanswer

/-- An event that is delivered again to a database is recognised if and only if its time is one
that the database keeps, which is to say, apart from leap seconds, that it has no digits after the
microseconds. Any other one is reported as an ordering violation, whereas a store in memory
recognises them all. A rebuild finds all events that it reads in the log, for it reads them as they
are given back. -/
theorem redelivery_recognised_iff_stored :
    (∀ (e : RawEvent) (row : Row), LogEntry.KeptIn e row → ∃ x, LogEntry.ofRow row = .ok x ∧
      (x.records e ↔ e.stored = e) ∧
      ∀ decoded reason now, x.sameEvent (.observed e decoded reason now) ↔ e.stored = e) ∧
    (∀ e : RawEvent, e.ledgerClosedAt.nanos < 1000000000 →
      (e.stored = e ↔ e.ledgerClosedAt.nanos % 1000 = 0)) ∧
    (∀ (I : δ → Prop) (c : Checkpoint) (es : List RawEvent), Logged I c es →
      ((∀ e ∈ es, e.contract = c.contract) → (∀ e ∈ es, e.position ≤ c.position) →
        ∀ (policy : RetryPolicy) (w : World (Database δ) ρ), I w.store.server →
          w.store.link = .present →
            (w.perform (Job.process policy c.contract es)).1 = .ok (.ofRedelivery c es)) ∧
      ∀ d : Desk (Database δ) ρ, d.Attends I c.contract true → ∀ e ∈ es, ∀ decoded now,
        (((Job.ofBatch (Batch.ofSession (Log.record
          (Batch.entryFor e.stored decoded now)))).run.run Desk.handler).run d).1 =
            .ok (.ok .alreadyPresent)) ∧
    ∀ (w : World MemoryStore ρ) (contract : ContractId) (logged es : List RawEvent)
      (policy : RetryPolicy), (w.store.partition contract).Holds contract logged → es ⊆ logged →
        w.store.commitFailures ≤ policy.maxRetries.toNat →
          ∃ report, (w.perform (Job.process policy contract es)).1 = .ok report ∧
            report.replayed = es.length ∧ report.orderingViolations = [] := by
  refine ⟨fun e row hkept => ?_, fun e => RawEvent.stored_eq_self_iff,
    fun I c es h => ⟨?_, ?_⟩, fun w contract logged es policy h hes => World.perform_logged h hes⟩
  · obtain ⟨x, hread, hx⟩ := hkept.ofRow
    refine ⟨x, hread, ?_, fun decoded reason now => ?_⟩
    · rw [LogEntry.records_iff, hx]
    · rw [LogEntry.sameEvent_iff, hx, LogEntry.toRaw_observed]
  · intro hcontract hreached policy w
    exact h.perform_process hcontract hreached policy
  · intro d hd e he decoded now
    exact h.run_record hd he decoded now

/-- A database whose rows do not change. -/
structure FixedServer where
  rows : Statement → List Row

instance : Server FixedServer where
  connect s := (.rows [], s)
  execute st s := (.rows (s.rows st), s)

/-- Of two events that are delivered again, one with a nanosecond and one without, the second one is
replayed and the first one is not in order. -/
theorem redelivery_recognised_iff_stored_of_nanosecond :
    let contract : ContractId := ⟨"C"⟩
    let event (ledger : UInt32) (t : Timestamp) : RawEvent :=
      ⟨contract, "NOTE", .null, ledger, t, .replicate 0, 0⟩
    let fine := event 1
      { Timestamp.epoch with nanos := 1, nanos_lt := by decide, leap := by decide }
    let whole := event 2 .epoch
    let c : Checkpoint := ⟨contract, whole.position, 2, .epoch⟩
    let kept (e : RawEvent) : Row := LogEntry.relation.row [.contract e.contract,
      .position e.position, .text e.topic, .word32 e.ledger, .instant e.ledgerClosedAt.toMicros,
      .json e.payload, .null, .null, .instant Timestamp.epoch.toMicros]
    let reached : Row := Checkpoint.relation.row { c with updatedAt := c.updatedAt.toMicros }.values
    let server : FixedServer := ⟨fun st =>
      if st.returns = LogEntry.relation.columns then
        ([fine, whole].filter fun e => st.params.contains (.position e.position)).map kept
      else [reached]⟩
    let w : World (Database FixedServer) MemorySource := .start ⟨server, .present⟩ .empty
    (w.perform (Job.process ⟨0, 0, 1.0, 0⟩ contract [fine, whole])).1 =
        .ok (.ofRedelivery c [fine, whole]) ∧
      (BatchReport.ofRedelivery c [fine, whole]).replayed = 1 ∧
      (BatchReport.ofRedelivery c [fine, whole]).orderingViolations =
        [⟨.of fine, whole.position, true⟩] := by
  intro contract event fine whole c kept reached server w
  have hbrings {st : Statement} {P : List Row → Prop} (h : P (server.rows st)) :
      Brings (· = server) st P := by
    rintro _ rfl
    exact ⟨_, rfl, h, rfl⟩
  have hkept (e : RawEvent) : LogEntry.KeptIn e (kept e) :=
    ⟨none, none, .epoch, Relation.carries_row (by decide) <| .cons (.text _) <| .cons (.bytes _) <|
      .cons (.text _) <| .cons (.bigint _) <| .cons (.instant _) <| .cons (.json _) <|
      .cons (.null _) <| .cons (.null _) <| .cons (.instant _) .nil⟩
  have hlogged : Logged (· = server) c [fine, whole] := by
    refine ⟨hbrings trivial, hbrings trivial, ?_, ?_⟩
    · intro st hst
      obtain rfl := List.mem_singleton.mp hst
      have hcolumns : ¬ (selectCheckpoint contract).returns = LogEntry.relation.columns := by decide
      have hrows : server.rows (selectCheckpoint contract) = [reached] := by
        simp only [server, if_neg hcolumns]
      refine hbrings ⟨_, hrows, Relation.carries_row (by decide) ?_⟩
      exact .cons (.text _) <| .cons (.bytes _) <| .cons (.numeric rfl) <| .cons (.instant _) .nil
    · intro e he st hst
      obtain rfl := List.mem_singleton.mp hst
      refine hbrings ⟨kept e, ?_, hkept e⟩
      simp only [List.mem_cons, List.not_mem_nil, or_false] at he
      obtain rfl | rfl := he
      · decide +kernel
      · decide +kernel
  obtain ⟨-, -, hcalls, -⟩ :=
    redelivery_recognised_iff_stored (δ := FixedServer) (ρ := MemorySource)
  obtain ⟨hprocess, -⟩ := hcalls _ c _ hlogged
  refine ⟨hprocess (by decide) (by decide) _ w rfl rfl, ?_, ?_⟩
  · decide
  · decide

end Sql

end EventIndex
