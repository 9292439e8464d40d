import EventIndex.Batch.Process
import EventIndex.Proofs.Projection.Derivation

/-! # The course of a batch

Processing a batch as a function of the data, the events and the times at which they are seen. The
program that processes a batch within a transaction computes this function. -/

namespace EventIndex

open Program

/-- The log entry of an event that is seen at the time `now`. -/
def LogEntry.ofEvent (e : RawEvent) (now : Timestamp) : LogEntry :=
  Batch.entryFor e (decode (.classify e.topic) e.payload e.position) now

namespace BatchReport

/-- Counts what has come of a decoded event. -/
def count (r : BatchReport) (context : EventContext) : Except Refusal Applied → BatchReport
  | .ok .written => { r with written := r.written + 1 }
  | .ok .unchanged => { r with unchanged := r.unchanged + 1 }
  | .ok .ignored => { r with ignored := r.ignored + 1 }
  | .error refusal => { r with rejected := r.rejected ++ [⟨context, refusal⟩] }

/-- What is reported whatever comes of the events: how many they are, and the position. -/
def heading (r : BatchReport) : Nat × Option Position :=
  (r.eventsSeen, r.lastPosition)

@[simp] theorem heading_count (r : BatchReport) (context : EventContext)
    (answer : Except Refusal Applied) : (r.count context answer).heading = r.heading := by
  rcases answer with refusal | applied
  · rfl
  · cases applied <;> rfl

end BatchReport

/-- A batch in the middle of its transaction. -/
structure Course where
  data : Partition
  tracker : Tracker
  report : BatchReport

namespace Course

def start (contract : ContractId) (data : Partition) : Course :=
  ⟨data, .resume contract data.checkpoint, .empty contract⟩

def drop (s : Course) (checkpoint : Position) (e : RawEvent) : Course :=
  let logged := s.data.log[e.position]?
  if logged.any (·.records e) then
    { s with report := { s.report with replayed := s.report.replayed + 1 } }
  else
    let violation := ⟨.of e, checkpoint, logged.isSome⟩
    { s with
      report := { s.report with
        orderingViolations := s.report.orderingViolations ++ [violation] } }

def project (s : Course) (e : RawEvent) : Course :=
  match decode (.classify e.topic) e.payload e.position with
  | .error _ =>
    { s with report := { s.report with decodeFailures := s.report.decodeFailures ++ [.of e] } }
  | .ok d =>
    let applied := s.data.tables.apply e.contract e.position d
    { s with
      data := { s.data with tables := applied.2 }
      report := s.report.count (.of e) applied.1 }

def append (s : Course) (e : RawEvent) (now : Timestamp) : Course :=
  { s with
    data := { s.data with log := s.data.log.insert e.position (.ofEvent e now) }
    report := { s.report with indexed := s.report.indexed + 1 } }

def recognize (s : Course) : Course :=
  { s with report := { s.report with alreadyLogged := s.report.alreadyLogged + 1 } }

/-- Another event is found in the log at the position of this one. -/
def refuse (s : Course) (e : RawEvent) : Course :=
  { s with report := { s.report with logConflicts := s.report.logConflicts ++ [.of e] } }

/-- An event is recorded, unless another one is in the log at its position, and projected. -/
def index (s : Course) (e : RawEvent) (now : Timestamp) : Course :=
  match s.data.log[e.position]? with
  | none => (s.append e now).project e
  | some old => if old.records e then s.recognize.project e else s.refuse e

def advance (s : Course) (p : Position) : Course :=
  { s with
    tracker := { s.tracker with
      position := some p
      eventsApplied := Tracker.countUp s.tracker.eventsApplied
      dirty := true } }

def see (s : Course) : Course :=
  { s with report := { s.report with eventsSeen := s.report.eventsSeen + 1 } }

def take (s : Course) (x : RawEvent × Timestamp) : Course :=
  match s.tracker.reached? x.1.position with
  | some checkpoint => s.see.drop checkpoint x.1
  | none => (s.see.index x.1 x.2).advance x.1.position

/-- Events are taken, each with the time at which it is seen. -/
def takeAll (s : Course) (xs : List (RawEvent × Timestamp)) : Course :=
  xs.foldl take s

/-- The report of the batch, and the data with the checkpoint stored. -/
def finish (s : Course) (now : Timestamp) : BatchReport × Partition :=
  ({ s.report with lastPosition := s.tracker.position },
    { s.data with checkpoint := s.tracker.unsaved? now <|> s.data.checkpoint })

/-! ## What a part of the course leaves as it is -/

section Frame

variable (s : Course) (checkpoint : Position) (e : RawEvent) (now : Timestamp)

@[simp] theorem data_see : s.see.data = s.data := rfl

@[simp] theorem tracker_see : s.see.tracker = s.tracker := rfl

@[simp] theorem data_drop : (s.drop checkpoint e).data = s.data := by
  simp only [drop]
  split <;> rfl

@[simp] theorem tracker_drop : (s.drop checkpoint e).tracker = s.tracker := by
  simp only [drop]
  split <;> rfl

@[simp] theorem tracker_project : (s.project e).tracker = s.tracker := by
  simp only [project]
  split <;> rfl

@[simp] theorem tracker_index : (s.index e now).tracker = s.tracker := by
  simp only [index]
  split
  · simp [append]
  · split <;> simp [recognize, refuse]

@[simp] theorem heading_drop : (s.drop checkpoint e).report.heading = s.report.heading := by
  simp only [drop]
  split <;> rfl

@[simp] theorem heading_project : (s.project e).report.heading = s.report.heading := by
  simp only [project]
  split
  · rfl
  · exact BatchReport.heading_count ..

@[simp] theorem heading_index : (s.index e now).report.heading = s.report.heading := by
  simp only [index]
  split
  · exact (s.append e now).heading_project e
  · split
    · exact s.recognize.heading_project e
    · rfl

end Frame

end Course

namespace Partition

/-- Processes events, each seen at its time, and stores the checkpoint at the time `now`. -/
def process (p : Partition) (contract : ContractId) (xs : List (RawEvent × Timestamp))
    (now : Timestamp) : BatchReport × Partition :=
  ((Course.start contract p).takeAll xs).finish now

/-- The data without what is derived from the log. -/
def cleared (p : Partition) : Partition :=
  { p with tables := ∅, checkpoint := none }

end Partition

/-! ## The program of a batch computes its course -/

namespace Batch

@[simp] theorem toRaw_entryFor (e : RawEvent) (d : Except DecodeError Decoded) (now : Timestamp) :
    (entryFor e d now).toRaw = e := by
  cases d <;> rfl

@[simp] theorem position_entryFor (e : RawEvent) (d : Except DecodeError Decoded)
    (now : Timestamp) : (entryFor e d now).position = e.position := by
  cases d <;> rfl

variable {data : Partition} {contract : ContractId}

@[simp] theorem wp_ofSession {α : Type} (x : Session α)
    (Q : Except IndexerError α → Partition → Prop) :
    (ofSession x).run.wp Partition.rule Q data =
      x.run.wp Partition.rule (fun r => Q (r.mapError .storage)) data :=
  wp_run_adapt _ _ _ _ _

@[simp] theorem wp_note (line : Line) (Q : Except IndexerError Unit → Partition → Prop) :
    (note line).run.wp Partition.rule Q data = Q (.ok ()) data := rfl

theorem wp_drop (s : Course) (checkpoint : Position) (e : RawEvent)
    (Q : Except IndexerError BatchReport → Partition → Prop) :
    (drop checkpoint e s.report).run.wp Partition.rule Q s.data =
      Q (.ok (s.drop checkpoint e).report) (s.drop checkpoint e).data := by
  simp only [drop, Course.drop, wp_run_bind, Log.lookup, wp_ofSession, Session.wp_ask,
    Partition.request]
  cases s.data.log[e.position]? with
  | none => simp [Except.map, Except.mapError]
  | some old =>
    by_cases h : old.records e
    · simp [Except.mapError, h]
    · simp [Except.map, Except.mapError, h]

theorem wp_project (s : Course) (e : RawEvent)
    (Q : Except IndexerError BatchReport → Partition → Prop) :
    (project e (decode (.classify e.topic) e.payload e.position) s.report).run.wp
        Partition.rule Q s.data =
      Q (.ok (s.project e).report) (s.project e).data := by
  simp only [project, Course.project]
  cases decode (.classify e.topic) e.payload e.position with
  | error err => simp [Except.map]
  | ok d =>
    simp only [wp_run_bind, wp_ofSession, wp_apply, Except.mapError]
    cases (s.data.tables.apply e.contract e.position d).1 with
    | error refusal => simp [Except.map, BatchReport.count]
    | ok applied => cases applied <;> simp [BatchReport.count]

theorem wp_record (e : RawEvent) (d : Except DecodeError Decoded) (now : Timestamp)
    (Q : Except StorageError (Except LogConflict Logged) → Partition → Prop) :
    (Log.record (entryFor e d now)).run.wp Partition.rule Q data =
      match data.log[e.position]? with
      | none =>
        Q (.ok (.ok .appended))
          { data with log := data.log.insert e.position (entryFor e d now) }
      | some old =>
        if old.records e then Q (.ok (.ok .alreadyPresent)) data
        else Q (.ok (.error ⟨(entryFor e d now).contract, e.position, old.topic,
          (entryFor e d now).topic⟩)) data := by
  simp only [Log.record, wp_run_bind, Session.wp_ask, Partition.request, position_entryFor]
  cases h : data.log[e.position]? with
  | none => simp [Except.map, Partition.request, h]
  | some old =>
    simp only [LogEntry.sameEvent, toRaw_entryFor, LogEntry.records]
    by_cases hold : old.toRaw = e
    · simp [hold]
    · simp [hold]

theorem wp_index (s : Course) (e : RawEvent)
    (Q : Except IndexerError BatchReport → Partition → Prop) :
    (index e s.report).run.wp Partition.rule Q s.data =
      ∀ now, Q (.ok (s.index e now).report) (s.index e now).data := by
  simp only [index, wp_run_bind, wp_run_lift, wp_clock, wp_ofSession, wp_record]
  apply forall_congr
  intro now
  simp only [Course.index]
  cases s.data.log[e.position]? with
  | none =>
    simp only [Except.mapError]
    exact wp_project (s.append e now) e Q
  | some old =>
    by_cases h : old.records e
    · simp only [h, if_true, Except.mapError]
      exact wp_project s.recognize e Q
    · simp [h, Except.map, Except.mapError, Course.refuse]

theorem wp_take (s : Course) {e : RawEvent} (he : e.contract = contract)
    {Q : Except IndexerError (Tracker × BatchReport) → Partition → Prop}
    (h : ∀ now, Q (.ok ((s.take (e, now)).tracker, (s.take (e, now)).report))
      (s.take (e, now)).data) :
    (take contract (s.tracker, s.report) e).run.wp Partition.rule Q s.data := by
  simp only [take, he, ne_eq, not_true_eq_false, if_false]
  cases hr : s.tracker.reached? e.position with
  | some checkpoint =>
    simp only [Course.take, hr] at h
    rw [wp_run_bind]
    refine (wp_drop s.see checkpoint e _).mpr ?_
    simpa using h .epoch
  | none =>
    simp only [Course.take, hr] at h
    rw [wp_run_bind]
    refine (wp_index s.see e _).mpr ?_
    intro now
    simpa [Tracker.advance, hr, Course.advance] using h now

theorem wp_take_foreign (s : Course) {e : RawEvent} (he : e.contract ≠ contract)
    {Q : Except IndexerError (Tracker × BatchReport) → Partition → Prop}
    (h : Q (.error (.foreignEvent contract e.contract)) s.data) :
    (take contract (s.tracker, s.report) e).run.wp Partition.rule Q s.data := by
  simpa [take, he, wp_run_bind] using h

/-- All events are taken if they are of the contract; else the first other one stops the batch. -/
theorem wp_foldlM_take (es : List RawEvent) (s : Course)
    {Q : Except IndexerError (Tracker × BatchReport) → Partition → Prop}
    (hok : (∀ e ∈ es, e.contract = contract) → ∀ times : List Timestamp, times.length = es.length →
      Q (.ok ((s.takeAll (es.zip times)).tracker, (s.takeAll (es.zip times)).report))
        (s.takeAll (es.zip times)).data)
    (herror : ∀ e, es.find? (·.contract ≠ contract) = some e →
      ∀ d, Q (.error (.foreignEvent contract e.contract)) d) :
    (es.foldlM (take contract) (s.tracker, s.report)).run.wp Partition.rule Q s.data := by
  induction es generalizing s with
  | nil => exact hok (by simp) [] rfl
  | cons e es ih =>
    rw [List.foldlM_cons, wp_run_bind]
    by_cases he : e.contract = contract
    · refine wp_take s he fun now => ih (s.take (e, now)) ?_ ?_
      · intro hes times ht
        exact hok (by simpa [he] using hes) (now :: times) (by simp [ht])
      · intro f hf
        exact herror f (by simpa [he] using hf)
    · refine wp_take_foreign s he ?_
      exact herror e (by simp [he]) s.data

theorem wp_persist (s : Course)
    {Q : Except StorageError (Option Checkpoint × Tracker) → Partition → Prop}
    (h : ∀ now c t, t.position = s.tracker.position → Q (.ok (c, t)) (s.finish now).2) :
    (Session.persist s.tracker).run.wp Partition.rule Q s.data := by
  unfold Session.persist
  by_cases hd : s.tracker.dirty
  · simp only [hd, if_true, wp_run_bind, wp_run_lift, wp_clock]
    intro now
    cases hu : s.tracker.unsaved? now with
    | none => simpa [Course.finish, hu] using h now none s.tracker rfl
    | some c =>
      simpa [Course.finish, hu, Except.map, Partition.request] using
        h now (some c) { s.tracker with dirty := false } rfl
  · have hu : s.tracker.unsaved? .epoch = none := by simp [Tracker.unsaved?, hd]
    simpa [hd, Course.finish, hu] using h .epoch none s.tracker rfl

/-- A batch of the contract is processed, whatever the data are; another one is given up. -/
theorem wp_process (es : List RawEvent) (data : Partition)
    {Q : Except IndexerError BatchReport → Partition → Prop}
    (hok : (∀ e ∈ es, e.contract = contract) → ∀ (times : List Timestamp) (now : Timestamp),
      times.length = es.length →
        Q (.ok (data.process contract (es.zip times) now).1)
          (data.process contract (es.zip times) now).2)
    (herror : ∀ e, es.find? (·.contract ≠ contract) = some e →
      ∀ d, Q (.error (.foreignEvent contract e.contract)) d) :
    (process contract es).run.wp Partition.rule Q data := by
  rw [process, wp_run_bind, wp_ofSession]
  simp only [Session.tracker, wp_run_bind, Session.wp_ask, Partition.request, wp_run_pure,
    Except.mapError]
  refine wp_foldlM_take es (.start contract data) ?_ ?_
  · intro hes times ht
    simp only [wp_ofSession]
    refine wp_persist _ fun now c t hposition => ?_
    simpa [Except.mapError, hposition, Partition.process, Course.finish] using hok hes times now ht
  · intro e he d
    exact herror e he d

theorem wp_rebuild (data : Partition) (Q : Except IndexerError BatchReport → Partition → Prop) :
    (rebuild contract).run.wp Partition.rule Q data =
      (process contract (data.entries.map LogEntry.toRaw)).run.wp Partition.rule Q
        data.cleared := by
  simp only [rebuild, wp_run_bind, wp_ofSession, Session.wp_ask, Partition.request, Except.mapError]
  rfl

end Batch

end EventIndex
