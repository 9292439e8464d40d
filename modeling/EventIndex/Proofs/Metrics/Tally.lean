import EventIndex.Metrics
import EventIndex.Proofs.Batch.Growth
import EventIndex.Proofs.Projection.Freezing
import Mathlib.Algebra.GroupWithZero.Nat
import Mathlib.Algebra.Group.Pi.Basic

/-! # What a batch counts

The metrics add up what the reports count. For a batch on committed data these counts are what it
has done to the data: how many entries it has added to the log, how many of these were not decoded,
and how many entities it has frozen. -/

namespace EventIndex

/-! ## Counts -/

/-- What is counted of the batches. -/
inductive Count where
  | indexed
  | undecoded
  | written
  | integrity
  | invalid
  | quarantined
  | batches
deriving DecidableEq

/-- How many there are of each. -/
abbrev Tally := Count → Nat

namespace Tally

/-- The events that were refused anew. -/
def refused (t : Tally) : Nat :=
  t .integrity + t .invalid

/-- The events that were written, refused, or not decoded. -/
def settled (t : Tally) : Nat :=
  t .written + t .undecoded + t.refused + t .quarantined

theorem refused_add (t u : Tally) : (t + u).refused = t.refused + u.refused := by
  simp only [refused, Pi.add_apply]
  omega

theorem settled_add (t u : Tally) : (t + u).settled = t.settled + u.settled := by
  simp only [settled, refused_add, Pi.add_apply]
  omega

end Tally

/-- As what a refusal is counted. -/
def Refusal.count (r : Refusal) : Count :=
  match r.cause with
  | .integrity _ => .integrity
  | .invalidTransition .. => .invalid
  | .quarantined _ => .quarantined

/-- What the report of a committed batch counts. -/
def BatchReport.tally (r : BatchReport) : Tally
  | .indexed => r.indexed
  | .undecoded => r.decodeFailures.length
  | .written => r.written
  | .integrity => r.rejected.countP (·.refusal.isIntegrity)
  | .invalid => r.rejected.countP (·.refusal.isInvalidTransition)
  | .quarantined => r.rejected.countP (·.refusal.isQuarantined)
  | .batches => 1

namespace Metrics

def read (m : Metrics) : Count → UInt64
  | .indexed => m.eventsIndexed
  | .undecoded => m.decodeFailures
  | .written => m.eventsProjected
  | .integrity => m.integrityErrors
  | .invalid => m.invalidTransitions
  | .quarantined => m.quarantinedEvents
  | .batches => m.batchesCommitted

/-- The counters show these counts, as far as words can. -/
def Shows (m : Metrics) (t : Tally) : Prop :=
  ∀ c, m.read c = .ofNat (t c)

theorem shows_zero : zero.Shows 0 := by
  intro c
  cases c <;> rfl

theorem read_recordBatch (m : Metrics) (r : BatchReport) (nanos : Nat) (c : Count) :
    (m.recordBatch r nanos).read c = m.read c + .ofNat (r.tally c) := by
  cases c <;> rfl

theorem read_recordRetry (m : Metrics) : m.recordRetry.read = m.read := by
  funext c
  cases c <;> rfl

variable {m m' : Metrics} {t : Tally}

theorem Shows.congr (h : m.Shows t) (hread : m'.read = m.read) : m'.Shows t := by
  intro c
  rw [hread, h c]

theorem Shows.recordBatch (h : m.Shows t) (r : BatchReport) (nanos : Nat) :
    (m.recordBatch r nanos).Shows (t + r.tally) := by
  intro c
  rw [read_recordBatch, h c, Pi.add_apply, UInt64.ofNat_add]

end Metrics

/-! ## What a projection counts -/

namespace Tally

def logged : Tally :=
  Pi.single .indexed 1

/-- What comes of a decoded event. -/
def ofOutcome : Except Refusal Applied → Tally
  | .ok .written => Pi.single .written 1
  | .ok _ => 0
  | .error r => Pi.single r.count 1

/-- What comes of an event that is projected into the tables. -/
def ofProjection (t : Tables) (e : RawEvent) : Tally :=
  match decode (.classify e.topic) e.payload e.position with
  | .error _ => Pi.single .undecoded 1
  | .ok d => ofOutcome (t.apply e.contract e.position d).1

variable (t : Tables) (e : RawEvent) (outcome : Except Refusal Applied)

theorem ofOutcome_indexed : ofOutcome outcome .indexed = 0 := by
  rcases outcome with ⟨entity, cause⟩ | applied
  · cases cause <;> rfl
  · cases applied <;> rfl

theorem ofOutcome_undecoded : ofOutcome outcome .undecoded = 0 := by
  rcases outcome with ⟨entity, cause⟩ | applied
  · cases cause <;> rfl
  · cases applied <;> rfl

theorem settled_ofOutcome_le : (ofOutcome outcome).settled ≤ 1 := by
  rcases outcome with ⟨entity, cause⟩ | applied
  · cases cause <;> exact le_rfl
  · cases applied
    · exact le_rfl
    · exact Nat.zero_le 1
    · exact Nat.zero_le 1

theorem refused_ofOutcome : (ofOutcome outcome).refused =
    match outcome with
    | .ok _ => 0
    | .error r => if r.isQuarantined then 0 else 1 := by
  rcases outcome with ⟨entity, cause⟩ | applied
  · cases cause <;> rfl
  · cases applied <;> rfl

theorem ofProjection_indexed : ofProjection t e .indexed = 0 := by
  unfold ofProjection
  cases decode (.classify e.topic) e.payload e.position with
  | error err => rfl
  | ok d => exact ofOutcome_indexed _

theorem ofProjection_undecoded (now : Timestamp) :
    ofProjection t e .undecoded = if (LogEntry.ofEvent e now).decodeError.isSome then 1 else 0 := by
  unfold ofProjection LogEntry.ofEvent
  cases decode (.classify e.topic) e.payload e.position with
  | error err => rfl
  | ok d => exact ofOutcome_undecoded _

theorem settled_ofProjection_le : (ofProjection t e).settled ≤ 1 := by
  unfold ofProjection
  cases decode (.classify e.topic) e.payload e.position with
  | error err => exact le_rfl
  | ok d => exact settled_ofOutcome_le _

/-- An entity is frozen for each event that is refused anew. -/
theorem size_quarantined_absorb :
    (t.absorb e).quarantined.size = t.quarantined.size + (ofProjection t e).refused := by
  unfold ofProjection Tables.absorb
  cases decode (.classify e.topic) e.payload e.position with
  | error err => rfl
  | ok d =>
    dsimp only
    rw [refused_ofOutcome]
    exact Tables.size_quarantined_apply

end Tally

theorem BatchReport.tally_count (r : BatchReport) (context : EventContext)
    (outcome : Except Refusal Applied) :
    (r.count context outcome).tally = r.tally + .ofOutcome outcome := by
  funext c
  rcases outcome with ⟨entity, cause⟩ | applied
  · cases cause <;> cases c <;>
      simp [count, tally, Tally.ofOutcome, Refusal.count, Refusal.isIntegrity,
        Refusal.isInvalidTransition, Refusal.isQuarantined]
  · cases applied <;> cases c <;> simp [count, tally, Tally.ofOutcome]

/-! ## The account of a batch -/

namespace Partition

def failures (p : Partition) : Nat :=
  p.entries.countP (·.decodeError.isSome)

def frozen (p : Partition) : Nat :=
  p.tables.quarantined.size

end Partition

/-- The counts are what became of the data from `p` to `p'`. -/
structure Tally.Accounts (t : Tally) (p p' : Partition) : Prop where
  entries_eq : p'.entries.length = p.entries.length + t .indexed
  failures_eq : p'.failures = p.failures + t .undecoded
  frozen_eq : p'.frozen = p.frozen + t.refused
  settled_le : t.settled ≤ t .indexed

theorem Tally.Accounts.add {t u : Tally} {p p' p'' : Partition} (h : t.Accounts p p')
    (h' : u.Accounts p' p'') : (t + u).Accounts p p'' where
  entries_eq := by
    rw [h'.entries_eq, h.entries_eq, Pi.add_apply, Nat.add_assoc]
  failures_eq := by
    rw [h'.failures_eq, h.failures_eq, Pi.add_apply, Nat.add_assoc]
  frozen_eq := by
    rw [h'.frozen_eq, h.frozen_eq, Tally.refused_add, Nat.add_assoc]
  settled_le := by
    rw [Tally.settled_add, Pi.add_apply]
    exact Nat.add_le_add h.settled_le h'.settled_le

namespace Course

variable {contract : ContractId} {s : Course} {done : List RawEvent}

theorem tally_drop (s : Course) (checkpoint : Position) (e : RawEvent) :
    (s.drop checkpoint e).report.tally = s.report.tally := by
  simp only [drop]
  split <;> rfl

theorem tally_append (s : Course) (e : RawEvent) (now : Timestamp) :
    (s.append e now).report.tally = s.report.tally + .logged := by
  funext c
  cases c <;> rfl

theorem tally_project (s : Course) (e : RawEvent) :
    (s.project e).report.tally = s.report.tally + .ofProjection s.data.tables e := by
  simp only [project, Tally.ofProjection]
  cases decode (.classify e.topic) e.payload e.position with
  | error err =>
    funext c
    cases c <;> simp [BatchReport.tally]
  | ok d => exact BatchReport.tally_count ..

theorem accounts_append_project {e : RawEvent} {now : Timestamp}
    (hvalues : (s.append e now).data.entries = s.data.entries ++ [.ofEvent e now]) :
    (.logged + .ofProjection s.data.tables e : Tally).Accounts s.data
      ((s.append e now).project e).data := by
  let projected : Tally := .ofProjection s.data.tables e
  have hindexed : (.logged + projected : Tally) .indexed = 1 :=
    congrArg (1 + ·) (Tally.ofProjection_indexed s.data.tables e)
  have hundecoded : (.logged + projected : Tally) .undecoded = projected .undecoded :=
    Nat.zero_add _
  have hrefused : (.logged + projected : Tally).refused = projected.refused :=
    (Tally.refused_add .logged projected).trans (Nat.zero_add _)
  have hsettled : (.logged + projected : Tally).settled = projected.settled :=
    (Tally.settled_add .logged projected).trans (Nat.zero_add _)
  have hentries : ((s.append e now).project e).data.entries =
      s.data.entries ++ [.ofEvent e now] := by
    rw [Partition.entries, log_project]
    exact hvalues
  refine ⟨?_, ?_, ?_, ?_⟩
  · rw [hindexed, hentries, List.length_append, List.length_singleton]
  · rw [hundecoded, Partition.failures, hentries, List.countP_append, List.countP_singleton]
    exact congrArg _ (Tally.ofProjection_undecoded s.data.tables e now).symm
  · rw [hrefused, Partition.frozen, tables_project]
    exact Tally.size_quarantined_absorb s.data.tables e
  · rw [hindexed, hsettled]
    exact Tally.settled_ofProjection_le s.data.tables e

namespace Holds

variable {e : RawEvent}

theorem tally_take_late (h : s.Holds contract done []) (he : ¬ e.After done) (now : Timestamp) :
    (s.take (e, now)).report.tally = s.report.tally := by
  cases hr : s.tracker.reached? e.position with
  | none => exact absurd (h.reached?_eq_none_iff.mp hr) he
  | some checkpoint =>
    have htake : s.take (e, now) = s.see.drop checkpoint e := by simp only [take, hr]
    rw [htake, tally_drop]
    rfl

theorem accounts_take_new (h : s.Holds contract done []) (he : e.After done) (now : Timestamp) :
    ∃ t : Tally, (s.take (e, now)).report.tally = s.report.tally + t ∧
      t.Accounts s.data (s.take (e, now)).data := by
  have hlog : LogHolds contract s.data.log done := by simpa using h.log
  rw [h.take_eq_append he]
  refine ⟨_, ?_, accounts_append_project (s := s.see) (hlog.values_insert he _)⟩
  rw [← add_assoc]
  exact (tally_project _ e).trans (congrArg (· + _) (tally_append s.see e now))

theorem accounts_takeAll {xs : List (RawEvent × Timestamp)} (h : s.Holds contract done [])
    (hxs : ∀ x ∈ xs, x.1.contract = contract) :
    ∃ t : Tally, (s.takeAll xs).report.tally = s.report.tally + t ∧
      t.Accounts s.data (s.takeAll xs).data := by
  induction xs generalizing s done with
  | nil => exact ⟨0, rfl, rfl, rfl, rfl, le_rfl⟩
  | cons x xs ih =>
    obtain ⟨e, now⟩ := x
    have he : e.contract = contract := hxs (e, now) (by simp)
    have hxs' : ∀ x ∈ xs, x.1.contract = contract := fun x hx => hxs x (by simp [hx])
    rw [takeAll_cons]
    by_cases hafter : e.After done
    · obtain ⟨t, ht, hfirst⟩ := h.accounts_take_new hafter now
      obtain ⟨u, hu, hrest⟩ := ih (h.take_new he hafter now).1 hxs'
      exact ⟨t + u, by rw [hu, ht, add_assoc], hfirst.add hrest⟩
    · obtain ⟨t, ht, hrest⟩ := ih (h.holds_take_late hafter now) hxs'
      rw [h.tally_take_late hafter] at ht
      rw [(h.take_late hafter now).1] at hrest
      exact ⟨t, ht, hrest⟩

end Holds

end Course

/-- The report of a committed batch counts what the batch has done to the data. -/
theorem Processed.accounts {contract : ContractId} {es fs : List RawEvent} {p p' : Partition}
    {report : BatchReport} (h : Processed contract es fs p report p') (hp : p.Holds contract es) :
    report.tally.Accounts p p' := by
  obtain ⟨times, now, -, hcomputed⟩ := h.computed
  obtain ⟨rfl, rfl⟩ := Prod.mk.inj hcomputed
  have hcontract : ∀ x ∈ fs.zip times, x.1.contract = contract := fun x hx =>
    h.contract_eq x.1 (List.of_mem_zip hx).1
  obtain ⟨t, ht, haccounts⟩ := hp.start.accounts_takeAll hcontract
  have hempty : (BatchReport.empty contract).tally.Accounts p p := ⟨rfl, rfl, rfl, le_rfl⟩
  have hall := hempty.add haccounts
  rw [show (BatchReport.empty contract).tally + t = _ from ht.symm] at hall
  exact ⟨hall.entries_eq, hall.failures_eq, hall.frozen_eq, hall.settled_le⟩

theorem Rebuilt.accounts {contract : ContractId} {es : List RawEvent} {p p' : Partition}
    {report : BatchReport} (h : Rebuilt contract es p report p') (hp : p.Holds contract es) :
    (0 : Tally).Accounts p p' := by
  have hentries : p'.entries = p.entries := by
    rw [Partition.entries, h.log_eq hp, Partition.entries]
  refine ⟨?_, ?_, ?_, le_rfl⟩
  · rw [hentries]
    rfl
  · rw [Partition.failures, hentries]
    rfl
  · rw [Partition.frozen, h.holds.tables_eq, ← hp.tables_eq]
    rfl

end EventIndex
