import EventIndex.Proofs.Indexer.Call
import EventIndex.Proofs.Projection.Life

/-! # Refusals by entity

Which events of an entity are refused, and why, is told by its history: the first refusal freezes
the entity, and its later events are refused because of that. The reports of the calls list just
these refusals. -/

namespace EventIndex

namespace Entity

variable {contract : ContractId} {e : Entity} {before later xs : List RawEvent} {x : RawEvent}

/-- Why an event about the entity is refused, if it is. -/
def refusal? (contract : ContractId) (e : Entity) (s : e.State) (x : Position × e.Subject) :
    Option Refusal :=
  match s.quarantine with
  | some q => some (.quarantined e q.position)
  | none =>
    match e.step contract x.1 x.2 s.row with
    | .ok _ => none
    | .error refusal => some refusal

/-- What is reported of an event that follows `before`, if it is about the entity and refused. -/
def rejection? (contract : ContractId) (e : Entity) (before : List RawEvent) (x : RawEvent) :
    Option Rejection :=
  ((e.fact? x).bind (e.refusal? contract (e.history contract before))).map (⟨.of x, ·⟩)

/-- What is reported of the events that follow after `before`, one after the other. -/
def rejections (contract : ContractId) (e : Entity) (before : List RawEvent) :
    List RawEvent → List Rejection
  | [] => []
  | x :: xs => (e.rejection? contract before x).toList ++ e.rejections contract (before ++ [x]) xs

def about (e : Entity) (xs : List RawEvent) : List RawEvent :=
  xs.filter fun x => (e.fact? x).isSome

/-! ## After the first refusal -/

theorem history_append (contract : ContractId) (e : Entity) (before xs : List RawEvent) :
    e.history contract (before ++ xs) =
      (xs.filterMap e.fact?).foldl (e.follow contract) (e.history contract before) := by
  rw [history, List.filterMap_append, List.foldl_append, history]

/-- A frozen entity stays as it is. -/
theorem history_of_quarantine {q : Quarantine}
    (h : (e.history contract before).quarantine = some q) (xs : List RawEvent) :
    e.history contract (before ++ xs) = e.history contract before := by
  rw [history_append]
  induction xs.filterMap e.fact? with
  | nil => rfl
  | cons f fs ih =>
    have hfollow : e.follow contract (e.history contract before) f = e.history contract before := by
      simp only [follow, h]
    rw [List.foldl_cons, hfollow, ih]

theorem quarantine_eq_none_of_row_ne
    (h : (e.history contract (before ++ [x])).row ≠ (e.history contract before).row) :
    (e.history contract (before ++ [x])).quarantine = none := by
  rw [history_append_singleton] at h ⊢
  cases hx : e.fact? x with
  | none => simp [hx] at h
  | some f =>
    simp only [hx, Option.map_some, Option.getD_some, follow] at h ⊢
    cases hq : (e.history contract before).quarantine with
    | some q => simp [hq] at h
    | none =>
      rw [hq] at h
      rcases hstep : e.step contract f.1 f.2 (e.history contract before).row with r | (_ | row)
      · simp [hstep] at h
      · simp [hstep] at h
      · rfl

theorem rejections_append (contract : ContractId) (e : Entity) (before xs later : List RawEvent) :
    e.rejections contract before (xs ++ later) =
      e.rejections contract before xs ++ e.rejections contract (before ++ xs) later := by
  induction xs generalizing before with
  | nil => simp [rejections]
  | cons x xs ih => simp [rejections, ih]

theorem rejections_of_about_eq_nil (before : List RawEvent) (h : e.about xs = []) :
    e.rejections contract before xs = [] := by
  induction xs generalizing before with
  | nil => rfl
  | cons x xs ih =>
    cases hx : e.fact? x with
    | none => simp [rejections, rejection?, hx, ih (before ++ [x]) (by simpa [about, hx] using h)]
    | some f => simp [about, hx] at h

/-- As long as the entity is not frozen, nothing was refused. -/
theorem rejections_eq_nil (h : (e.history contract xs).quarantine = none) :
    e.rejections contract [] xs = [] := by
  induction xs using List.reverseRecOn with
  | nil => rfl
  | append_singleton xs x ih =>
    have hbefore : (e.history contract xs).quarantine = none := by
      rw [Option.eq_none_iff_forall_ne_some]
      intro q hq
      rw [history_of_quarantine hq, hq] at h
      cases h
    rw [rejections_append, ih hbefore]
    cases hx : e.fact? x with
    | none => simp [rejections, rejection?, hx]
    | some f =>
      rw [history_append_singleton, hx] at h
      simp only [Option.map_some, Option.getD_some, follow, hbefore] at h
      cases hstep : e.step contract f.1 f.2 (e.history contract xs).row with
      | ok t => simp [rejections, rejection?, refusal?, hx, hbefore, hstep]
      | error r =>
        rw [hstep] at h
        cases h

theorem rejections_of_quarantine {q : Quarantine}
    (h : (e.history contract before).quarantine = some q) (xs : List RawEvent) :
    e.rejections contract before xs = (e.about xs).map (⟨.of ·, .quarantined e q.position⟩) := by
  induction xs generalizing before with
  | nil => rfl
  | cons x xs ih =>
    have hnext : (e.history contract (before ++ [x])).quarantine = some q := by
      rw [history_of_quarantine h]
      exact h
    rw [rejections, ih hnext]
    cases hfact : e.fact? x <;> simp [rejection?, refusal?, about, hfact, h]

/-- The first event that is refused freezes the entity for all others. -/
theorem rejections_of_refused {row : Option e.kind.Row} {f : Position × e.Subject} {r : Refusal}
    (h : e.history contract before = ⟨row, none⟩) (hlater : e.about later = x :: xs)
    (hfact : e.fact? x = some f) (hstep : e.step contract f.1 f.2 row = .error r) :
    e.rejections contract before later =
      ⟨.of x, r⟩ :: xs.map (⟨.of ·, .quarantined e x.position⟩) := by
  induction later generalizing before with
  | nil => cases hlater
  | cons y later ih =>
    rw [rejections]
    cases hy : e.fact? y with
    | none =>
      have hsame : e.history contract (before ++ [y]) = e.history contract before := by
        simp [history_append_singleton, hy]
      rw [ih (hsame.trans h) (by simpa [about, hy] using hlater)]
      simp [rejection?, hy]
    | some g =>
      obtain ⟨rfl, hxs⟩ : y = x ∧ e.about later = xs := by simpa [about, hy] using hlater
      obtain rfl : g = f := Option.some.inj (hy.symm.trans hfact)
      have hfrozen : (e.history contract (before ++ [y])).quarantine =
          some ⟨contract, e, g.1, r.message⟩ := by
        simp [history_append_singleton, hy, h, follow, hstep]
      rw [rejections_of_quarantine hfrozen, hxs, (fact?_eq_some hy).1]
      simp [rejection?, refusal?, hy, h, hstep]

end Entity

/-! ## What the projection refuses -/

namespace Tables

variable {contract : ContractId} {position : Position}

theorem entity_of_apply_error {t : Tables} {p : Payload} {r : Refusal}
    (h : (t.apply contract position (.recognized p)).1 = .error r) : r.entity = p.target := by
  unfold apply at h
  dsimp only at h
  split at h
  · cases h
    rfl
  · split at h
    · rename_i hstep
      cases h
      exact Payload.entity_of_step_error hstep
    · cases h
    · cases h

theorem refusal?_stateOf (t : Tables) (p : Payload) :
    p.target.refusal? contract (t.stateOf p.target) (position, ⟨p, rfl⟩) =
      match (t.apply contract position (.recognized p)).1 with
      | .ok _ => none
      | .error refusal => some refusal := by
  have hstep : p.target.step contract position ⟨p, rfl⟩ (t.row? p.target.kind p.target.id) =
    p.step contract position (t.row? p.kind p.id) := rfl
  simp only [Entity.refusal?, stateOf, apply, hstep]
  cases t.quarantine? p.target with
  | some q => rfl
  | none =>
    rcases p.step contract position (t.row? p.kind p.id) with r | (_ | row) <;> rfl

end Tables

namespace BatchReport

def rejectedOf (r : BatchReport) (e : Entity) : List Rejection :=
  r.rejected.filter (·.refusal.entity = e)

theorem rejectedOf_count (r : BatchReport) (e : Entity) (context : EventContext)
    (outcome : Except Refusal Applied) : (r.count context outcome).rejectedOf e =
      r.rejectedOf e ++
        match outcome with
        | .ok _ => []
        | .error refusal => if refusal.entity = e then [⟨context, refusal⟩] else [] := by
  cases outcome with
  | ok applied => cases applied <;> simp [count, rejectedOf]
  | error refusal =>
    by_cases h : refusal.entity = e <;> simp [count, rejectedOf, h]

end BatchReport

namespace Course

variable {contract : ContractId} {s : Course} {done ahead : List RawEvent} {e : Entity}

@[simp] theorem rejected_drop (s : Course) (checkpoint : Position) (x : RawEvent) :
    (s.drop checkpoint x).report.rejected = s.report.rejected := by
  simp only [drop]
  split <;> rfl

/-- Of an event that is projected, what its history refuses is reported. -/
theorem rejectedOf_project (htables : s.data.tables = .derive done)
    (hdone : ∀ y ∈ done, y.contract = contract) {x : RawEvent} (hx : x.contract = contract)
    (e : Entity) : (s.project x).report.rejectedOf e =
      s.report.rejectedOf e ++ (e.rejection? contract done x).toList := by
  subst hx
  have hstate (f : Entity) : (s.data.tables).stateOf f = f.history x.contract done := by
    rw [htables, Tables.stateOf_derive hdone]
  simp only [project, Entity.rejection?, Entity.fact?]
  cases decode (.classify x.topic) x.payload x.position with
  | error err => simp [BatchReport.rejectedOf]
  | ok d =>
    dsimp only
    rw [BatchReport.rejectedOf_count]
    congr 1
    cases d with
    | unrecognized topic raw => rfl
    | recognized p =>
      by_cases hp : p.target = e
      · subst hp
        rw [← hstate]
        simp only [dite_true, Option.bind_some, Tables.refusal?_stateOf]
        cases happly : (s.data.tables.apply x.contract x.position (.recognized p)).1 with
        | ok applied => rfl
        | error refusal => simp [Tables.entity_of_apply_error happly]
      · simp only [hp, dite_false, Option.bind_none, Option.map_none, Option.toList_none]
        cases happly : (s.data.tables.apply x.contract x.position (.recognized p)).1 with
        | ok applied => rfl
        | error refusal => simp [Tables.entity_of_apply_error happly, hp]

namespace Holds

theorem rejectedOf_take_late (h : s.Holds contract done ahead) {x : RawEvent} (hx : ¬ x.After done)
    (now : Timestamp) : (s.take (x, now)).report.rejectedOf e = s.report.rejectedOf e := by
  cases hr : s.tracker.reached? x.position with
  | none => exact absurd (h.reached?_eq_none_iff.mp hr) hx
  | some checkpoint =>
    have htake : s.take (x, now) = s.see.drop checkpoint x := by simp only [take, hr]
    rw [htake, BatchReport.rejectedOf, rejected_drop]
    rfl

private theorem rejectedOf_take (h : s.Holds contract done ahead) {x : RawEvent} {now : Timestamp}
    {applied : Course} (hx : x.contract = contract)
    (htake : s.take (x, now) = (applied.project x).advance x.position)
    (htables : applied.data.tables = s.data.tables)
    (hreport : applied.report.rejected = s.report.rejected) :
    (s.take (x, now)).report.rejectedOf e =
      s.report.rejectedOf e ++ (e.rejection? contract done x).toList := by
  have hdone : ∀ y ∈ done, y.contract = contract := fun y hy =>
    h.log.contract_eq y (List.mem_append_left ahead hy)
  have hbefore : applied.report.rejectedOf e = s.report.rejectedOf e := by
    rw [BatchReport.rejectedOf, hreport, BatchReport.rejectedOf]
  rw [htake, ← hbefore]
  exact rejectedOf_project (htables.trans h.tables_eq) hdone hx e

theorem rejectedOf_takeAll {xs : List (RawEvent × Timestamp)} (h : s.Holds contract done [])
    (hxs : ∀ x ∈ xs, x.1.contract = contract) (e : Entity) :
    (s.takeAll xs).report.rejectedOf e = s.report.rejectedOf e ++
      e.rejections contract done (maxima done (xs.map Prod.fst)) := by
  induction xs generalizing s done with
  | nil => simp [maxima, Entity.rejections]
  | cons x xs ih =>
    obtain ⟨x, now⟩ := x
    have hx : x.contract = contract := hxs (x, now) (by simp)
    have hxs' : ∀ x ∈ xs, x.1.contract = contract := fun x hx => hxs x (by simp [hx])
    rw [takeAll_cons, List.map_cons]
    by_cases hafter : x.After done
    · rw [ih (h.take_new hx hafter now).1 hxs', maxima_cons_of_after hafter, Entity.rejections,
        h.rejectedOf_take hx (h.take_eq_append hafter now) rfl rfl, List.append_assoc]
    · rw [ih (h.holds_take_late hafter now) hxs', h.rejectedOf_take_late hafter,
        maxima_cons_of_not_after hafter]

theorem rejectedOf_takeAll_ahead {xs : List (RawEvent × Timestamp)}
    (h : s.Holds contract done ahead) (hxs : xs.map Prod.fst = ahead) (e : Entity) :
    (s.takeAll xs).report.rejectedOf e =
      s.report.rejectedOf e ++ e.rejections contract done ahead := by
  induction xs generalizing s done ahead with
  | nil =>
    subst hxs
    simp [Entity.rejections]
  | cons x xs ih =>
    obtain ⟨x, now⟩ := x
    obtain rfl : x :: xs.map Prod.fst = ahead := hxs
    have hx : x.contract = contract := h.log.contract_eq x (by simp)
    rw [takeAll_cons, ih (h.take_ahead now).1 rfl, Entity.rejections,
      h.rejectedOf_take hx (h.take_eq_recognize now) rfl rfl, List.append_assoc]

end Holds

end Course

/-! ## What the calls report -/

section Reports

variable {contract : ContractId} {p p' : Partition} {es fs : List RawEvent} {report : BatchReport}

/-- A batch reports the refusals that it adds to those of the log. -/
theorem Processed.rejections_eq (h : Processed contract es fs p report p')
    (hp : p.Holds contract es) (e : Entity) :
    e.rejections contract [] (es ++ maxima es fs) =
      e.rejections contract [] es ++ report.rejectedOf e := by
  obtain ⟨times, now, htimes, heq⟩ := h.computed
  have hzip : ∀ x ∈ fs.zip times, x.1.contract = contract := fun x hx =>
    h.contract_eq x.1 (List.of_mem_zip hx).1
  have hreport : (p.process contract (fs.zip times) now).1.rejectedOf e = _ :=
    hp.start.rejectedOf_takeAll hzip e
  rw [heq, List.map_fst_zip htimes.ge] at hreport
  rw [hreport, Entity.rejections_append]
  rfl

theorem Rebuilt.rejections_eq (h : Rebuilt contract es p report p')
    (hp : p.Holds contract es) (e : Entity) :
    e.rejections contract [] es = report.rejectedOf e := by
  obtain ⟨times, now, htimes, heq⟩ := h.computed
  have hstart : (Course.start contract p.cleared).Holds contract [] es :=
    ⟨hp.log, rfl, .start contract⟩
  have hreport : (p.cleared.process contract (es.zip times) now).1.rejectedOf e = _ :=
    hstart.rejectedOf_takeAll_ahead (List.map_fst_zip htimes.ge) e
  rw [heq] at hreport
  exact hreport.symm

end Reports

/-- The calls list just those refusals of the entity that its history tells: a batch those that it
adds to the ones of the log, and a rebuild all of the log. They succeed if no more commits are
refused than there may be retries. -/
structure World.ReportsRefusals {ρ : Type} [EventSource ρ] (w : World MemoryStore ρ)
    (contract : ContractId) (e : Entity) : Prop where
  process_ok : ∀ (policy : RetryPolicy) (fs : List RawEvent), (∀ x ∈ fs, x.contract = contract) →
    w.store.commitFailures ≤ policy.maxRetries.toNat →
      ∃ report, (w.perform (Job.process policy contract fs)).1 = .ok report
  process_eq : ∀ (policy : RetryPolicy) (fs : List RawEvent) (report : BatchReport),
    let logged (w : World MemoryStore ρ) := (w.store.partition contract).entries.map LogEntry.toRaw
    let called := w.perform (Job.process policy contract fs)
    called.1 = .ok report →
      logged called.2 = logged w ++ maxima (logged w) fs ∧
        e.rejections contract [] (logged called.2) =
          e.rejections contract [] (logged w) ++ report.rejectedOf e
  rebuild_ok : ∀ policy : RetryPolicy, w.store.commitFailures ≤ policy.maxRetries.toNat →
    ∃ report, (w.perform (Job.rebuild policy contract)).1 = .ok report
  rebuild_eq : ∀ (policy : RetryPolicy) (report : BatchReport),
    let logged (w : World MemoryStore ρ) := (w.store.partition contract).entries.map LogEntry.toRaw
    let called := w.perform (Job.rebuild policy contract)
    called.1 = .ok report →
      logged called.2 = logged w ∧ e.rejections contract [] (logged w) = report.rejectedOf e

theorem Partition.Holds.reportsRefusals {ρ : Type} [EventSource ρ] {w : World MemoryStore ρ}
    {contract : ContractId} {es : List RawEvent}
    (h : (w.store.partition contract).Holds contract es) (e : Entity) :
    w.ReportsRefusals contract e := by
  refine ⟨fun policy fs hfs hlimit => ?_, fun policy fs report => ?_, fun policy hlimit => ?_,
    fun policy report => ?_⟩
  · obtain ⟨last, -, hok⟩ := w.perform_process policy contract fs
    exact hok (w.commits_process hfs) hlimit
  · intro logged called hreport
    obtain ⟨last, hdecided, -⟩ := w.perform_process policy contract fs
    have hprocessed := hdecided.processed h hreport
    have hlogged : logged called.2 = es ++ maxima es fs := hprocessed.holds.entries_eq
    rw [hlogged, show logged w = es from h.entries_eq]
    exact ⟨rfl, hprocessed.rejections_eq h e⟩
  · obtain ⟨last, -, hok⟩ := w.perform_rebuild policy contract
    exact hok (World.commits_rebuild h) hlimit
  · intro logged called hreport
    obtain ⟨last, hdecided, -⟩ := w.perform_rebuild policy contract
    have hrebuilt := hdecided.rebuilt h hreport
    have hlogged : logged called.2 = es := hrebuilt.holds.entries_eq
    rw [hlogged, show logged w = es from h.entries_eq]
    exact ⟨rfl, hrebuilt.rejections_eq h e⟩

end EventIndex
