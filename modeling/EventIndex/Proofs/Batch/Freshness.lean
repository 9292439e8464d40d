import EventIndex.Proofs.Batch.Committed
import EventIndex.Proofs.Program.Along
import EventIndex.Proofs.Projection.Positions

/-! # Events that are taken up

Within its transaction a batch records and applies an event only when the event is after all
positions in the rows and in the quarantine that the transaction sees. -/

namespace EventIndex

open Program

namespace Batch

/-- An event that is about to be recorded or applied is after all positions in the tables. The log
is also asked for late events; if it does not have such an event, there is a line to be written. -/
def freshness : Guard Request.signature Partition where
  Holds x data :=
    (∀ p k, x = .call (.entry p) k →
      (∃ line rest, k (Except.ok none) = .note line rest) ∨ data.tables.Within (· < p)) ∧
    ∀ entity k, x = .call (.quarantine entity) k →
      ∃ contract p e next, x = (apply contract p (.recognized e)).run >>= next ∧
        data.tables.Within (· < p)
  bind := by
    rintro α β x f data hx ⟨hentry, hquarantine⟩
    cases x with
    | done a => exact absurd rfl (hx a)
    | note line x => exact ⟨by rintro p k ⟨⟩, by rintro entity k ⟨⟩⟩
    | now x => exact ⟨by rintro p k ⟨⟩, by rintro entity k ⟨⟩⟩
    | pause ms x => exact ⟨by rintro p k ⟨⟩, by rintro entity k ⟨⟩⟩
    | call r x =>
      constructor
      · rintro p k ⟨⟩
        refine (hentry p x rfl).imp_left ?_
        rintro ⟨line, rest, hrest⟩
        exact ⟨line, rest >>= f, by change (x _).bind f = _; rw [hrest]; rfl⟩
      · rintro entity k ⟨⟩
        obtain ⟨contract, p, e, next, hnext, hwithin⟩ := hquarantine entity x rfl
        refine ⟨contract, p, e, fun a => next a >>= f, ?_, hwithin⟩
        rw [hnext, LawfulMonad.bind_assoc]

/-! ## Parts that record and apply nothing -/

private theorem quiet_ask {r : Request} (hentry : ∀ p, r ≠ .entry p)
    (hquarantine : ∀ e, r ≠ .quarantine e) : (Session.ask r).run.Quiet freshness := by
  refine ⟨fun data => ⟨?_, ?_⟩, fun a => trivial⟩
  · rintro p k ⟨⟩
    exact absurd rfl (hentry p)
  · rintro entity k ⟨⟩
    exact absurd rfl (hquarantine entity)

private theorem quiet_note (line : Line) : (Batch.note line).run.Quiet freshness :=
  ⟨fun data => ⟨by rintro p k ⟨⟩, by rintro entity k ⟨⟩⟩, trivial⟩

private theorem quiet_sessionNote (line : Line) : (Session.note line).run.Quiet freshness :=
  ⟨fun data => ⟨by rintro p k ⟨⟩, by rintro entity k ⟨⟩⟩, trivial⟩

private theorem quiet_sessionClock :
    (ExceptT.lift clock : Session Timestamp).run.Quiet freshness :=
  ⟨fun data => ⟨by rintro p k ⟨⟩, by rintro entity k ⟨⟩⟩, fun t => trivial⟩

private theorem quiet_ofSession {α : Type} {x : Session α} (h : x.run.Quiet freshness) :
    (ofSession x).run.Quiet freshness := by
  rw [ofSession, ExceptT.run_adapt, map_eq_pure_bind]
  exact h.bind fun a => trivial

private theorem quiet_tracker (contract : ContractId) :
    (Session.tracker contract).run.Quiet freshness :=
  (quiet_ask (by simp) (by simp)).run_bind fun c => trivial

private theorem quiet_persist (t : Tracker) : (Session.persist t).run.Quiet freshness := by
  unfold Session.persist
  split
  · refine quiet_sessionClock.run_bind fun now => ?_
    split
    · exact (quiet_ask (by simp) (by simp)).run_bind fun _ => trivial
    · trivial
  · trivial

private theorem quiet_saveQuarantine (contract : ContractId) (p : Position) (r : Refusal) :
    (quarantine contract p r).run.Quiet freshness :=
  (quiet_sessionNote _).run_bind fun _ => quiet_ask (by simp) (by simp)

private theorem quiet_applyToRow (contract : ContractId) (p : Position) (e : Payload) :
    (applyToRow contract p e).run.Quiet freshness := by
  refine (quiet_ask (by simp) (by simp)).run_bind fun current => ?_
  split
  · exact (quiet_saveQuarantine _ _ _).run_bind fun _ => trivial
  · trivial
  · rename_i row _
    have hsave : (Session.ask (.saveRow e.kind row)).run.Quiet freshness :=
      quiet_ask (by simp) (by simp)
    split
    · exact (quiet_sessionNote _).run_bind fun _ => hsave.run_bind fun _ => trivial
    · exact hsave.run_bind fun _ => trivial

/-! ## Parts that do -/

section Parts

variable {data : Partition}

private theorem rule_mono : Partition.rule.Mono :=
  Rule.mono_ofAnswer _

private theorem along_drop (checkpoint : Position) (e : RawEvent) (report : BatchReport)
    {Q : Except IndexerError BatchReport → Partition → Prop}
    (h : (drop checkpoint e report).run.wp Partition.rule Q data) :
    (drop checkpoint e report).run.along Partition.rule freshness Q data := by
  refine along_call rule_mono ?_ ⟨?_, ?_⟩ h
  · intro a
    cases a with
    | error err => trivial
    | ok logged =>
      change Quiet freshness (ExceptT.run (if _ then _ else _))
      split
      · trivial
      · exact (quiet_note _).run_bind fun _ => trivial
  · rintro p k ⟨⟩
    exact .inl ⟨_, _, rfl⟩
  · rintro entity k ⟨⟩

private theorem along_record (x : LogEntry) (h : data.tables.Within (· < x.position))
    {Q : Except StorageError (Except LogConflict Logged) → Partition → Prop}
    (hwp : (Log.record x).run.wp Partition.rule Q data) :
    (Log.record x).run.along Partition.rule freshness Q data := by
  refine along_call rule_mono ?_ ⟨?_, ?_⟩ hwp
  · intro a
    cases a with
    | error err => trivial
    | ok old =>
      cases old with
      | none => exact (quiet_ask (by simp) (by simp)).run_bind fun _ => trivial
      | some old =>
        change Quiet freshness (ExceptT.run (if _ then _ else _))
        split <;> trivial
  · rintro p k ⟨⟩
    exact .inr h
  · rintro entity k ⟨⟩

private theorem along_apply (contract : ContractId) {p : Position} (d : Decoded)
    (h : data.tables.Within (· < p))
    {Q : Except StorageError (Except Refusal Applied) → Partition → Prop}
    (hwp : (apply contract p d).run.wp Partition.rule Q data) :
    (apply contract p d).run.along Partition.rule freshness Q data := by
  cases d with
  | unrecognized topic raw => exact hwp
  | recognized e =>
    refine along_call rule_mono ?_ ⟨?_, ?_⟩ hwp
    · intro a
      cases a with
      | error err => trivial
      | ok q =>
        cases q with
        | some q => trivial
        | none => exact quiet_applyToRow contract p e
    · rintro q k ⟨⟩
    · rintro entity k ⟨⟩
      exact ⟨contract, p, e, pure, (bind_pure _).symm, h⟩

end Parts

/-! ## The events of a batch -/

section Events

variable {contract : ContractId} {data : Partition}

/-- Nothing is asked of the end. -/
private abbrev anything {α : Type} (_ : α) (_ : Partition) : Prop := True

private theorem along_of_quiet {α : Type} {x : Program Request.signature α}
    (h : x.Quiet freshness) : x.along Partition.rule freshness anything data :=
  h.along rule_mono (wp_true _ x data)

private theorem along_project (e : RawEvent) (d : Except DecodeError Decoded)
    (report : BatchReport) (h : data.tables.Within (· < e.position)) :
    (project e d report).run.along Partition.rule freshness anything data := by
  cases d with
  | error err => exact along_of_quiet ((quiet_note _).run_bind fun _ => trivial)
  | ok d =>
    have happly := along_apply e.contract d h (wp_true _ _ data)
    refine along_run_bind rule_mono _ (along_run_adapt rule_mono _ _ ?_)
    refine along_mono rule_mono _ ?_ happly
    intro r data' _
    cases r with
    | error err => trivial
    | ok outcome =>
      refine along_of_quiet ?_
      cases outcome with
      | error refusal => exact (quiet_note _).run_bind fun _ => trivial
      | ok applied => cases applied <;> trivial

private theorem wp_record_tables (e : RawEvent) (d : Except DecodeError Decoded) (now : Timestamp) :
    (Log.record (entryFor e d now)).run.wp Partition.rule
      (fun _ data' => data'.tables = data.tables) data := by
  rw [wp_record]
  split
  · rfl
  · split <;> rfl

private theorem along_index (e : RawEvent) (report : BatchReport)
    (h : data.tables.Within (· < e.position)) :
    (index e report).run.along Partition.rule freshness anything data := by
  let d := decode (.classify e.topic) e.payload e.position
  have hclock : (ExceptT.lift clock : Batch Timestamp).run.Quiet freshness :=
    ⟨fun data => ⟨by rintro p k ⟨⟩, by rintro entity k ⟨⟩⟩, fun t => trivial⟩
  refine along_run_bind rule_mono _ (hclock.along rule_mono fun now => ?_)
  have hentry : data.tables.Within (· < (entryFor e d now).position) := by
    rwa [position_entryFor]
  have hrecord := along_record _ hentry (wp_record_tables e d now)
  refine along_run_bind rule_mono _ (along_run_adapt rule_mono _ _ ?_)
  refine along_mono rule_mono _ ?_ hrecord
  intro r data' htables
  have h' : data'.tables.Within (· < e.position) := htables ▸ h
  cases r with
  | error err => trivial
  | ok logged =>
    cases logged with
    | error conflict => exact along_of_quiet ((quiet_note _).run_bind fun _ => trivial)
    | ok logged => cases logged <;> exact along_project e d _ h'

end Events

end Batch

/-! ## The tracker and the tables -/

/-- An event after the tracker is after all positions in the tables. -/
def Course.Fresh (s : Course) : Prop :=
  ∀ e : RawEvent, s.tracker.reached? e.position = none → s.data.tables.Within (· < e.position)

namespace Course

variable {contract : ContractId} {p : Partition} {es : List RawEvent} {s : Course}

theorem tables_index (s : Course) (e : RawEvent) (now : Timestamp) :
    (s.index e now).data.tables = s.data.tables.absorb e ∨
      (s.index e now).data.tables = s.data.tables := by
  simp only [index]
  split
  · exact .inl (by simp [append])
  · split
    · exact .inl (by simp [recognize])
    · exact .inr rfl

theorem Fresh.take (h : s.Fresh) (x : RawEvent × Timestamp) : (s.take x).Fresh := by
  obtain ⟨e, now⟩ := x
  cases hr : s.tracker.reached? e.position with
  | some checkpoint =>
    have htake : s.take (e, now) = s.see.drop checkpoint e := by simp only [Course.take, hr]
    intro f hf
    rw [htake] at hf ⊢
    simpa using h f (by simpa using hf)
  | none =>
    have htake : s.take (e, now) = (s.see.index e now).advance e.position := by
      simp only [Course.take, hr]
    intro f hf
    have hlt : e.position < f.position := by
      simpa [htake, Tracker.reached?, advance, Option.filter_eq_none_iff] using hf
    have hbefore : s.see.data.tables.Within (· < f.position) :=
      (h e hr).mono fun q hq => hq.trans hlt
    rw [htake]
    change (s.see.index e now).data.tables.Within _
    rcases s.see.tables_index e now with htables | htables <;> rw [htables]
    · exact hbefore.absorb hlt
    · exact hbefore

end Course

namespace Partition.Holds

variable {contract : ContractId} {p : Partition} {es : List RawEvent}

theorem fresh_start (h : p.Holds contract es) : (Course.start contract p).Fresh := by
  intro e he
  have hafter := (h.tracker.reached?_eq_none_iff h.log.rising).mp he
  change p.tables.Within _
  rw [h.tables_eq]
  exact Tables.within_derive_lt hafter

end Partition.Holds

theorem Course.fresh_start_cleared (contract : ContractId) (p : Partition) :
    (Course.start contract p.cleared).Fresh :=
  fun _ _ => .empty _

/-! ## Whole batches -/

namespace Batch

variable {contract : ContractId} {data : Partition}

private theorem along_take (contract : ContractId) {s : Course} (h : s.Fresh) (e : RawEvent) :
    (take contract (s.tracker, s.report) e).run.along Partition.rule freshness anything s.data := by
  unfold take
  dsimp only
  split
  · trivial
  · cases hr : s.tracker.reached? e.position with
    | some checkpoint =>
      have hdrop := along_drop checkpoint e s.see.report (wp_true _ _ s.data)
      refine along_run_bind rule_mono _ (along_mono rule_mono _ ?_ hdrop)
      intro r data' _
      cases r <;> trivial
    | none =>
      have hindex := along_index e s.see.report (h e hr)
      refine along_run_bind rule_mono _ (along_mono rule_mono _ ?_ hindex)
      intro r data' _
      cases r with
      | error err => trivial
      | ok report => cases s.tracker.advance e.position <;> trivial

private theorem wp_take_ok (contract : ContractId) (s : Course) (e : RawEvent) :
    (take contract (s.tracker, s.report) e).run.wp Partition.rule
      (fun r data' => ∀ progress, r = .ok progress → ∃ now,
        progress = ((s.take (e, now)).tracker, (s.take (e, now)).report) ∧
          data' = (s.take (e, now)).data) s.data := by
  by_cases he : e.contract = contract
  · refine wp_take s he fun now => ?_
    rintro _ ⟨⟩
    exact ⟨now, rfl, rfl⟩
  · refine wp_take_foreign s he ?_
    rintro _ ⟨⟩

private theorem along_foldlM_take (es : List RawEvent) {s : Course} (h : s.Fresh) :
    (es.foldlM (take contract) (s.tracker, s.report)).run.along Partition.rule freshness anything
      s.data := by
  induction es generalizing s with
  | nil => trivial
  | cons e es ih =>
    rw [List.foldlM_cons]
    have htake := along_and_wp _ (along_take contract h e) (wp_take_ok contract s e)
    refine along_run_bind rule_mono _ (along_mono rule_mono _ ?_ htake)
    rintro r data' ⟨-, hok⟩
    cases r with
    | error err => trivial
    | ok progress =>
      obtain ⟨now, rfl, rfl⟩ := hok progress rfl
      exact ih (h.take (e, now))

/-- In a batch that goes on from a fresh start, every event is after the rows when it is taken
up. -/
theorem along_process (h : (Course.start contract data).Fresh) (es : List RawEvent) :
    (process contract es).run.along Partition.rule freshness (fun _ _ => True) data := by
  have htracker : (Session.tracker contract).run.wp Partition.rule
      (fun r data' => r = .ok (Tracker.resume contract data.checkpoint) ∧ data' = data) data := by
    simp [Session.tracker, Partition.request, Except.map]
  refine along_run_bind rule_mono _ (along_run_adapt rule_mono _ _
    ((quiet_tracker contract).along rule_mono (wp_mono rule_mono _ ?_ htracker)))
  rintro _ _ ⟨rfl, rfl⟩
  refine along_run_bind rule_mono _ (along_mono rule_mono _ ?_ (along_foldlM_take es h))
  intro r data' _
  cases r with
  | error err => trivial
  | ok progress =>
    exact along_of_quiet ((quiet_ofSession (quiet_persist progress.1)).run_bind fun _ => trivial)

theorem along_rebuild (contract : ContractId) (data : Partition) :
    (rebuild contract).run.along Partition.rule freshness (fun _ _ => True) data := by
  have hclear : (Session.ask .clear).run.wp Partition.rule
      (fun r data' => r = .ok () ∧ data' = data.cleared) data := ⟨rfl, rfl⟩
  refine along_run_bind rule_mono _ (along_run_adapt rule_mono _ _
    ((quiet_ask (by simp) (by simp)).along rule_mono (wp_mono rule_mono _ ?_ hclear)))
  rintro _ _ ⟨rfl, rfl⟩
  have hentries : (Session.ask .entries).run.wp Partition.rule
      (fun r data' => r = .ok data.cleared.entries ∧ data' = data.cleared) data.cleared :=
    ⟨rfl, rfl⟩
  refine along_run_bind rule_mono _ (along_run_adapt rule_mono _ _
    ((quiet_ask (by simp) (by simp)).along rule_mono (wp_mono rule_mono _ ?_ hentries)))
  rintro _ _ ⟨rfl, rfl⟩
  exact along_process (Course.fresh_start_cleared contract data) _

end Batch

end EventIndex
