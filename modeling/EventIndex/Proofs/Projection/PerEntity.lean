import EventIndex.Proofs.Indexer.System
import Mathlib.Data.List.Induction

/-! # Rows by entity

The row of an entity and its quarantine are a fold over the logged events about this entity,
whatever happens to other entities in between. -/

namespace EventIndex

namespace Entity

abbrev Subject (e : Entity) : Type :=
  { p : Payload // p.target = e }

structure State (e : Entity) where
  row : Option e.kind.Row
  quarantine : Option Quarantine

/-- What an event says of the entity, and where, if it can be decoded and is about it. -/
def fact? (e : Entity) (x : RawEvent) : Option (Position × e.Subject) :=
  match decode (.classify x.topic) x.payload x.position with
  | .ok (.recognized p) => if h : p.target = e then some (x.position, ⟨p, h⟩) else none
  | _ => none

def step (contract : ContractId) (position : Position) : (e : Entity) → e.Subject →
    Option e.kind.Row → Step e.kind.Row
  | _, ⟨p, rfl⟩, row => p.step contract position row

/-- The entity after an event about it. The first refusal freezes it. -/
def follow (contract : ContractId) (e : Entity) (s : e.State) (x : Position × e.Subject) :
    e.State :=
  match s.quarantine with
  | some _ => s
  | none =>
    match e.step contract x.1 x.2 s.row with
    | .ok .unchanged => s
    | .ok (.write row) => { s with row := some row }
    | .error refusal => { s with quarantine := some ⟨contract, e, x.1, refusal.message⟩ }

/-- What the events about the entity make of it, from nothing on. -/
def history (contract : ContractId) (e : Entity) (es : List RawEvent) : e.State :=
  (es.filterMap e.fact?).foldl (e.follow contract) ⟨none, none⟩

theorem history_append_singleton (contract : ContractId) (e : Entity) (es : List RawEvent)
    (x : RawEvent) : e.history contract (es ++ [x]) =
      ((e.fact? x).map (e.follow contract (e.history contract es))).getD
        (e.history contract es) := by
  cases hx : e.fact? x <;> simp [history, hx]

/-- Events that are not about the entity make no difference. -/
theorem history_filter (contract : ContractId) (e : Entity) (es : List RawEvent) :
    e.history contract (es.filter fun x => (e.fact? x).isSome) = e.history contract es := by
  have hfact : (fun x => if (e.fact? x).isSome then e.fact? x else none) = e.fact? := by
    funext x
    cases e.fact? x <;> rfl
  rw [history, List.filterMap_filter, hfact, history]

end Entity

namespace Tables

def stateOf (t : Tables) (e : Entity) : e.State :=
  ⟨t.row? e.kind e.id, t.quarantine? e⟩

/-! ## Rows are kept under their numbers -/

/-- Each row is found under its own number. -/
def Keyed (t : Tables) : Prop :=
  ∀ (k : EntityKind) (id : UInt64) (row : k.Row), t.row? k id = some row → k.rowId row = id

namespace Keyed

variable {t : Tables}

theorem insert (h : t.Keyed) (k : EntityKind) (row : k.Row) : (t.insert k row).Keyed := by
  intro l id other hother
  by_cases hl : k = l
  · subst hl
    rw [row?_insert] at hother
    split at hother
    · cases hother
      assumption
    · exact h k id other hother
  · rw [row?_insert_of_ne t hl] at hother
    exact h l id other hother

theorem freeze (h : t.Keyed) (q : Quarantine) : (t.freeze q).Keyed := by
  intro k id row hrow
  exact h k id row (by simpa using hrow)

theorem apply (h : t.Keyed) (contract : ContractId) (p : Position) (d : Decoded) :
    (t.apply contract p d).2.Keyed := by
  cases d with
  | unrecognized topic raw => exact h
  | recognized e =>
    simp only [Tables.apply]
    split
    · exact h
    · split
      · exact h.freeze _
      · exact h
      · exact h.insert _ _

theorem absorb (h : t.Keyed) (x : RawEvent) : (t.absorb x).Keyed := by
  unfold Tables.absorb
  split
  · exact h
  · exact h.apply _ _ _

end Keyed

theorem keyed_derive (es : List RawEvent) : (derive es).Keyed := by
  induction es using List.reverseRecOn with
  | nil =>
    intro k id row hrow
    simp at hrow
  | append_singleton es x ih =>
    rw [derive_append_singleton]
    exact ih.absorb x

/-! ## One event -/

variable {t : Tables} {contract : ContractId} {position : Position}

theorem stateOf_apply_target (h : t.Keyed) (p : Payload) :
    (t.apply contract position (.recognized p)).2.stateOf p.target =
      p.target.follow contract (t.stateOf p.target) (position, ⟨p, rfl⟩) := by
  cases hq : t.quarantine? p.target with
  | some q => simp [Tables.apply, Entity.follow, stateOf, hq]
  | none =>
    cases hs : p.step contract position (t.row? p.kind p.id) with
    | error r =>
      have hs' : p.target.step contract position ⟨p, rfl⟩ (t.row? p.target.kind p.target.id) =
        .error r := hs
      simp [Tables.apply, Entity.follow, stateOf, hq, hs, hs', quarantine?_freeze]
    | ok transition =>
      have hs' : p.target.step contract position ⟨p, rfl⟩ (t.row? p.target.kind p.target.id) =
        .ok transition := hs
      cases transition with
      | unchanged => simp [Tables.apply, Entity.follow, stateOf, hq, hs, hs']
      | write row =>
        have hid : p.kind.rowId row = p.id :=
          Payload.rowId_of_step_write hs fun old hold => h p.kind p.id old hold
        have hrow : (t.insert p.kind row).row? p.target.kind p.target.id = some row :=
          (row?_insert t p.kind row p.id).trans (if_pos hid)
        simp [Tables.apply, Entity.follow, stateOf, hq, hs, hs', hrow]
        rfl

theorem stateOf_apply_of_ne (h : t.Keyed) {p : Payload} {e : Entity} (hne : p.target ≠ e) :
    (t.apply contract position (.recognized p)).2.stateOf e = t.stateOf e := by
  cases hq : t.quarantine? p.target with
  | some q => simp [Tables.apply, hq]
  | none =>
    cases hs : p.step contract position (t.row? p.kind p.id) with
    | error r => simp [Tables.apply, stateOf, hq, hs, quarantine?_freeze, hne]
    | ok transition =>
      cases transition with
      | unchanged => simp [Tables.apply, hq, hs]
      | write row =>
        have hid : p.kind.rowId row = p.id :=
          Payload.rowId_of_step_write hs fun old hold => h p.kind p.id old hold
        have hrow : (t.insert p.kind row).row? e.kind e.id = t.row? e.kind e.id := by
          obtain ⟨k, id⟩ := e
          by_cases hk : p.kind = k
          · subst hk
            have hother : p.id ≠ id := fun hsame => hne (by rw [Payload.target, hsame])
            rw [row?_insert, hid, if_neg hother]
          · exact row?_insert_of_ne t hk row id
        simp [Tables.apply, stateOf, hq, hs, hrow]

theorem stateOf_absorb (h : t.Keyed) (e : Entity) (x : RawEvent) :
    (t.absorb x).stateOf e =
      ((e.fact? x).map (e.follow x.contract (t.stateOf e))).getD (t.stateOf e) := by
  unfold absorb Entity.fact?
  cases decode (.classify x.topic) x.payload x.position with
  | error err => rfl
  | ok d =>
    cases d with
    | unrecognized topic raw => rfl
    | recognized p =>
      by_cases hp : p.target = e
      · subst hp
        simpa using stateOf_apply_target h p
      · simpa [hp] using stateOf_apply_of_ne h hp

/-! ## All events -/

theorem stateOf_derive {es : List RawEvent} (hes : ∀ x ∈ es, x.contract = contract) (e : Entity) :
    (derive es).stateOf e = e.history contract es := by
  induction es using List.reverseRecOn with
  | nil => simp [stateOf, Entity.history]
  | append_singleton es x ih =>
    rw [derive_append_singleton, stateOf_absorb (keyed_derive es),
      ih fun y hy => hes y (List.mem_append_left [x] hy), hes x (by simp),
      Entity.history_append_singleton]

end Tables

namespace Partition.Holds

variable {contract : ContractId} {p q : Partition} {es fs : List RawEvent}

theorem stateOf_eq (h : p.Holds contract es) (e : Entity) :
    p.tables.stateOf e = e.history contract (p.entries.map LogEntry.toRaw) := by
  rw [h.entries_eq, h.tables_eq]
  exact Tables.stateOf_derive h.log.contract_eq e

theorem stateOf_congr (hp : p.Holds contract es) (hq : q.Holds contract fs) {e : Entity}
    (hsame : ∀ x, (e.fact? x).isSome → (x ∈ es ↔ x ∈ fs)) :
    p.tables.stateOf e = q.tables.stateOf e := by
  have hes : Rising (es.filter fun x => (e.fact? x).isSome) :=
    hp.log.rising.sublist List.filter_sublist
  have hfs : Rising (fs.filter fun x => (e.fact? x).isSome) :=
    hq.log.rising.sublist List.filter_sublist
  have hfilter := hes.eq_of_mem_iff hfs fun x => by
    rw [List.mem_filter, List.mem_filter]
    exact and_congr_left fun hx => hsame x hx
  rw [hp.stateOf_eq, hq.stateOf_eq, hp.entries_eq, hq.entries_eq,
    ← Entity.history_filter, hfilter, Entity.history_filter]

end Partition.Holds

/-! ## Reachable states -/

/-- In every reachable state, what the tables hold of an entity is the fold over the logged events
about it. Two states that have logged the same events about it hold the same, whatever else they
have logged. -/
theorem System.Reachable.stateOf_eq_history {ρ ρ' : Type} [EventSource ρ] [EventSource ρ']
    {s : System ρ} (h : s.Reachable) (contract : ContractId) (e : Entity) :
    let committed := s.world.store.partition contract
    committed.tables.stateOf e =
        e.history contract (committed.entries.map LogEntry.toRaw) ∧
      ∀ s' : System ρ', s'.Reachable →
        let other := s'.world.store.partition contract
        (∀ x : RawEvent, (e.fact? x).isSome →
          (x ∈ committed.entries.map LogEntry.toRaw ↔ x ∈ other.entries.map LogEntry.toRaw)) →
        committed.tables.stateOf e = other.tables.stateOf e := by
  intro committed
  obtain ⟨es, hes⟩ := h.derived contract
  refine ⟨hes.stateOf_eq e, ?_⟩
  intro s' h' other hsame
  obtain ⟨fs, hfs⟩ := h'.derived contract
  rw [hes.entries_eq, hfs.entries_eq] at hsame
  exact hes.stateOf_congr hfs hsame

/-- A reward is folded from the same two events in both runs. Another entity with its number has an
event in between in one of them. -/
theorem System.stateOf_eq_history_after_process :
    let contract : ContractId := ⟨"C"⟩
    let amount : String × Json := ("amount", .string "5")
    let recipient : String × Json := ("recipient", .string "R")
    let id : String × Json := ("reward_id", .number "7")
    let added : RawEvent := ⟨contract, "REWARD_ADDED", .object [("added_at", .number "1"), amount,
      ("reason", .string "bug"), recipient, id], 1, .epoch, .replicate 0, 0⟩
    let cancelled : RawEvent := ⟨contract, "PROPOSAL_CANCELLED", .object [
      ("cancelled_at", .number "2"), ("cancelled_by", .string "A"), ("proposal_id", .number "7")],
      2, .epoch, .replicate 0, 0⟩
    let claimed : RawEvent := ⟨contract, "REWARD_CLAIMED", .object [amount,
      ("claimed_at", .number "3"), recipient, id], 3, .epoch, .replicate 0, 0⟩
    let run (es : List RawEvent) : System MemorySource :=
      ⟨((World.start .empty .empty).perform (Job.process ⟨3, 100, 2.0, 1000⟩ contract es)).2,
        fun _ => none⟩
    let committed (es : List RawEvent) := (run es).world.store.partition contract
    let e : Entity := ⟨.reward, 7⟩
    (∀ es, (run es).Reachable) ∧
      (committed [added, claimed, claimed]).tables.stateOf e =
        e.history contract [added, claimed] ∧
      (committed [added, claimed, claimed]).tables.stateOf e =
        (committed [added, cancelled, claimed]).tables.stateOf e := by
  intro contract amount recipient id added cancelled claimed run committed e
  have hstart : (⟨World.start .empty .empty, fun _ => none⟩ : System MemorySource).Reachable :=
    .start rfl
  have hreachable (es : List RawEvent) : (run es).Reachable := hstart.perform rfl (.process _ es)
  have hlog : (committed [added, claimed, claimed]).entries.map LogEntry.toRaw =
      [added, claimed] := by decide +kernel
  have hlog' : (committed [added, cancelled, claimed]).entries.map LogEntry.toRaw =
      [added, cancelled, claimed] := by decide +kernel
  have hother : (e.fact? cancelled).isSome = false := by decide +kernel
  obtain ⟨hfold, hsame⟩ := @Reachable.stateOf_eq_history MemorySource MemorySource _ _
    (run [added, claimed, claimed]) (hreachable _) contract e
  refine ⟨hreachable, hfold.trans (by rw [hlog]), hsame (run _) (hreachable _) ?_⟩
  intro x hx
  rw [hlog, hlog']
  have hne : x ≠ cancelled := by
    rintro rfl
    simp [hother] at hx
  simp [hne]

end EventIndex
