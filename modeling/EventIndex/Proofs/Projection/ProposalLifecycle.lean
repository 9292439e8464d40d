import EventIndex.Proofs.Projection.Evolution
import EventIndex.Proofs.Projection.Refusals

/-! # The life of a proposal

A proposal is pending and counts its approvals until it is closed, once and for all. What is said of
it afterwards is refused and leaves the row alone. -/

namespace EventIndex

open Relation

namespace Payload

def proposalAction? : Payload → Option ProposalAction
  | .proposalApproved _ => some .approve
  | .proposalRejected e => some (.reject e.rejectedAt)
  | .proposalCancelled e => some (.cancel e.cancelledAt)
  | .proposalExecuted e => some (.execute e.executedAt)
  | _ => none

def isApproval : Payload → Bool
  | .proposalApproved _ => true
  | _ => false

end Payload

def Entity.approvals {e : Entity} (fs : List (Position × e.Subject)) : Nat :=
  fs.countP (·.2.val.isApproval)

namespace Proposal

def approve (r : Proposal) (p : Position) : Proposal :=
  { r with currentApprovals := r.currentApprovals + 1, lastPosition := p }

/-! ## What is applied to a proposal -/

section Applied

variable {contract : ContractId} {id : UInt64} {current : Option Proposal} {p : Position}
  {t : Transition Proposal}

theorem of_create {c : ProposalCreated}
    (hafter : ∀ old, current = some old → old.createdPosition < p)
    (h : create current contract c p = .ok t) :
    current = none ∧ t = .write (ofPayload contract c p) := by
  unfold create at h
  cases current with
  | none => exact ⟨rfl, (Except.ok.inj h).symm⟩
  | some old => simp [(hafter old rfl).ne] at h

theorem pending_iff {status : ProposalStatus} : status = .pending ↔ ¬ status.isTerminal := by
  simp [ProposalStatus.isTerminal]

/-- An action that is not refused has been applied at its position, or is applied to a pending
proposal. -/
theorem act_cases {action : ProposalAction} (h : act current id action p = .ok t) :
    ∃ old, current = some old ∧
      ((old.lastPosition = p ∧ action.isReflectedIn old ∧ t = .unchanged) ∨
        (old.lastPosition < p ∧ old.status = .pending ∧
          ∃ row, old.after action p = .ok row ∧ t = .write row)) := by
  unfold act at h
  cases current with
  | none => cases h
  | some old =>
    refine ⟨old, rfl, ?_⟩
    dsimp only at h
    split at h
    · rename_i hposition
      split at h
      · rename_i hreflected
        exact .inl ⟨hposition, hreflected, (Except.ok.inj h).symm⟩
      · cases h
    · rename_i hne
      split at h
      · cases h
      · rename_i hnlt
        split at h
        · cases h
        · rename_i hstatus
          split at h
          · rename_i row hrow
            exact .inr ⟨lt_of_le_of_ne (not_lt.mp hnlt) hne, pending_iff.mpr hstatus, row, hrow,
              (Except.ok.inj h).symm⟩
          · cases h

theorem of_act {action : ProposalAction}
    (hafter : ∀ old, current = some old → old.lastPosition < p)
    (h : act current id action p = .ok t) :
    ∃ old row, current = some old ∧ old.status = .pending ∧ old.after action p = .ok row ∧
      t = .write row := by
  obtain ⟨old, rfl, ⟨hposition, -, -⟩ | ⟨-, hpending, row, hrow, ht⟩⟩ := act_cases h
  · exact absurd hposition (hafter old rfl).ne
  · exact ⟨old, row, rfl, hpending, hrow, ht⟩

theorem of_after {r row : Proposal} {action : ProposalAction} (h : r.after action p = .ok row) :
    (action = .approve ∧ r.currentApprovals.toNat + 1 < UInt32.size ∧ row = r.approve p) ∨
    (action ≠ .approve ∧ ∃ status time, status.isTerminal ∧ row = r.close status time p) := by
  cases action with
  | approve =>
    simp only [after, approve?] at h
    split at h
    · rename_i hcount
      exact .inl ⟨rfl, hcount, (Except.ok.inj h).symm⟩
    · cases h
  | reject time | cancel time | execute time =>
    exact .inr ⟨by simp, _, _, rfl, (Except.ok.inj h).symm⟩

theorem step_cases (contract : ContractId) (p : Position) (current : Option Proposal)
    (x : Entity.Subject ⟨.proposal, id⟩) :
    (∃ c, x.val = .proposalCreated c ∧
      Entity.step contract p ⟨.proposal, id⟩ x current = create current contract c p) ∨
    ∃ action, x.val.proposalAction? = some action ∧ x.val.topic = action.topic ∧
      (x.val.isApproval ↔ action = .approve) ∧
      Entity.step contract p ⟨.proposal, id⟩ x current = act current id action p := by
  obtain ⟨x, hx⟩ := x
  have hid : x.id = id := congrArg Entity.id hx
  subst hid
  cases x with
  | proposalCreated c => exact .inl ⟨c, rfl, rfl⟩
  | proposalApproved e => exact .inr ⟨.approve, rfl, rfl, by simp [Payload.isApproval], rfl⟩
  | proposalRejected e | proposalCancelled e | proposalExecuted e =>
    exact .inr ⟨_, rfl, rfl, by simp [Payload.isApproval], rfl⟩
  | _ => cases hx

end Applied

/-! ## What a row keeps -/

/-- The row counts the approvals, and is pending as long as it is not closed. -/
structure Tallied (r : Proposal) (approvals : Nat) : Prop where
  threshold_pos : 1 ≤ r.approvalThreshold.toNat
  pending_iff : r.status = .pending ↔ r.closedAt = none
  approvals_eq : r.currentApprovals.toNat = approvals

namespace Tallied

variable {r : Proposal} {n : Nat} {p : Position}

theorem create {contract : ContractId} {c : ProposalCreated}
    (hcheck : Payload.check (.proposalCreated c) = .ok ()) :
    (ofPayload contract c p).Tallied 0 where
  threshold_pos := by
    have hne : c.approvalThreshold ≠ 0 := by
      intro hzero
      simp [Payload.check, hzero] at hcheck
    have hpos : c.approvalThreshold.toNat ≠ 0 := fun h => hne (UInt32.toNat_inj.mp h)
    exact Nat.one_le_iff_ne_zero.mpr hpos
  pending_iff := by simp [ofPayload]
  approvals_eq := rfl

theorem approve (h : r.Tallied n) (hcount : r.currentApprovals.toNat + 1 < UInt32.size) :
    (r.approve p).Tallied (n + 1) where
  threshold_pos := h.threshold_pos
  pending_iff := h.pending_iff
  approvals_eq := (toNat_add_one_of_lt hcount).trans (congrArg (· + 1) h.approvals_eq)

theorem close (h : r.Tallied n) {status : ProposalStatus} (hstatus : status.isTerminal)
    (time : UInt64) : (r.close status time p).Tallied n where
  threshold_pos := h.threshold_pos
  pending_iff := by simp [Proposal.close, Proposal.pending_iff, hstatus]
  approvals_eq := h.approvals_eq

end Tallied

theorem tallied_of_life {contract : ContractId} {id : UInt64}
    {fs : List (Position × Entity.Subject ⟨.proposal, id⟩)} {row : Option Proposal}
    (h : Entity.Life contract ⟨.proposal, id⟩ fs row) :
    ∀ r, row = some r → r.Tallied (Entity.approvals fs) := by
  induction h with
  | nil => simp
  | @step fs row x t h hcheck hafter hstep ih =>
    rw [Entity.approvals, List.countP_append, List.countP_singleton]
    rcases step_cases contract x.1 row x.2 with ⟨c, hc, heq⟩ | ⟨action, -, -, happroval, heq⟩
    · obtain ⟨rfl, rfl⟩ := of_create (fun old hold => hafter old hold _ List.mem_cons_self)
        (heq.symm.trans hstep)
      rw [h.eq_nil rfl, hc]
      rintro _ ⟨⟩
      exact .create (hc ▸ hcheck)
    · obtain ⟨old, row', rfl, -, hrow, rfl⟩ :=
        of_act (fun old hold => hafter old hold _ (List.mem_pair.mpr (.inr rfl)))
          (heq.symm.trans hstep)
      rintro _ ⟨⟩
      rcases of_after hrow with ⟨haction, hcount, rfl⟩ | ⟨haction, status, time, hstatus, rfl⟩
      · rw [if_pos (happroval.mpr haction)]
        exact (ih old rfl).approve hcount
      · rw [if_neg (mt happroval.mp haction)]
        exact (ih old rfl).close hstatus time

/-! ## How a row changes -/

/-- A pending proposal is approved once more, or closed with the approvals that it has. -/
inductive Change : Proposal → Proposal → Prop
  | approve {r : Proposal} (hpending : r.status = .pending) (p : Position) : Change r (r.approve p)
  | close {r : Proposal} (hpending : r.status = .pending) {status : ProposalStatus}
    (hstatus : status.isTerminal) (time : UInt64) (p : Position) : Change r (r.close status time p)

theorem moves (contract : ContractId) (id : UInt64) :
    Entity.Moves contract ⟨.proposal, id⟩ Change := by
  intro (old : Proposal) (row : Proposal) position x hafter hstep
  have hcreated : old.createdPosition < position := hafter _ List.mem_cons_self
  have hlast : old.lastPosition < position := hafter _ (List.mem_pair.mpr (.inr rfl))
  rcases step_cases contract position (some old) x with ⟨c, -, heq⟩ | ⟨action, -, -, -, heq⟩
  · obtain ⟨⟨⟩, -⟩ := of_create (by rintro _ ⟨⟩; exact hcreated) (heq.symm.trans hstep)
  · obtain ⟨_, _, ⟨⟩, hpending, hrow, ⟨⟩⟩ :=
      of_act (by rintro _ ⟨⟩; exact hlast) (heq.symm.trans hstep)
    rcases of_after hrow with ⟨-, -, rfl⟩ | ⟨-, status, time, hstatus, rfl⟩
    · exact .approve hpending position
    · exact .close hpending hstatus time position

/-- What a proposal was created with. -/
def content (r : Proposal) : String × String × UInt32 × UInt64 × Position :=
  (r.proposer, r.title, r.approvalThreshold, r.createdAt, r.createdPosition)

/-- A row and what may have become of it: it was approved and closed at most once, with the
approvals that it had, and a closed one is the same. -/
structure EvolvesTo (r r' : Proposal) : Prop where
  changes : ReflTransGen Change r r'
  content_eq : r'.content = r.content
  status_cases : r'.status = r.status ∨ r.status = .pending ∧
    ∃ last status time p, ReflTransGen Change r last ∧ last.status = .pending ∧
      (status : ProposalStatus).isTerminal ∧ r' = last.close status time p ∧
      r'.currentApprovals = last.currentApprovals
  eq_of_terminal : r.status.isTerminal → r' = r

theorem evolvesTo_of_changes {r r' : Proposal} (h : ReflTransGen Change r r') :
    r.EvolvesTo r' := by
  induction h with
  | refl => exact ⟨.refl, rfl, .inl rfl, fun _ => rfl⟩
  | @tail last next hchanges hchange ih =>
    obtain ⟨-, hcontent, hstatus, hterminal⟩ := ih
    have hopen (hpending : last.status = .pending) : ¬ r.status.isTerminal := by
      intro hr
      rw [hterminal hr] at hpending
      exact pending_iff.mp hpending hr
    cases hchange with
    | approve hpending p =>
      have hr := hopen hpending
      refine ⟨hchanges.tail (.approve hpending p), hcontent, .inl ?_, fun h => absurd h hr⟩
      exact hpending.trans (pending_iff.mpr hr).symm
    | @close hpending status hclosed time p =>
      have hr := hopen hpending
      refine ⟨hchanges.tail (.close hpending hclosed time p), hcontent, .inr ?_,
        fun h => absurd h hr⟩
      exact ⟨pending_iff.mpr hr, last, status, time, p, hchanges, hpending, hclosed, rfl, rfl⟩

/-! ## What a closed proposal refuses -/

def closedRefusal (r : Proposal) (id : UInt64) : Payload → Refusal
  | .proposalCreated _ => .integrity (.proposal id) (.createdAt r.createdPosition)
  | x => .invalidTransition (.proposal id) (.closed r.status) x.topic

section Closed

variable {contract : ContractId} {id : UInt64} {r : Proposal} {es before later : List RawEvent}

theorem step_of_closed (hclosed : r.status.isTerminal) {p : Position}
    (hcreated : r.createdPosition < p) (hlast : r.lastPosition < p)
    (x : Entity.Subject ⟨.proposal, id⟩) :
    Entity.step contract p ⟨.proposal, id⟩ x (some r) = .error (r.closedRefusal id x.val) := by
  rcases step_cases contract p (some r) x with ⟨c, hc, heq⟩ | ⟨action, haction, htopic, -, heq⟩
  · have hid : c.proposalId = id := by
      have htarget := x.property
      rw [hc] at htarget
      exact congrArg Entity.id htarget
    have hrefused : create (some r) contract c p = .error (r.closedRefusal id x.val) := by
      simp [hc, create, hcreated.ne, closedRefusal, hid]
    exact heq.trans hrefused
  · have hrefusal : r.closedRefusal id x.val =
        .invalidTransition (.proposal id) (.closed r.status) action.topic := by
      rw [← htopic]
      cases hx : x.val <;> first | rfl | simp [hx, Payload.proposalAction?] at haction
    have hrefused : act (some r) id action p = .error (r.closedRefusal id x.val) := by
      simp [hrefusal, act, hlast.ne, hlast.asymm, hclosed]
    exact heq.trans hrefused

/-- A closed proposal was closed by one of the events, and has not been frozen before. -/
theorem exists_closing (hrising : Rising es) (hcontract : ∀ x ∈ es, x.contract = contract)
    (hrow : (Entity.history contract ⟨.proposal, id⟩ es).row = some r)
    (hclosed : r.status.isTerminal) :
    ∃ before closing later, es = before ++ closing :: later ∧
      (∀ old : Proposal, (Entity.history contract ⟨.proposal, id⟩ before).row = some old →
        old.status = .pending) ∧
      Entity.history contract ⟨.proposal, id⟩ (before ++ [closing]) = ⟨some r, none⟩ := by
  induction es using List.reverseRecOn with
  | nil => cases hrow
  | append_singleton es x ih =>
    have hes : ∀ y ∈ es, y.contract = contract := fun y hy =>
      hcontract y (List.mem_append_left [x] hy)
    by_cases hbefore : ∃ old : Proposal,
        (Entity.history contract ⟨.proposal, id⟩ es).row = some old ∧ old.status.isTerminal
    · -- The row was closed before this event, and is the same.
      obtain ⟨old, hold, hterminal⟩ := hbefore
      obtain ⟨row, hrow', hchanges⟩ := (moves contract id).history_append hrising hcontract hold
      obtain rfl : row = r := Option.some.inj (hrow'.symm.trans hrow)
      obtain rfl : row = old := (evolvesTo_of_changes hchanges).eq_of_terminal hterminal
      obtain ⟨before, closing, later, rfl, hpending, hhistory⟩ :=
        ih (hrising.of_isPrefix (List.prefix_append es [x])) hes hold
      exact ⟨before, closing, later ++ [x], by simp, hpending, hhistory⟩
    · have hpending : ∀ old : Proposal,
          (Entity.history contract ⟨.proposal, id⟩ es).row = some old → old.status = .pending :=
        fun old hold => pending_iff.mpr fun hterminal => hbefore ⟨old, hold, hterminal⟩
      have hfree : (Entity.history contract ⟨.proposal, id⟩ (es ++ [x])).quarantine = none :=
        Entity.quarantine_eq_none_of_row_ne fun hsame =>
          hbefore ⟨r, hsame.symm.trans hrow, hclosed⟩
      refine ⟨es, x, [], rfl, hpending, ?_⟩
      generalize Entity.history contract ⟨.proposal, id⟩ (es ++ [x]) = s at hrow hfree
      obtain ⟨row, quarantine⟩ := s
      obtain rfl : row = some r := hrow
      obtain rfl : quarantine = none := hfree
      rfl

/-- Of the events after the one that closed the proposal, the first is refused by its status, and
all others because of that. -/
theorem rejections_of_closed (hrising : Rising (before ++ later))
    (hcontract : ∀ x ∈ before, x.contract = contract)
    (hbefore : Entity.history contract ⟨.proposal, id⟩ before = ⟨some r, none⟩)
    (hclosed : r.status.isTerminal) {x : RawEvent} {xs : List RawEvent}
    {f : Position × Entity.Subject ⟨.proposal, id⟩}
    (hlater : Entity.about ⟨.proposal, id⟩ later = x :: xs)
    (hfact : Entity.fact? ⟨.proposal, id⟩ x = some f) :
    Entity.rejections contract ⟨.proposal, id⟩ [] (before ++ later) =
      ⟨.of x, r.closedRefusal id f.2.val⟩ ::
        xs.map (⟨.of ·, .quarantined ⟨.proposal, id⟩ x.position⟩) := by
  have hx : x.After before := by
    intro y hy
    have hmem : x ∈ Entity.about ⟨.proposal, id⟩ later := by simp [hlater]
    exact hrising.lt_of_mem_append hy (List.mem_filter.mp hmem).1
  obtain ⟨hpositions, -⟩ := Entity.positions_history ⟨.proposal, id⟩ hcontract hx
  rw [hbefore] at hpositions
  have hrow : ∀ q ∈ [r.createdPosition, r.lastPosition], q < x.position := hpositions r rfl
  rw [← (Entity.fact?_eq_some hfact).1] at hrow
  have hstep : Entity.step contract f.1 ⟨.proposal, id⟩ f.2 (some r) = .error _ :=
    step_of_closed hclosed (hrow _ List.mem_cons_self) (hrow _ (List.mem_pair.mpr (.inr rfl))) f.2
  rw [Entity.rejections_append, Entity.rejections_eq_nil (by rw [hbefore]), List.nil_append,
    List.nil_append, Entity.rejections_of_refused hbefore hlater hfact hstep]

end Closed

end Proposal

namespace System

variable {ρ : Type} [EventSource ρ]

/-- In every reachable state the row of a proposal counts the logged approvals of it, up to the
event that froze it, and is pending as long as it is not closed. From there on it is approved and
closed at most once. A closed one was closed by a logged event; of the later events about it the
first is refused by its status, or because it is created already, and all others because of that.
The calls report these refusals. -/
theorem Reachable.proposal_lifecycle {s : System ρ} (h : s.Reachable) {contract : ContractId}
    {id : UInt64} {r : Proposal} (hrow : (s.data contract).tables.row? .proposal id = some r) :
    let entity : Entity := ⟨.proposal, id⟩
    let quarantine := (s.data contract).tables.quarantine? entity
    let logged := (s.data contract).entries.map LogEntry.toRaw
    r.Tallied (Entity.approvals (entity.facts logged quarantine)) ∧
      (∀ s', ReflTransGen Step s s' → ∃ r' : Proposal,
        (s'.data contract).tables.row? .proposal id = some r' ∧ r.EvolvesTo r') ∧
      (r.status.isTerminal → ∃ before closing later, logged = before ++ closing :: later ∧
        (∀ old : Proposal, (entity.history contract before).row = some old →
          old.status = .pending) ∧
        (entity.history contract (before ++ [closing])).row = some r ∧
        (entity.about later = [] → entity.rejections contract [] logged = []) ∧
        ∀ (x : RawEvent) (xs : List RawEvent) (f : Position × entity.Subject),
          entity.about later = x :: xs → entity.fact? x = some f →
            entity.rejections contract [] logged = ⟨.of x, r.closedRefusal id f.2.val⟩ ::
              xs.map (⟨.of ·, .quarantined entity x.position⟩)) ∧
      s.world.ReportsRefusals contract entity := by
  intro entity quarantine logged
  obtain ⟨es, hes⟩ := h.derived contract
  have hlogged : logged = es := hes.entries_eq
  refine ⟨Proposal.tallied_of_life (hes.life entity) r hrow, ?_, ?_, hes.reportsRefusals entity⟩
  · intro s' hsteps
    obtain ⟨r', hrow', hchanges⟩ :=
      (Proposal.moves contract id).growsTo (h.growsTo hsteps contract) hrow
    exact ⟨r', hrow', Proposal.evolvesTo_of_changes hchanges⟩
  · intro hclosed
    have hrow' : (entity.history contract es).row = some r := (hes.row?_eq entity).symm.trans hrow
    obtain ⟨before, closing, later, rfl, hpending, hhistory⟩ :=
      Proposal.exists_closing hes.log.rising hes.log.contract_eq hrow' hclosed
    obtain ⟨hlog, -, -, -⟩ := hes
    have hrising := hlog.rising
    have hcontract := hlog.contract_eq
    rw [List.append_cons] at hrising hcontract
    have hbefore : ∀ y ∈ before ++ [closing], y.contract = contract := fun y hy =>
      hcontract y (List.mem_append_left later hy)
    refine ⟨before, closing, later, hlogged, hpending, congrArg Entity.State.row hhistory, ?_, ?_⟩
    · intro hlater
      rw [hlogged, List.append_cons, Entity.rejections_append,
        Entity.rejections_of_about_eq_nil _ hlater, List.append_nil]
      exact Entity.rejections_eq_nil (congrArg Entity.State.quarantine hhistory)
    · intro x xs f hlater hfact
      rw [hlogged, List.append_cons]
      exact Proposal.rejections_of_closed hrising hbefore hhistory hclosed hlater hfact

/-- A proposal is approved and executed. Then it is approved and created once more. -/
theorem proposal_lifecycle_of_executed :
    let contract : ContractId := ⟨"C"⟩
    let entity : Entity := ⟨.proposal, 7⟩
    let id : String × Json := ("proposal_id", .number "7")
    let created (ledger : UInt32) : RawEvent := ⟨contract, "PROPOSAL_CREATED", .object [
      ("approval_threshold", .number "2"), ("created_at", .number "1"), id,
      ("proposer", .string "P"), ("title", .string "T")], ledger, .epoch, .replicate 0, 0⟩
    let approved (ledger : UInt32) : RawEvent := ⟨contract, "PROPOSAL_APPROVED", .object [
      ("approved_at", .number "2"), ("approver", .string "A"), id], ledger, .epoch, .replicate 0, 0⟩
    let executed : RawEvent := ⟨contract, "PROPOSAL_EXECUTED", .object [
      ("executed_at", .number "3"), ("executor", .string "E"), id], 3, .epoch, .replicate 0, 0⟩
    let policy : RetryPolicy := ⟨3, 100, 2.0, 1000⟩
    let s : System MemorySource := ⟨((World.start .empty .empty).perform
      (Job.process policy contract [created 1, approved 2, executed])).2, fun _ => none⟩
    let called := s.world.perform (Job.process policy contract [approved 4, created 5])
    s.Reachable ∧ ∃ r : Proposal, (s.data contract).tables.row? .proposal 7 = some r ∧
      r.status = .executed ∧ r.Tallied 1 ∧
      ∃ report, called.1 = .ok report ∧ report.rejectedOf entity =
        [⟨.of (approved 4), .invalidTransition entity (.closed .executed) .proposalApproved⟩,
          ⟨.of (created 5), .quarantined entity (approved 4).position⟩] := by
  intro contract entity id created approved executed policy s called
  have hstart : (⟨World.start .empty .empty, fun _ => none⟩ : System MemorySource).Reachable :=
    .start rfl
  have hreachable : s.Reachable := hstart.perform rfl (.process policy _)
  have hstatus : ((s.data contract).tables.row? .proposal 7).map Proposal.status =
      some .executed := by decide +kernel
  have hcount : Entity.approvals (entity.facts ((s.data contract).entries.map LogEntry.toRaw)
      ((s.data contract).tables.quarantine? entity)) = 1 := by decide +kernel
  have hcommit : s.world.store.commitFailures = 0 := by decide +kernel
  have hbefore : entity.rejections contract [] ((s.data contract).entries.map LogEntry.toRaw) =
      [] := by decide +kernel
  have hafter : entity.rejections contract []
      ((called.2.store.partition contract).entries.map LogEntry.toRaw) =
        [⟨.of (approved 4), .invalidTransition entity (.closed .executed) .proposalApproved⟩,
          ⟨.of (created 5), .quarantined entity (approved 4).position⟩] := by decide +kernel
  clear_value s
  obtain ⟨r, hrow, hexecuted⟩ := Option.map_eq_some_iff.mp hstatus
  obtain ⟨htallied, -, -, hreports⟩ := hreachable.proposal_lifecycle hrow
  obtain ⟨report, hreport⟩ := hreports.process_ok policy [approved 4, created 5]
    (by simp [approved, created]) (by rw [hcommit]; exact Nat.zero_le _)
  obtain ⟨-, hrejected⟩ := hreports.process_eq policy _ report hreport
  rw [hcount] at htallied
  refine ⟨hreachable, r, hrow, hexecuted, htallied, report, hreport, ?_⟩
  rw [← hafter]
  exact (hrejected.trans (congrArg (· ++ report.rejectedOf entity) hbefore)).symm

end System

end EventIndex
