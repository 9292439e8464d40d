import EventIndex.Proofs.Indexer.Single
import EventIndex.Proofs.Payload.Check
import EventIndex.Proofs.Projection.Life
import Mathlib.Algebra.Order.Ring.Int

/-! # Grants are conserved

The total and the count in the row of a grant are those of the logged claims, up to the event that
froze the grant, and the total stays within the grant. So a further claim is applied just when the
sum of both is within the grant, however large it is. -/

namespace EventIndex

def Payload.grantClaim? : Payload → Option GrantClaimed
  | .claim c => some c
  | _ => none

def Entity.claims {e : Entity} (fs : List (Position × e.Subject)) : List GrantClaimed :=
  fs.filterMap (·.2.val.grantClaim?)

theorem Entity.claims_append_singleton {e : Entity} (fs : List (Position × e.Subject))
    (x : Position × e.Subject) :
    claims (fs ++ [x]) = claims fs ++ x.2.val.grantClaim?.toList := by
  cases hx : x.2.val.grantClaim? <;> simp [claims, hx]

namespace Grant

/-- The row after a claim at the position `p` that brings the total to this. -/
def withClaim (g : Grant) (total : Amount) (p : Position) : Grant :=
  { g with totalClaimed := total, claimCount := g.claimCount + 1, lastPosition := p }

/-! ## What is applied to a grant -/

section Applied

variable {contract : ContractId} {current : Option Grant} {p : Position} {t : Transition Grant}

theorem of_create {c : GrantCreated} (hafter : ∀ old, current = some old → old.createdPosition < p)
    (h : create current contract c p = .ok t) :
    current = none ∧ t = .write (ofPayload contract c p) := by
  unfold create at h
  cases current with
  | none => exact ⟨rfl, (Except.ok.inj h).symm⟩
  | some old => simp [(hafter old rfl).ne] at h

/-- A change that is not refused has been applied at its position, or is applied to an active grant.
-/
theorem change_cases {id : UInt64} {topic : Topic} {applied : Grant → Bool}
    {next : Grant → Except Conflict Grant} (h : change current id topic p applied next = .ok t) :
    ∃ old, current = some old ∧
      ((old.lastPosition = p ∧ applied old ∧ t = .unchanged) ∨
        (old.lastPosition < p ∧ old.status = .active ∧
          ∃ row, next old = .ok row ∧ t = .write row)) := by
  unfold change at h
  cases current with
  | none => cases h
  | some old =>
    refine ⟨old, rfl, ?_⟩
    dsimp only at h
    split at h
    · rename_i hposition
      split at h
      · rename_i happlied
        exact .inl ⟨hposition, happlied, (Except.ok.inj h).symm⟩
      · cases h
    · rename_i hne
      split at h
      · cases h
      · rename_i hnlt
        split at h
        · cases h
        · rename_i hstatus
          have hactive : old.status = .active := by
            cases hs : old.status with
            | active => rfl
            | revoked => exact absurd hs hstatus
          split at h
          · rename_i row hrow
            exact .inr ⟨lt_of_le_of_ne (not_lt.mp hnlt) hne, hactive, row, hrow,
              (Except.ok.inj h).symm⟩
          · cases h

theorem of_change {id : UInt64} {topic : Topic} {applied : Grant → Bool}
    {next : Grant → Except Conflict Grant}
    (hafter : ∀ old, current = some old → old.lastPosition < p)
    (h : change current id topic p applied next = .ok t) :
    ∃ old row, current = some old ∧ old.status = .active ∧ next old = .ok row ∧ t = .write row := by
  obtain ⟨old, rfl, ⟨hposition, -, -⟩ | ⟨-, hactive, row, hrow, ht⟩⟩ := change_cases h
  · exact absurd hposition (hafter old rfl).ne
  · exact ⟨old, row, rfl, hactive, hrow, ht⟩

theorem totalWith?_eq_some_iff {r : Grant} {c : GrantClaimed} {total : Amount} :
    r.totalWith? c = some total ↔
      total.val = r.totalClaimed.val + c.amount.val ∧ total.val ≤ r.amount.val := by
  rw [totalWith?, Option.filter_eq_some_iff, Amount.checkedAdd_eq_some_iff, decide_eq_true_eq,
    eq_comm]

theorem of_afterClaim {r row : Grant} {c : GrantClaimed} (h : r.afterClaim c p = .ok row) :
    ∃ total : Amount, total.val = r.totalClaimed.val + c.amount.val ∧ total.val ≤ r.amount.val ∧
      r.claimCount.toNat + 1 < UInt32.size ∧ row = r.withClaim total p := by
  unfold afterClaim at h
  split at h
  · cases h
  · split at h
    · cases h
    · rename_i total htotal
      obtain ⟨hsum, hle⟩ := totalWith?_eq_some_iff.mp htotal
      split at h
      · rename_i hcount
        exact ⟨total, hsum, hle, hcount, (Except.ok.inj h).symm⟩
      · cases h

theorem step_cases (contract : ContractId) (p : Position) (current : Option Grant) {id : UInt64}
    (x : Entity.Subject ⟨.grant, id⟩) :
    (∃ c, x.val = .grant c ∧
      Entity.step contract p ⟨.grant, id⟩ x current = create current contract c p) ∨
    (∃ c, x.val = .claim c ∧ Entity.step contract p ⟨.grant, id⟩ x current = claim current c p) ∨
    ∃ c, x.val = .revoke c ∧
      Entity.step contract p ⟨.grant, id⟩ x current = revoke current c p := by
  obtain ⟨x, hx⟩ := x
  have hid : x.id = id := congrArg Entity.id hx
  subst hid
  cases x with
  | grant c => exact .inl ⟨c, rfl, rfl⟩
  | claim c => exact .inr (.inl ⟨c, rfl, rfl⟩)
  | revoke c => exact .inr (.inr ⟨c, rfl, rfl⟩)
  | _ => cases hx

end Applied

/-! ## What a row keeps -/

/-- The row accounts for the claims, and what it grants is enough for them. -/
structure Conserved (g : Grant) (cs : List GrantClaimed) : Prop where
  totalClaimed_eq : g.totalClaimed.val = (cs.map (·.amount.val)).sum
  claimCount_eq : g.claimCount.toNat = cs.length
  amount_pos : 0 < g.amount.val
  cliff_le : g.cliffSeconds ≤ g.durationSeconds
  claimCount_le : (g.claimCount.toNat : Int) ≤ g.totalClaimed.val
  totalClaimed_le : g.totalClaimed.val ≤ g.amount.val
  revoked_iff : g.status = .revoked ↔ g.revokedAt.isSome ∧ g.unvestedAmount.isSome
  of_active : g.status = .active → g.revokedAt = none ∧ g.unvestedAmount = none

namespace Conserved

variable {g : Grant} {cs : List GrantClaimed} {p : Position}

theorem remaining_eq (h : g.Conserved cs) :
    g.remaining.val = g.amount.val - g.totalClaimed.val := by
  have hcount := h.claimCount_le
  have hle := h.totalClaimed_le
  have hlt := g.amount.lt_max
  apply Amount.val_clamp
  · simp only [amountLimit]
    omega
  · omega

theorem exists_total (h : g.Conserved cs) {c : GrantClaimed}
    (hcheck : Payload.check (.claim c) = .ok ())
    (hle : g.totalClaimed.val + c.amount.val ≤ g.amount.val) :
    ∃ total : Amount, total.val = g.totalClaimed.val + c.amount.val := by
  have hamount : 0 < c.amount.val := requirePositive_eq_ok_iff.mp hcheck
  have hcount := h.claimCount_le
  have hlt := g.amount.lt_max
  exact ⟨⟨g.totalClaimed.val + c.amount.val, by simp only [amountLimit]; omega, by omega⟩, rfl⟩

theorem create {contract : ContractId} {c : GrantCreated}
    (hcheck : Payload.check (.grant c) = .ok ()) : (ofPayload contract c p).Conserved [] where
  totalClaimed_eq := rfl
  claimCount_eq := rfl
  amount_pos := (Payload.check_eq_ok_iff.mp hcheck).1
  cliff_le := (Payload.check_eq_ok_iff.mp hcheck).2
  claimCount_le := le_refl 0
  totalClaimed_le := (Payload.check_eq_ok_iff.mp hcheck).1.le
  revoked_iff := by simp [ofPayload]
  of_active _ := ⟨rfl, rfl⟩

theorem claim (h : g.Conserved cs) {c : GrantClaimed} (hcheck : Payload.check (.claim c) = .ok ())
    {total : Amount} (htotal : total.val = g.totalClaimed.val + c.amount.val)
    (hle : total.val ≤ g.amount.val) (hcount : g.claimCount.toNat + 1 < UInt32.size) :
    (g.withClaim total p).Conserved (cs ++ [c]) := by
  have hamount : 0 < c.amount.val := requirePositive_eq_ok_iff.mp hcheck
  have hsucc := toNat_add_one_of_lt hcount
  have hbefore := h.claimCount_le
  refine ⟨?_, ?_, h.amount_pos, h.cliff_le, ?_, hle, h.revoked_iff, h.of_active⟩
  · simp [withClaim, htotal, h.totalClaimed_eq]
  · simp [withClaim, hsucc, h.claimCount_eq]
  · simp only [withClaim, hsucc]
    omega

theorem revoke (h : g.Conserved cs) (time : UInt64) (unvested : Amount) :
    Conserved { g with
      status := .revoked
      revokedAt := some time
      unvestedAmount := some unvested
      lastPosition := p } cs where
  totalClaimed_eq := h.totalClaimed_eq
  claimCount_eq := h.claimCount_eq
  amount_pos := h.amount_pos
  cliff_le := h.cliff_le
  claimCount_le := h.claimCount_le
  totalClaimed_le := h.totalClaimed_le
  revoked_iff := by simp
  of_active := by simp

end Conserved

theorem conserved_of_life {contract : ContractId} {id : UInt64}
    {fs : List (Position × Entity.Subject ⟨.grant, id⟩)} {row : Option Grant}
    (h : Entity.Life contract ⟨.grant, id⟩ fs row) :
    ∀ g, row = some g → g.Conserved (Entity.claims fs) := by
  induction h with
  | nil => simp
  | @step fs row x t h hcheck hafter hstep ih =>
    rw [Entity.claims_append_singleton]
    have hlast : ∀ old, row = some old → old.lastPosition < x.1 := fun old hold =>
      hafter old hold _ (List.mem_pair.mpr (.inr rfl))
    rcases step_cases contract x.1 row x.2 with ⟨c, hc, heq⟩ | ⟨c, hc, heq⟩ | ⟨c, hc, heq⟩
    · obtain ⟨rfl, rfl⟩ := of_create (fun old hold => hafter old hold _ List.mem_cons_self)
        (heq.symm.trans hstep)
      rw [h.eq_nil rfl, hc]
      rintro _ ⟨⟩
      exact .create (hc ▸ hcheck)
    · obtain ⟨old, row', rfl, -, hclaim, rfl⟩ := of_change hlast (heq.symm.trans hstep)
      obtain ⟨total, htotal, hle, hcount, rfl⟩ := of_afterClaim hclaim
      rw [hc]
      rintro _ ⟨⟩
      exact (ih old rfl).claim (hc ▸ hcheck) htotal hle hcount
    · obtain ⟨old, row', rfl, -, hrevoke, rfl⟩ := of_change hlast (heq.symm.trans hstep)
      cases hrevoke
      rw [hc]
      rintro _ ⟨⟩
      simpa [Payload.grantClaim?] using (ih old rfl).revoke c.revokedAt c.unvestedAmount

/-! ## Further claims -/

/-- Nothing but its amount can stand against the claim. -/
structure OpenTo (g : Grant) (c : GrantClaimed) : Prop where
  active : g.status = .active
  beneficiary_eq : c.beneficiary = g.beneficiary
  claimCount_lt : g.claimCount.toNat < 2 ^ 32 - 1

section Further

variable {g : Grant} {c : GrantClaimed} {p : Position}

theorem claim_of_le (hlast : g.lastPosition < p) (hopen : g.OpenTo c) {total : Amount}
    (htotal : total.val = g.totalClaimed.val + c.amount.val)
    (hle : total.val ≤ g.amount.val) :
    claim (some g) c p = .ok (.write (g.withClaim total p)) := by
  have hwith := totalWith?_eq_some_iff.mpr ⟨htotal, hle⟩
  have hsize : g.claimCount.toNat + 1 < UInt32.size := by
    have hcount := hopen.claimCount_lt
    change g.claimCount.toNat + 1 < 2 ^ 32
    omega
  simp [claim, change, afterClaim, withClaim, hlast.ne, hlast.asymm, hopen.active,
    hopen.beneficiary_eq, hwith, hsize]

theorem claim_of_lt (hlast : g.lastPosition < p) (hopen : g.OpenTo c)
    (hlt : g.amount.val < g.totalClaimed.val + c.amount.val) :
    claim (some g) c p =
      .error (.integrity (.grant c.grantId) (.overClaim c.amount g.remaining)) := by
  have hwith : g.totalWith? c = none := by
    rw [Option.eq_none_iff_forall_ne_some]
    intro total htotal
    obtain ⟨hsum, hle⟩ := totalWith?_eq_some_iff.mp htotal
    omega
  simp [claim, change, afterClaim, hlast.ne, hlast.asymm, hopen.active, hopen.beneficiary_eq, hwith]

end Further

/-- What has come of a logged claim of an active grant: it was added to the total, or the grant has
not enough for it and was frozen. -/
theorem history_claim {contract : ContractId} {es : List RawEvent} {x : RawEvent} {c : GrantClaimed}
    {g : Grant} (hes : Rising (es ++ [x])) (hcontract : ∀ y ∈ es, y.contract = contract)
    (hdecode : decode (.classify x.topic) x.payload x.position = .ok (.recognized (.claim c)))
    (hbefore : Entity.history contract ⟨.grant, c.grantId⟩ es = ⟨some g, none⟩)
    (hopen : g.OpenTo c) :
    let after := Entity.history contract ⟨.grant, c.grantId⟩ (es ++ [x])
    (g.totalClaimed.val + c.amount.val ≤ g.amount.val →
      ∃ total : Amount, total.val = g.totalClaimed.val + c.amount.val ∧
        after = ⟨some (g.withClaim total x.position), none⟩) ∧
      (g.amount.val < g.totalClaimed.val + c.amount.val →
        after = ⟨some g, some ⟨contract, ⟨.grant, c.grantId⟩, x.position,
          Refusal.message (.integrity (.grant c.grantId) (.overClaim c.amount g.remaining))⟩⟩) := by
  have hx : x.After es := fun f hf => hes.lt_of_mem_append hf (by simp)
  have hlife := Entity.life_history ⟨.grant, c.grantId⟩
    (hes.of_isPrefix (List.prefix_append es [x])) hcontract
  have hrow := (Entity.positions_history ⟨.grant, c.grantId⟩ hcontract hx).1
  rw [hbefore] at hlife hrow
  have hlast : g.lastPosition < x.position := hrow g rfl _ (List.mem_pair.mpr (.inr rfl))
  have hfact : Entity.fact? ⟨.grant, c.grantId⟩ x = some (x.position, ⟨.claim c, rfl⟩) :=
    Entity.fact?_of_decode hdecode
  rw [Entity.history_append_singleton, hfact, hbefore]
  constructor
  · intro hle
    obtain ⟨total, htotal⟩ :=
      (conserved_of_life hlife g rfl).exists_total (check_of_decode hdecode) hle
    have hstep : Entity.step contract x.position ⟨.grant, c.grantId⟩ ⟨.claim c, rfl⟩ (some g) =
        .ok (.write (g.withClaim total x.position)) :=
      claim_of_le hlast hopen htotal (htotal.trans_le hle)
    refine ⟨total, htotal, ?_⟩
    simp only [Option.map_some, Option.getD_some, Entity.follow, hstep]
  · intro hlt
    have hstep : Entity.step contract x.position ⟨.grant, c.grantId⟩ ⟨.claim c, rfl⟩ (some g) =
        .error (.integrity (.grant c.grantId) (.overClaim c.amount g.remaining)) :=
      claim_of_lt hlast hopen hlt
    simp only [Option.map_some, Option.getD_some, Entity.follow, hstep]

end Grant

namespace Partition.Holds

variable {contract : ContractId} {p : Partition} {es : List RawEvent} {g : Grant} {c : GrantClaimed}
  {position : Position}

private theorem lastPosition_lt (h : p.Holds contract es) (hlater : ∀ e ∈ es, e.position < position)
    {id : UInt64} (hrow : p.tables.row? .grant id = some g) : g.lastPosition < position := by
  have hwithin := Tables.within_derive_lt hlater
  rw [← h.tables_eq] at hwithin
  exact hwithin.row .grant id g hrow _ (List.mem_pair.mpr (.inr rfl))

theorem apply_claim_of_le (h : p.Holds contract es) (hlater : ∀ e ∈ es, e.position < position)
    (hrow : p.tables.row? .grant c.grantId = some g)
    (hfree : p.tables.quarantine? ⟨.grant, c.grantId⟩ = none) (hopen : g.OpenTo c)
    {total : Amount} (htotal : total.val = g.totalClaimed.val + c.amount.val)
    (hle : total.val ≤ g.amount.val) :
    let applied := p.tables.apply contract position (.recognized (.claim c))
    applied.1 = .ok .written ∧
      applied.2.row? .grant c.grantId = some (g.withClaim total position) := by
  have hstep : (Payload.claim c).step contract position (p.tables.row? .grant c.grantId) =
      .ok (.write (g.withClaim total position)) := by
    rw [hrow]
    exact Grant.claim_of_le (h.lastPosition_lt hlater hrow) hopen htotal hle
  have hkeyed := Tables.keyed_derive es
  rw [← h.tables_eq] at hkeyed
  have hid : (g.withClaim total position).grantId = c.grantId := hkeyed .grant c.grantId g hrow
  rw [Tables.apply_write hfree hstep]
  exact ⟨rfl, (Tables.row?_insert _ .grant _ _).trans (if_pos hid)⟩

theorem apply_claim_of_lt (h : p.Holds contract es) (hlater : ∀ e ∈ es, e.position < position)
    (hrow : p.tables.row? .grant c.grantId = some g)
    (hfree : p.tables.quarantine? ⟨.grant, c.grantId⟩ = none) (hopen : g.OpenTo c)
    (hlt : g.amount.val < g.totalClaimed.val + c.amount.val) :
    let applied := p.tables.apply contract position (.recognized (.claim c))
    applied.1 = .error (.integrity (.grant c.grantId) (.overClaim c.amount g.remaining)) ∧
      applied.2.row? .grant c.grantId = some g := by
  have hstep : (Payload.claim c).step contract position (p.tables.row? .grant c.grantId) =
      .error (.integrity (.grant c.grantId) (.overClaim c.amount g.remaining)) := by
    rw [hrow]
    exact Grant.claim_of_lt (h.lastPosition_lt hlater hrow) hopen hlt
  rw [Tables.apply_error hfree hstep]
  exact ⟨rfl, (Tables.row?_freeze _ _ .grant _).trans hrow⟩

end Partition.Holds

namespace System

variable {ρ : Type} [EventSource ρ]

/-- In every reachable state the row of a grant accounts for the logged claims of it, up to the
event that froze it, and what is left of it is the difference. Each logged claim of an active grant
was applied if the sum was within the grant, and froze it if not. So is a further claim. The call
that processes it fails only if too many commits are refused, and then nothing has come of it. -/
theorem Reachable.grant_conserved {s : System ρ} (h : s.Reachable) {contract : ContractId}
    {id : UInt64} {g : Grant} (hrow : (s.data contract).tables.row? .grant id = some g) :
    let entity : Entity := ⟨.grant, id⟩
    let quarantine := (s.data contract).tables.quarantine? entity
    let logged := (s.data contract).entries.map LogEntry.toRaw
    g.Conserved (Entity.claims (entity.facts logged quarantine)) ∧
      g.remaining.val = g.amount.val - g.totalClaimed.val ∧
      (∀ (before : List RawEvent) (x : RawEvent) (c : GrantClaimed) (old : Grant),
        before ++ [x] <+: logged →
        decode (.classify x.topic) x.payload x.position = .ok (.recognized (.claim c)) →
        c.grantId = id → entity.history contract before = ⟨some old, none⟩ → old.OpenTo c →
          let after := entity.history contract (before ++ [x])
          (old.totalClaimed.val + c.amount.val ≤ old.amount.val →
            ∃ total : Amount, total.val = old.totalClaimed.val + c.amount.val ∧
              after = ⟨some (old.withClaim total x.position), none⟩) ∧
          (old.amount.val < old.totalClaimed.val + c.amount.val →
            after = ⟨some old, some ⟨contract, entity, x.position,
              Refusal.message (.integrity entity (.overClaim c.amount old.remaining))⟩⟩)) ∧
      ∀ (policy : RetryPolicy) (x : RawEvent) (c : GrantClaimed), x.contract = contract →
        (∀ checkpoint, (s.data contract).checkpoint = some checkpoint →
          checkpoint.position < x.position) →
        decode (.classify x.topic) x.payload x.position = .ok (.recognized (.claim c)) →
        c.grantId = id → quarantine = none → g.OpenTo c →
          let called := s.world.perform (Job.process policy contract [x])
          let after := (called.2.store.partition contract).tables.row? .grant id
          (s.world.store.commitFailures ≤ policy.maxRetries.toNat →
            ∃ report, called.1 = .ok report) ∧
          (∀ e, called.1 = .error e → after = some g) ∧
          ∀ report, called.1 = .ok report →
            (g.totalClaimed.val + c.amount.val ≤ g.amount.val →
              report.written = 1 ∧ report.rejected = [] ∧
              ∃ total : Amount, total.val = g.totalClaimed.val + c.amount.val ∧
                after = some (g.withClaim total x.position)) ∧
            (g.amount.val < g.totalClaimed.val + c.amount.val →
              report.written = 0 ∧
              report.rejected =
                [⟨.of x, .integrity (.grant id) (.overClaim c.amount g.remaining)⟩] ∧
              after = some g) := by
  intro entity quarantine logged
  obtain ⟨es, hes⟩ := h.derived contract
  have hconserved := Grant.conserved_of_life (hes.life entity) g hrow
  refine ⟨hconserved, hconserved.remaining_eq, ?_, ?_⟩
  · intro before x c old hlogged hdecode hid hbefore hopen
    subst hid
    have hlogged' : before ++ [x] <+: es := hes.entries_eq ▸ hlogged
    have hcontract : ∀ y ∈ before, y.contract = contract := fun y hy =>
      hes.log.contract_eq y (hlogged'.subset (List.mem_append_left [x] hy))
    exact Grant.history_claim (hes.log.rising.of_isPrefix hlogged') hcontract hdecode hbefore
      hopen
  intro policy x c hx hafter hdecode hid hquarantine hopen called after
  subst hid
  have hlater := hes.after_of_checkpoint hafter
  obtain ⟨hok, herror, hprocessed⟩ := World.process_single hes hx hafter hdecode policy
  refine ⟨hok, ?_, ?_⟩
  · intro e he
    have hdata : called.2.store.partition contract = s.data contract := by
      rw [MemoryStore.partition, herror e he, data, MemoryStore.partition]
    exact (congrArg (·.tables.row? .grant c.grantId) hdata).trans hrow
  intro report hreport
  obtain ⟨rfl, htables⟩ := hprocessed report hreport
  constructor
  · intro hle
    obtain ⟨total, htotal⟩ := hconserved.exists_total (check_of_decode hdecode) hle
    obtain ⟨hwritten, hafter⟩ :=
      hes.apply_claim_of_le hlater hrow hquarantine hopen htotal (htotal.trans_le hle)
    rw [hwritten]
    exact ⟨rfl, rfl, total, htotal, (congrArg (·.row? .grant c.grantId) htables).trans hafter⟩
  · intro hlt
    obtain ⟨hrefused, hafter⟩ := hes.apply_claim_of_lt hlater hrow hquarantine hopen hlt
    rw [hrefused]
    exact ⟨rfl, rfl, (congrArg (·.row? .grant c.grantId) htables).trans hafter⟩

/-- Five are claimed of the greatest grant, then all of it once more: the sum is no amount, and the
claim is refused. -/
theorem grant_conserved_at_limit :
    let contract : ContractId := ⟨"C"⟩
    let limit : Json := .string "170141183460469231731687303715884105727"
    let beneficiary : String × Json := ("beneficiary", .string "B")
    let id : String × Json := ("grant_id", .number "1")
    let granted : RawEvent := ⟨contract, "GRANT", .object [("amount", limit), beneficiary,
      ("cliff_seconds", .number "0"), ("duration_seconds", .number "9"), id,
      ("granted_at", .number "0"), ("start_time", .number "0")], 1, .epoch, .replicate 0, 0⟩
    let claimed (amount : Json) (ledger : UInt32) : RawEvent := ⟨contract, "CLAIM", .object [
      ("amount", amount), beneficiary, ("claimed_at", .number "1"), id], ledger, .epoch,
      .replicate 0, 0⟩
    let policy : RetryPolicy := ⟨3, 100, 2.0, 1000⟩
    let run (es : List RawEvent) : System MemorySource :=
      ⟨((World.start .empty .empty).perform (Job.process policy contract es)).2, fun _ => none⟩
    let s := run [granted, claimed (.string "5") 2]
    let called := s.world.perform (Job.process policy contract [claimed limit 3])
    s.Reachable ∧ ∃ g : Grant, (s.data contract).tables.row? .grant 1 = some g ∧
      g.totalClaimed.val = 5 ∧ g.remaining.val = amountLimit - 6 ∧
      (∃ report, called.1 = .ok report ∧ report.written = 0) ∧
      (called.2.store.partition contract).tables.row? .grant 1 = some g := by
  intro contract limit beneficiary id granted claimed policy run s
  have hstart : (⟨World.start .empty .empty, fun _ => none⟩ : System MemorySource).Reachable :=
    .start rfl
  have hrun (es : List RawEvent) : (run es).Reachable := hstart.perform rfl (.process policy es)
  have hreachable : s.Reachable := hrun _
  have hfields : ((s.data contract).tables.row? .grant 1).map (fun g : Grant =>
      (g.amount.val, g.totalClaimed.val, g.claimCount, g.status, g.beneficiary)) =
        some (amountLimit - 1, 5, 1, .active, "B") := by decide +kernel
  have hcommit : s.world.store.commitFailures = 0 := by decide +kernel
  have hcheckpoint : (s.data contract).checkpoint.all
      (fun c => decide (c.position < (claimed limit 3).position)) := by decide +kernel
  have hfree : (s.data contract).tables.quarantine? ⟨.grant, 1⟩ = none := by decide +kernel
  let c : GrantClaimed := ⟨1, "B", ⟨amountLimit - 1, by decide, by decide⟩, 1⟩
  have hdecode : decode (.classify (claimed limit 3).topic) (claimed limit 3).payload
      (claimed limit 3).position = .ok (.recognized (.claim c)) := by decide +kernel
  obtain ⟨g, hrow, hg⟩ := Option.map_eq_some_iff.mp hfields
  simp only [Prod.mk.injEq] at hg
  obtain ⟨hamount, htotal, hcount, hactive, hbeneficiary⟩ := hg
  obtain ⟨-, hremaining, -, hfurther⟩ := hreachable.grant_conserved hrow
  have hlater := hfurther policy (claimed limit 3) c rfl
    (fun checkpoint hc => by simpa [hc] using hcheckpoint) hdecode rfl hfree
    ⟨hactive, hbeneficiary.symm, by rw [hcount]; decide⟩
  dsimp only at hlater ⊢
  obtain ⟨hok, -, hprocessed⟩ := hlater
  obtain ⟨report, hanswer⟩ := hok (by rw [hcommit]; exact Nat.zero_le _)
  obtain ⟨hwritten, -, hsame⟩ := (hprocessed report hanswer).2 (by rw [htotal, hamount]; decide)
  refine ⟨hreachable, g, hrow, htotal, ?_, ⟨report, hanswer, hwritten⟩, hsame⟩
  rw [hremaining, hamount, htotal]
  decide

end System

end EventIndex
