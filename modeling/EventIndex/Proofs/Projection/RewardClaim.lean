import EventIndex.Proofs.Projection.Evolution
import EventIndex.Proofs.Projection.Refusals

/-! # Rewards are claimed once

The first logged claim of a reward settles it. The same claim may come again, wherever it stands,
and changes nothing; any other claim is refused and freezes the reward. -/

namespace EventIndex

open Relation

def Payload.rewardClaim? : Payload → Option RewardClaimed
  | .rewardClaimed c => some c
  | _ => none

def Entity.rewardClaims {e : Entity} (fs : List (Position × e.Subject)) :
    List (Position × RewardClaimed) :=
  fs.filterMap fun f => f.2.val.rewardClaim?.map (f.1, ·)

theorem Entity.rewardClaims_append_singleton {e : Entity} (fs : List (Position × e.Subject))
    (x : Position × e.Subject) : rewardClaims (fs ++ [x]) =
      rewardClaims fs ++ (x.2.val.rewardClaim?.map (x.1, ·)).toList := by
  cases hx : x.2.val.rewardClaim? <;> simp [rewardClaims, hx]

namespace Reward

def withClaim (r : Reward) (c : RewardClaimed) (p : Position) : Reward :=
  { r with
    claimed := true
    claimedAmount := some c.amount
    claimedAt := some c.claimedAt
    claimPosition := some p }

theorem hasClaim_iff {r : Reward} {c : RewardClaimed} : r.hasClaim c ↔
    r.claimedAmount = some c.amount ∧ r.claimedAt = some c.claimedAt ∧
      r.recipient = c.recipient := by
  simp [hasClaim, and_assoc]

theorem claimFlaw?_eq_none_iff {r : Reward} {c : RewardClaimed} {p : Position} :
    r.claimFlaw? c p = none ↔
      r.createdPosition < p ∧ r.recipient = c.recipient ∧ r.amount = c.amount := by
  simp only [claimFlaw?]
  split
  · simp_all
  · split
    · simp_all
    · split <;> simp_all

/-! ## What is applied to a reward -/

section Applied

variable {contract : ContractId} {id : UInt64} {current : Option Reward} {p : Position}
  {t : Transition Reward}

theorem of_add {c : RewardAdded} (hafter : ∀ old, current = some old → old.createdPosition < p)
    (h : add current contract c p = .ok t) :
    current = none ∧ t = .write (ofPayload contract c p) := by
  unfold add at h
  cases current with
  | none => exact ⟨rfl, (Except.ok.inj h).symm⟩
  | some old => simp [(hafter old rfl).ne] at h

/-- A claim that is applied is the one that was made before, or the first one. -/
theorem of_claim {c : RewardClaimed} (h : claim current c p = .ok t) :
    ∃ old, current = some old ∧
      ((old.claimed ∧ old.hasClaim c ∧ t = .unchanged) ∨
        (old.claimed = false ∧ old.claimFlaw? c p = none ∧ t = .write (old.withClaim c p))) := by
  unfold claim at h
  cases current with
  | none => cases h
  | some old =>
    refine ⟨old, rfl, ?_⟩
    dsimp only at h
    split at h
    · rename_i hclaimed
      split at h
      · rename_i hhas
        exact .inl ⟨hclaimed, hhas, (Except.ok.inj h).symm⟩
      · cases h
    · rename_i hclaimed
      split at h
      · cases h
      · rename_i hflaw
        exact .inr ⟨by simpa using hclaimed, hflaw, (Except.ok.inj h).symm⟩

theorem step_cases (contract : ContractId) (p : Position) (current : Option Reward)
    (x : Entity.Subject ⟨.reward, id⟩) :
    (∃ c, x.val = .rewardAdded c ∧
      Entity.step contract p ⟨.reward, id⟩ x current = add current contract c p) ∨
    ∃ c, x.val = .rewardClaimed c ∧
      Entity.step contract p ⟨.reward, id⟩ x current = claim current c p := by
  obtain ⟨x, hx⟩ := x
  have hid : x.id = id := congrArg Entity.id hx
  subst hid
  cases x with
  | rewardAdded c => exact .inl ⟨c, rfl, rfl⟩
  | rewardClaimed c => exact .inr ⟨c, rfl, rfl⟩
  | _ => cases hx

end Applied

/-! ## What a row keeps -/

/-- The row tells the first of the claims, which is of the whole amount, and all others are the
same. -/
structure Settled (r : Reward) (cs : List (Position × RewardClaimed)) : Prop where
  claimed_iff : r.claimed ↔ cs ≠ []
  amount_eq : r.claimed → r.claimedAmount = some r.amount
  first : ∀ c, cs.head? = some c → r.claimedAmount = some c.2.amount ∧
    r.claimedAt = some c.2.claimedAt ∧ r.claimPosition = some c.1 ∧ r.createdPosition < c.1
  hasClaim : ∀ c ∈ cs, r.hasClaim c.2
  unclaimed : r.claimed = false →
    r.claimedAmount = none ∧ r.claimedAt = none ∧ r.claimPosition = none

namespace Settled

variable {r : Reward} {cs : List (Position × RewardClaimed)} {c : RewardClaimed} {p : Position}

theorem agree (h : r.Settled cs) {a b : Position × RewardClaimed} (ha : a ∈ cs) (hb : b ∈ cs) :
    a.2.recipient = b.2.recipient ∧ a.2.amount = b.2.amount ∧ a.2.claimedAt = b.2.claimedAt := by
  obtain ⟨hamount, htime, hrecipient⟩ := hasClaim_iff.mp (h.hasClaim a ha)
  obtain ⟨hamount', htime', hrecipient'⟩ := hasClaim_iff.mp (h.hasClaim b hb)
  exact ⟨hrecipient.symm.trans hrecipient', Option.some.inj (hamount.symm.trans hamount'),
    Option.some.inj (htime.symm.trans htime')⟩

theorem add (contract : ContractId) (a : RewardAdded) : (ofPayload contract a p).Settled [] where
  claimed_iff := by simp [ofPayload]
  amount_eq := by simp [ofPayload]
  first := by simp
  hasClaim := by simp
  unclaimed _ := ⟨rfl, rfl, rfl⟩

theorem claim (hflaw : r.claimFlaw? c p = none) : (r.withClaim c p).Settled [(p, c)] := by
  obtain ⟨hafter, hrecipient, hamount⟩ := claimFlaw?_eq_none_iff.mp hflaw
  refine ⟨by simp [withClaim], fun _ => ?_, ?_, ?_, by simp [withClaim]⟩
  · exact congrArg some hamount.symm
  · rintro _ ⟨⟩
    exact ⟨rfl, rfl, rfl, hafter⟩
  · simpa [hasClaim_iff, withClaim] using hrecipient

theorem again (h : r.Settled cs) (hclaimed : r.claimed) (hhas : r.hasClaim c) (p : Position) :
    r.Settled (cs ++ [(p, c)]) where
  claimed_iff := by simp [hclaimed]
  amount_eq := h.amount_eq
  first d hd := h.first d (by rwa [List.head?_append_of_ne_nil _ (h.claimed_iff.mp hclaimed)] at hd)
  hasClaim := by
    intro d hd
    rcases List.mem_append.mp hd with hd | hd
    · exact h.hasClaim d hd
    · rwa [List.mem_singleton.mp hd]
  unclaimed := h.unclaimed

end Settled

theorem settled_of_life {contract : ContractId} {id : UInt64}
    {fs : List (Position × Entity.Subject ⟨.reward, id⟩)} {row : Option Reward}
    (h : Entity.Life contract ⟨.reward, id⟩ fs row) :
    ∀ r, row = some r → r.Settled (Entity.rewardClaims fs) := by
  induction h with
  | nil => simp
  | @step fs row x t h hcheck hafter hstep ih =>
    rw [Entity.rewardClaims_append_singleton]
    rcases step_cases contract x.1 row x.2 with ⟨c, hc, heq⟩ | ⟨c, hc, heq⟩
    · obtain ⟨rfl, rfl⟩ := of_add (fun old hold => hafter old hold _ List.mem_cons_self)
        (heq.symm.trans hstep)
      rw [h.eq_nil rfl, hc]
      rintro _ ⟨⟩
      exact .add contract c
    · obtain ⟨old, rfl, hcases⟩ := of_claim (heq.symm.trans hstep)
      have hold := ih old rfl
      rw [hc]
      rcases hcases with ⟨hclaimed, hhas, rfl⟩ | ⟨hclaimed, hflaw, rfl⟩
      · rintro _ ⟨⟩
        exact hold.again hclaimed hhas x.1
      · -- Without a claim before it, this is the only one.
        have hnil : Entity.rewardClaims fs = [] := by
          by_contra hne
          rw [hold.claimed_iff.mpr hne] at hclaimed
          cases hclaimed
        rw [hnil]
        rintro _ ⟨⟩
        exact .claim hflaw

/-! ## How a row changes -/

/-- A reward that was not claimed is claimed. -/
inductive Change : Reward → Reward → Prop
  | claim {r : Reward} (hopen : r.claimed = false) {c : RewardClaimed} {p : Position}
    (hflaw : r.claimFlaw? c p = none) : Change r (r.withClaim c p)

theorem moves (contract : ContractId) (id : UInt64) :
    Entity.Moves contract ⟨.reward, id⟩ Change := by
  intro (old : Reward) (row : Reward) position x hafter hstep
  have hcreated : old.createdPosition < position := hafter _ List.mem_cons_self
  rcases step_cases contract position (some old) x with ⟨c, -, heq⟩ | ⟨c, -, heq⟩
  · obtain ⟨⟨⟩, -⟩ := of_add (by rintro _ ⟨⟩; exact hcreated) (heq.symm.trans hstep)
  · obtain ⟨_, ⟨⟩, ⟨-, -, ⟨⟩⟩ | ⟨hopen, hflaw, ⟨⟩⟩⟩ := of_claim (heq.symm.trans hstep)
    exact .claim hopen hflaw

/-- A reward is claimed at most once over any time. -/
theorem eq_or_change {r r' : Reward} (h : ReflTransGen Change r r') : r' = r ∨ Change r r' := by
  induction h with
  | refl => exact .inl rfl
  | tail _ hchange ih =>
    rcases ih with rfl | ⟨-, -⟩
    · exact .inr hchange
    · cases hchange with
      | claim hopen => cases hopen

theorem eq_of_claimed {r r' : Reward} (h : r' = r ∨ Change r r') (hclaimed : r.claimed) :
    r' = r := by
  rcases h with rfl | ⟨hopen, -⟩
  · rfl
  · rw [hopen] at hclaimed
    cases hclaimed

/-! ## Other claims -/

/-- How another claim of a claimed reward is refused, whether or not the reward is frozen. -/
def otherClaimRefusal (r : Reward) (id : UInt64) : Option Quarantine → Refusal
  | some q => .quarantined (.reward id) q.position
  | none => .integrity (.reward id) (.claimedOtherwise r.claimPosition)

theorem rejection?_of_otherClaim {contract : ContractId} {before : List RawEvent} {x : RawEvent}
    {c : RewardClaimed} {r : Reward} {q : Option Quarantine}
    (hdecode : decode (.classify x.topic) x.payload x.position =
      .ok (.recognized (.rewardClaimed c)))
    (hbefore : Entity.history contract ⟨.reward, c.rewardId⟩ before = ⟨some r, q⟩)
    (hclaimed : r.claimed) (hother : ¬ r.hasClaim c) :
    (Entity.history contract ⟨.reward, c.rewardId⟩ (before ++ [x])).row = some r ∧
      Entity.rejection? contract ⟨.reward, c.rewardId⟩ before x =
        some ⟨.of x, r.otherClaimRefusal c.rewardId q⟩ := by
  have hfact : Entity.fact? ⟨.reward, c.rewardId⟩ x =
      some (x.position, ⟨.rewardClaimed c, rfl⟩) := Entity.fact?_of_decode hdecode
  have hstep : Entity.step contract x.position ⟨.reward, c.rewardId⟩ ⟨.rewardClaimed c, rfl⟩
      (some r) = .error (r.otherClaimRefusal c.rewardId none) := by
    have hclaim : claim (some r) c x.position = .error (r.otherClaimRefusal c.rewardId none) := by
      simp [claim, hclaimed, hother, otherClaimRefusal]
    exact hclaim
  rw [Entity.history_append_singleton, Entity.rejection?, hfact, hbefore]
  simp only [Option.map_some, Option.getD_some, Option.bind_some, Entity.follow, Entity.refusal?]
  cases q with
  | some q => exact ⟨rfl, rfl⟩
  | none =>
    rw [hstep]
    exact ⟨rfl, rfl⟩

end Reward

namespace System

variable {ρ : Type} [EventSource ρ]

/-- In every reachable state the row of a reward is claimed as soon as a claim of it is logged
before the event that froze it, and tells the first of these claims, which are all the same and of
the amount of the reward. From there on it is claimed at most once, and a claimed row stays as it
is. Any other logged claim of a claimed reward is refused and leaves the row alone. The calls report
these refusals. -/
theorem Reachable.reward_claimed_once {s : System ρ} (h : s.Reachable) {contract : ContractId}
    {id : UInt64} {r : Reward} (hrow : (s.data contract).tables.row? .reward id = some r) :
    let entity : Entity := ⟨.reward, id⟩
    let quarantine := (s.data contract).tables.quarantine? entity
    let logged := (s.data contract).entries.map LogEntry.toRaw
    let claims := Entity.rewardClaims (entity.facts logged quarantine)
    r.Settled claims ∧
      (∀ a ∈ claims, ∀ b ∈ claims, a.2.recipient = b.2.recipient ∧ a.2.amount = b.2.amount ∧
        a.2.claimedAt = b.2.claimedAt) ∧
      (∀ s', ReflTransGen Step s s' → ∃ r' : Reward,
        (s'.data contract).tables.row? .reward id = some r' ∧ (r' = r ∨ r.Change r') ∧
          (r.claimed → r' = r)) ∧
      (∀ (before later : List RawEvent) (x : RawEvent) (c : RewardClaimed) (old : Reward)
        (q : Option Quarantine), logged = before ++ x :: later →
        decode (.classify x.topic) x.payload x.position = .ok (.recognized (.rewardClaimed c)) →
        c.rewardId = id → entity.history contract before = ⟨some old, q⟩ → old.claimed →
        (old.claimedAmount ≠ some c.amount ∨ old.claimedAt ≠ some c.claimedAt ∨
          old.recipient ≠ c.recipient) →
          (entity.history contract (before ++ [x])).row = some old ∧
            entity.rejections contract [] logged = entity.rejections contract [] before ++
              ⟨.of x, old.otherClaimRefusal id q⟩ ::
                entity.rejections contract (before ++ [x]) later) ∧
      s.world.ReportsRefusals contract entity := by
  intro entity quarantine logged claims
  obtain ⟨es, hes⟩ := h.derived contract
  have hsettled := Reward.settled_of_life (hes.life entity) r hrow
  refine ⟨hsettled, fun a ha b hb => hsettled.agree ha hb, ?_, ?_, hes.reportsRefusals entity⟩
  · intro s' hsteps
    obtain ⟨r', hrow', hchanges⟩ :=
      (Reward.moves contract id).growsTo (h.growsTo hsteps contract) hrow
    have hcases := Reward.eq_or_change hchanges
    exact ⟨r', hrow', hcases, Reward.eq_of_claimed hcases⟩
  · intro before later x c old q hlogged hdecode hid hbefore hclaimed hother
    subst hid
    have hhas : ¬ old.hasClaim c := by
      rw [Reward.hasClaim_iff]
      tauto
    obtain ⟨hsame, hrejection⟩ :=
      Reward.rejection?_of_otherClaim hdecode hbefore hclaimed hhas
    refine ⟨hsame, ?_⟩
    rw [hlogged, Entity.rejections_append, Entity.rejections, List.nil_append, hrejection]
    rfl

/-- A reward is claimed, and claimed again in the same way. Then more is claimed of it. -/
theorem reward_claimed_once_of_mismatch :
    let contract : ContractId := ⟨"C"⟩
    let entity : Entity := ⟨.reward, 7⟩
    let recipient : String × Json := ("recipient", .string "R")
    let id : String × Json := ("reward_id", .number "7")
    let added : RawEvent := ⟨contract, "REWARD_ADDED", .object [("added_at", .number "1"),
      ("amount", .string "5"), ("reason", .string "bug"), recipient, id], 1, .epoch,
      .replicate 0, 0⟩
    let claimed (amount : String) (ledger : UInt32) : RawEvent := ⟨contract, "REWARD_CLAIMED",
      .object [("amount", .string amount), ("claimed_at", .number "3"), recipient, id], ledger,
      .epoch, .replicate 0, 0⟩
    let policy : RetryPolicy := ⟨3, 100, 2.0, 1000⟩
    let s : System MemorySource := ⟨((World.start .empty .empty).perform
      (Job.process policy contract [added, claimed "5" 2, claimed "5" 3])).2, fun _ => none⟩
    let called := s.world.perform (Job.process policy contract [claimed "6" 4, claimed "6" 5])
    let claim : RewardClaimed := ⟨7, "R", ⟨5, by decide, by decide⟩, 3⟩
    s.Reachable ∧ ∃ r : Reward, (s.data contract).tables.row? .reward 7 = some r ∧
      r.Settled [((claimed "5" 2).position, claim), ((claimed "5" 3).position, claim)] ∧
      ∃ report, called.1 = .ok report ∧ report.rejectedOf entity =
        [⟨.of (claimed "6" 4), .integrity entity (.claimedOtherwise r.claimPosition)⟩,
          ⟨.of (claimed "6" 5), .quarantined entity (claimed "6" 4).position⟩] := by
  intro contract entity recipient id added claimed policy s called claim
  have hstart : (⟨World.start .empty .empty, fun _ => none⟩ : System MemorySource).Reachable :=
    .start rfl
  have hreachable : s.Reachable := hstart.perform rfl (.process policy _)
  have hclaimed : ((s.data contract).tables.row? .reward 7).map Reward.claimPosition =
      some (some (claimed "5" 2).position) := by decide +kernel
  have hclaims : Entity.rewardClaims (entity.facts ((s.data contract).entries.map LogEntry.toRaw)
      ((s.data contract).tables.quarantine? entity)) =
        [((claimed "5" 2).position, claim), ((claimed "5" 3).position, claim)] := by decide +kernel
  have hcommit : s.world.store.commitFailures = 0 := by decide +kernel
  have hbefore : entity.rejections contract [] ((s.data contract).entries.map LogEntry.toRaw) =
      [] := by decide +kernel
  have hafter : entity.rejections contract []
      ((called.2.store.partition contract).entries.map LogEntry.toRaw) =
        [⟨.of (claimed "6" 4),
            .integrity entity (.claimedOtherwise (some (claimed "5" 2).position))⟩,
          ⟨.of (claimed "6" 5), .quarantined entity (claimed "6" 4).position⟩] := by decide +kernel
  clear_value s
  obtain ⟨r, hrow, hposition⟩ := Option.map_eq_some_iff.mp hclaimed
  obtain ⟨hsettled, -, -, -, hreports⟩ := hreachable.reward_claimed_once hrow
  obtain ⟨report, hreport⟩ := hreports.process_ok policy [claimed "6" 4, claimed "6" 5]
    (by simp [claimed]) (by rw [hcommit]; exact Nat.zero_le _)
  obtain ⟨-, hrejected⟩ := hreports.process_eq policy _ report hreport
  rw [hclaims] at hsettled
  refine ⟨hreachable, r, hrow, hsettled, report, hreport, ?_⟩
  rw [hposition, ← hafter]
  exact (hrejected.trans (congrArg (· ++ report.rejectedOf entity) hbefore)).symm

end System

end EventIndex
