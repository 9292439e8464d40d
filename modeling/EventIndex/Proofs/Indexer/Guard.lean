import EventIndex.Proofs.Batch.Freshness
import EventIndex.Proofs.Batch.Growth
import EventIndex.Proofs.Indexer.Transaction

/-! # Jobs and committed data

A job is followed together with the committed data and the open transaction of its contract.
Whatever its surroundings answer, the data only grow, and an event is recorded or applied only when
it is after all positions that the transaction sees. -/

namespace EventIndex

open Program

variable {α β : Type} {contract : ContractId}

/-- What must hold before an effect. The commit of data that have grown may be refused; other data
are not to be committed, and other contracts are left alone. -/
def Effect.rule (contract : ContractId) : Rule Effect.signature (Partition × Option WriteSet)
  | .query .., Q, s => ∀ a, Q a s
  | .fetch .., Q, s => ∀ a, Q a s
  | .start c, Q, (p, _) => c = contract ∧ Q (.ok ()) (p, some (.start contract))
  | .request _, Q, (p, none) => Q (.error Desk.withoutTransaction) (p, none)
  | .request r, Q, (p, some w) => Q (w.request p r).1 (p, some (w.request p r).2)
  | .commit, Q, (p, none) => Q (.error Desk.withoutTransaction) (p, none)
  | .commit, Q, (p, some w) =>
    p.GrowsTo contract (w.mergeInto p) ∧ Q (.error .commitRefused) (p, none) ∧
      Q (.ok ()) (w.mergeInto p, none)
  | .abandon, Q, (p, _) => Q () (p, none)
  | .stopRequested, Q, s => ∀ b, Q b s
  | .recordBatch .., Q, s => Q () s
  | .recordRetry, Q, s => Q () s

theorem Effect.rule_mono (contract : ContractId) : (Effect.rule contract).Mono := by
  rintro op Q Q' ⟨p, tx⟩ hQ hrule
  cases op with
  | query | fetch | stopRequested => exact fun a => hQ _ _ (hrule a)
  | start c => exact ⟨hrule.1, hQ _ _ hrule.2⟩
  | request r => cases tx <;> exact hQ _ _ hrule
  | commit =>
    cases tx with
    | none => exact hQ _ _ hrule
    | some w => exact ⟨hrule.1, hQ _ _ hrule.2.1, hQ _ _ hrule.2.2⟩
  | abandon | recordBatch | recordRetry => exact hQ _ _ hrule

namespace Job

/-! ## What a transaction sees -/

def request (r : Request) : Job (Except StorageError r.Answer) :=
  perform (.request r)

def ofSession (x : Session α) : Job (Except StorageError α) :=
  x.run.expand request

/-- `S` holds of all positions in the tables that the open transaction sees. -/
def SeesWithin (S : Position → Prop) (s : Partition × Option WriteSet) : Prop :=
  ∃ w, s.2 = some w ∧ (w.mergeInto s.1).tables.Within S

/-- An event that is about to be recorded or applied is after all positions that the transaction
sees. The log is also asked for late events; then there is a line to be written for those that it
does not have. -/
def freshness : Guard Effect.signature (Partition × Option WriteSet) where
  Holds job s :=
    (∀ p k, job = .call (.request (.entry p)) k →
      (∃ line rest, k (Except.ok none) = .note line rest) ∨ SeesWithin (· < p) s) ∧
    ∀ entity k, job = .call (.request (.quarantine entity)) k →
      ∃ c p e next, job = ofSession (apply c p (.recognized e)) >>= next ∧ SeesWithin (· < p) s
  bind := by
    rintro α β job f s hjob ⟨hentry, hquarantine⟩
    cases job with
    | done a => exact absurd rfl (hjob a)
    | note line job | now job | pause ms job =>
      exact ⟨by rintro p k ⟨⟩, by rintro entity k ⟨⟩⟩
    | call op job =>
      constructor
      · rintro p k ⟨⟩
        refine (hentry p job rfl).imp_left ?_
        rintro ⟨line, rest, hrest⟩
        exact ⟨line, rest >>= f, by change (job _).bind f = _; rw [hrest]; rfl⟩
      · rintro entity k ⟨⟩
        obtain ⟨c, p, e, next, hnext, hsees⟩ := hquarantine entity job rfl
        exact ⟨c, p, e, fun a => next a >>= f, by rw [hnext, LawfulMonad.bind_assoc], hsees⟩

/-- The guard of jobs is the guard of batches, within the transaction. -/
private theorem along_expand (x : Program Request.signature α) {p : Partition} {w : WriteSet}
    {Q : α → Partition → Prop} (h : x.along Partition.rule Batch.freshness Q (w.mergeInto p)) :
    (x.expand request).along (Effect.rule contract) freshness
      (fun a s => ∃ w : WriteSet, s = (p, some w) ∧ Q a (w.mergeInto p)) (p, some w) := by
  induction x generalizing w with
  | done a => exact ⟨w, rfl, h⟩
  | note line x ih => exact ⟨⟨by rintro p k ⟨⟩, by rintro entity k ⟨⟩⟩, ih h.2⟩
  | now x ih => exact ⟨⟨by rintro p k ⟨⟩, by rintro entity k ⟨⟩⟩, fun t => ih t (h.2 t)⟩
  | pause ms x ih => exact ⟨⟨by rintro p k ⟨⟩, by rintro entity k ⟨⟩⟩, ih h.2⟩
  | call r x ih =>
    obtain ⟨⟨hentry, hquarantine⟩, hrule⟩ := h
    refine ⟨⟨?_, ?_⟩, ih _ ?_⟩
    · rintro q k ⟨⟩
      rcases hentry q x rfl with ⟨line, rest, hrest⟩ | hwithin
      · refine .inl ⟨line, rest.expand request, ?_⟩
        change (x (.ok none)).expand request = _
        rw [hrest]
        rfl
      · exact .inr ⟨w, rfl, hwithin⟩
    · rintro entity k ⟨⟩
      obtain ⟨c, q, e, next, hnext, hwithin⟩ := hquarantine entity x rfl
      refine ⟨c, q, e, fun a => (next a).expand request, ?_, w, rfl, hwithin⟩
      exact (congrArg (expand request) hnext).trans (expand_bind request _ next)
    · rw [w.request_answer, w.request_mergeInto]
      exact hrule

/-! ## What comes of a job -/

/-- On derived data, the job ends with derived data and an answer of which `Q` holds. -/
def Gives (contract : ContractId) (Q : α → Prop) (job : Job α) : Prop :=
  ∀ p tx, p.Derived contract → job.along (Effect.rule contract) freshness
    (fun a s => s.1.Derived contract ∧ Q a) (p, tx)

namespace Gives

variable {Q : α → Prop}

theorem mono {job : Job α} {Q' : α → Prop} (h : job.Gives contract Q) (hQ : ∀ a, Q a → Q' a) :
    job.Gives contract Q' :=
  fun p tx hp => along_mono (Effect.rule_mono contract) job
    (fun a _ hs => ⟨hs.1, hQ a hs.2⟩) (h p tx hp)

theorem pure {a : α} (h : Q a) : (pure a : Job α).Gives contract Q :=
  fun _ _ hp => ⟨hp, h⟩

theorem bind {job : Job α} {next : α → Job β} {Q' : β → Prop} (h : job.Gives contract Q)
    (hnext : ∀ a, Q a → (next a).Gives contract Q') : (job >>= next).Gives contract Q' := by
  intro p tx hp
  refine along_bind (Effect.rule_mono contract) job ?_
  refine along_mono (Effect.rule_mono contract) job ?_ (h p tx hp)
  rintro a ⟨p', tx'⟩ ⟨hp', ha⟩
  exact hnext a ha p' tx' hp'

theorem write (line : Line) : Gives contract (fun _ => True) (write line) :=
  fun _ _ hp => ⟨⟨by rintro p k ⟨⟩, by rintro entity k ⟨⟩⟩, hp, trivial⟩

theorem clock : Gives contract (fun _ => True) clock :=
  fun _ _ hp => ⟨⟨by rintro p k ⟨⟩, by rintro entity k ⟨⟩⟩, fun _ => ⟨hp, trivial⟩⟩

theorem wait (ms : UInt64) : Gives contract (fun _ => True) (wait ms) :=
  fun _ _ hp => ⟨⟨by rintro p k ⟨⟩, by rintro entity k ⟨⟩⟩, hp, trivial⟩

theorem recordRetry : Gives contract (fun _ => True) (perform .recordRetry) :=
  fun _ _ hp => ⟨⟨by rintro p k ⟨⟩, by rintro entity k ⟨⟩⟩, hp, trivial⟩

theorem recordBatch (report : BatchReport) (nanos : Nat) :
    Gives contract (fun _ => True) (perform (.recordBatch report nanos)) :=
  fun _ _ hp => ⟨⟨by rintro p k ⟨⟩, by rintro entity k ⟨⟩⟩, hp, trivial⟩

end Gives

end Job

/-! ## Transactions -/

namespace IndexerError

/-- The error that the attempts ended with. -/
def root : IndexerError → IndexerError
  | retriesExhausted _ _ last => last.root
  | e => e

/-- The store has refused a commit, or an event of another contract was delivered. -/
def IsOrdinary (e : IndexerError) : Prop :=
  e.root = .storage .commitRefused ∨ ∃ expected actual, e.root = .foreignEvent expected actual

theorem root_ofFailure (contract : ContractId) (f : RetryFailure IndexerError) :
    (ofFailure contract f).root = f.error.root := by
  unfold ofFailure
  split <;> rfl

/-- The answer is one of which `R` holds, or an ordinary error. -/
def Answers (R : α → Prop) : Except IndexerError α → Prop
  | .ok a => R a
  | .error e => e.IsOrdinary

end IndexerError

namespace Job

open IndexerError

variable {R : α → Prop}

theorem Gives.transact {b : Batch α} (h : ∀ p, p.Derived contract →
    b.run.along Partition.rule Batch.freshness
      (fun r p' => Answers R r ∧ ∀ a, r = .ok a → p.GrowsTo contract p') p) :
    (transact contract b).Gives contract (Answers R) := by
  intro p tx hp
  rw [transact_eq]
  refine ⟨⟨by rintro p k ⟨⟩, by rintro entity k ⟨⟩⟩, rfl, ?_⟩
  change ((ofBatch b).run >>= conclude).along _ _ _ _
  have hbatch := h p hp
  rw [← WriteSet.mergeInto_start p contract] at hbatch
  refine along_bind (Effect.rule_mono contract) _ ?_
  refine along_mono (Effect.rule_mono contract) _ ?_ (along_expand b.run hbatch)
  rintro r s ⟨w, rfl, hr, hgrows⟩
  rw [WriteSet.mergeInto_start] at hgrows
  cases r with
  | error e => exact ⟨⟨by rintro p k ⟨⟩, by rintro entity k ⟨⟩⟩, hp, hr⟩
  | ok a =>
    have hgrows := hgrows a rfl
    exact ⟨⟨by rintro p k ⟨⟩, by rintro entity k ⟨⟩⟩, hgrows, ⟨hp, .inl rfl⟩,
      hgrows.derived, hr⟩

/-! ## Retries -/

private theorem Gives.attempt {job : Job (Except IndexerError α)}
    (h : job.Gives contract (Answers R)) (policy : RetryPolicy) (retry left : Nat) :
    Gives contract (fun r => Answers R (r.mapError RetryFailure.error))
      (policy.attempt job (fun _ _ => perform .recordRetry) retry left) := by
  induction left generalizing retry with
  | zero =>
    refine h.bind fun r hr => .pure ?_
    cases r <;> exact hr
  | succ left ih =>
    refine h.bind fun r hr => ?_
    cases r with
    | ok a => exact .pure hr
    | error e =>
      dsimp only
      split
      · exact (Gives.write _).bind fun _ _ => Gives.recordRetry.bind fun _ _ =>
          (Gives.wait _).bind fun _ _ => ih (retry + 1)
      · exact .pure hr

theorem Gives.retrying {job : Job (Except IndexerError α)} (h : job.Gives contract (Answers R))
    (policy : RetryPolicy) : (retrying policy contract job).Gives contract (Answers R) := by
  refine (h.attempt policy 0 policy.maxRetries.toNat).bind fun r hr => .pure ?_
  cases r with
  | ok a => exact hr
  | error f =>
    change (IndexerError.ofFailure contract f).IsOrdinary
    rw [IsOrdinary, root_ofFailure]
    exact hr

/-! ## Processing and rebuilding -/

theorem gives_process (policy : RetryPolicy) (contract : ContractId) (es : List RawEvent) :
    (process policy contract es).Gives contract
      (Answers fun report => report.alreadyLogged = 0 ∧ report.logConflicts = []) := by
  have htransact : (transact contract (Batch.process contract es)).Gives contract
      (Answers fun report => report.alreadyLogged = 0 ∧ report.logConflicts = []) := by
    apply Gives.transact
    rintro p ⟨logged, hp⟩
    refine along_mono (Rule.mono_ofAnswer _) _ ?_
      (along_and_wp _ (Batch.along_process hp.fresh_start es) (Batch.wp_process_of_holds hp es))
    rintro r p' ⟨-, hr⟩
    cases r with
    | error err =>
      obtain ⟨e, -, -, rfl⟩ := hr
      exact ⟨.inr ⟨_, _, rfl⟩, by simp⟩
    | ok report =>
      have hdelivery := hr.delivery_eq _ (List.prefix_refl _) hr.holds.log.rising
      refine ⟨⟨congrArg Delivery.alreadyLogged hdelivery, congrArg Delivery.logConflicts hdelivery⟩,
        ?_⟩
      rintro _ -
      exact hr.growsTo hp
  refine Gives.clock.bind fun started _ => (htransact.retrying policy).bind fun r hr => ?_
  cases r with
  | error e => exact .pure hr
  | ok report =>
    refine Gives.clock.bind fun ended _ => (Gives.recordBatch _ _).bind fun _ _ => ?_
    cases report.line with
    | none => exact .pure hr
    | some line => exact (Gives.write line).bind fun _ _ => .pure hr

theorem gives_rebuild (policy : RetryPolicy) (contract : ContractId) :
    (rebuild policy contract).Gives contract (Answers fun _ => True) := by
  have htransact : (transact contract (Batch.rebuild contract)).Gives contract
      (Answers fun _ => True) := by
    apply Gives.transact
    rintro p ⟨logged, hp⟩
    refine along_mono (Rule.mono_ofAnswer _) _ ?_
      (along_and_wp _ (Batch.along_rebuild contract p) (Batch.wp_rebuild_of_holds hp))
    rintro r p' ⟨-, report, rfl, hr⟩
    exact ⟨trivial, fun _ _ => hr.growsTo hp⟩
  refine (htransact.retrying policy).bind fun r hr => ?_
  cases r with
  | error e => exact .pure hr
  | ok report => exact (Gives.write _).bind fun _ _ => .pure hr

end Job

end EventIndex
