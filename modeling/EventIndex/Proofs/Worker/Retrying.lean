import EventIndex.Indexer.Worker
import EventIndex.Proofs.Program.Weakest
import EventIndex.Proofs.Store.Direct

/-! # Transactions and retries under a rule

A rule for the effects of a job may keep track of one thing or another. As long as it answers the
requests of a transaction from what this has written, a batch does to the data what it does alone;
and as long as it takes no notice of retries, the last attempt at a job decides. -/

namespace EventIndex

open Program

/-- The error that a job ends with because of the one that the last attempt has ended with. -/
def RetryPolicy.givenUp (policy : RetryPolicy) (contract : ContractId) (cause : IndexerError) :
    IndexerError :=
  .ofFailure contract ⟨policy.maxRetries.toNat + 1, cause⟩

namespace Job

variable {τ α : Type} {rule : Rule Effect.signature τ} {contract : ContractId}

/-- What a batch does to the data it does in the open transaction to what would be committed. -/
theorem wp_ofBatch_of_request {p : Partition} (view : WriteSet → τ)
    (hrequest : ∀ (r : Request) (w : WriteSet) {Q : Except StorageError r.Answer → τ → Prop},
      Q (w.request p r).1 (view (w.request p r).2) → rule (.request r) Q (view w))
    (b : Batch α) {w : WriteSet} {Q : Except IndexerError α → τ → Prop}
    (h : b.run.wp Partition.rule (fun r p' => ∀ w' : WriteSet, w'.mergeInto p = p' → Q r (view w'))
      (w.mergeInto p)) : (ofBatch b).run.wp rule Q (view w) := by
  change (b.run.expand fun r => perform (.request r)).wp _ _ _
  revert h
  generalize b.run = x
  intro h
  induction x generalizing w with
  | done r => exact h w rfl
  | note line x ih => exact ih h
  | now x ih => exact fun t => ih t (h t)
  | pause ms x ih => exact ih h
  | call r x ih =>
    refine hrequest r w (ih (w.request p r).1 ?_)
    rw [w.request_answer, w.request_mergeInto]
    exact h

section Retries

variable {job : Job (Except IndexerError α)} {I : τ → Prop} {Good : α → τ → Prop}
  {Bad : IndexerError → τ → Prop} {v : τ}

/-- Of the attempts at a job the last one decides. What may be retried leaves `I` as it is. -/
private theorem wp_attempt (hmono : rule.Mono)
    (hretry : ∀ {Q : Unit → τ → Prop} {v : τ}, Q () v → rule .recordRetry Q v)
    (policy : RetryPolicy)
    (hjob : ∀ v, I v → job.wp rule (fun r v' =>
      match r with
      | .ok a => Good a v'
      | .error e => Bad e v' ∧ I v') v)
    (hv : I v) (retry left : Nat) :
    (policy.attempt job (fun _ _ => perform .recordRetry) retry left).wp rule (fun r v' =>
      match r with
      | .ok a => Good a v'
      | .error f => Bad f.error v' ∧ (f.error.isRetriable → f.attempts = retry + left + 1)) v := by
  induction left generalizing retry v with
  | zero =>
    rw [RetryPolicy.attempt, wp_bind]
    refine wp_mono hmono _ ?_ (hjob v hv)
    rintro (e | a) v' h
    · exact ⟨h.1, fun _ => rfl⟩
    · exact h
  | succ left ih =>
    rw [RetryPolicy.attempt, wp_bind]
    refine wp_mono hmono _ ?_ (hjob v hv)
    rintro (e | a) v' h
    · dsimp only
      split
      · have hnext := ih h.2 (retry + 1)
        rw [Nat.add_assoc retry 1 left, Nat.add_comm 1 left] at hnext
        exact hretry hnext
      · rename_i hpasses
        exact ⟨h.1, fun hretriable => absurd hretriable hpasses⟩
    · exact h

theorem wp_retrying_of_mono (hmono : rule.Mono)
    (hretry : ∀ {Q : Unit → τ → Prop} {v : τ}, Q () v → rule .recordRetry Q v)
    (policy : RetryPolicy) (I : τ → Prop) (Good : α → τ → Prop) (Bad : IndexerError → τ → Prop)
    (hjob : ∀ v, I v → job.wp rule (fun r v' =>
      match r with
      | .ok a => Good a v'
      | .error e => Bad e v' ∧ I v') v)
    (hv : I v) {Q : Except IndexerError α → τ → Prop} (hgood : ∀ a v', Good a v' → Q (.ok a) v')
    (hbad : ∀ cause v', Bad cause v' → Q (.error (policy.givenUp contract cause)) v') :
    (retrying policy contract job).wp rule Q v := by
  rw [retrying, wp_bind]
  refine wp_mono hmono _ ?_ (wp_attempt hmono hretry policy hjob hv 0 policy.maxRetries.toNat)
  rintro (⟨attempts, cause⟩ | a) v' h
  · obtain ⟨hcause, hattempts⟩ := h
    have hgivenUp : IndexerError.ofFailure contract ⟨attempts, cause⟩ =
        policy.givenUp contract cause := by
      simp only [RetryPolicy.givenUp, IndexerError.ofFailure]
      split
      · rename_i hretriable
        exact congrArg (IndexerError.retriesExhausted contract · cause)
          ((hattempts hretriable).trans (congrArg (· + 1) (Nat.zero_add _)))
      · rfl
    change Q (.error (IndexerError.ofFailure contract ⟨attempts, cause⟩)) v'
    rw [hgivenUp]
    exact hbad cause v' hcause
  · exact hgood a v' h

end Retries

end Job

end EventIndex
