import EventIndex.Proofs.Batch.Cut
import EventIndex.Proofs.Worker.Retrying
import EventIndex.Proofs.Worker.Surroundings

/-! # The attempts of a worker

What a worker comes to when it fetches or processes a batch, with all of its attempts. As long as
they fail the data of the contract stay as they are, and an error that may pass is given up only
after the last retry. -/

namespace EventIndex

open Program

variable {α : Type} {contract : ContractId} {s : Surroundings}

/-- The errors that the surroundings of a contract may lead to. -/
inductive Surroundings.Fails (s : Surroundings) (contract : ContractId) : IndexerError → Prop
  | fetch {after : Option Position} {limit : Nat} {e : SourceError}
    (h : s.Fetches after limit (.error e)) : Fails s contract (.source e)
  | commit (h : s.Refuses) : Fails s contract (.storage .commitRefused)
  | foreign {after : Option Position} {limit : Nat} {es : List RawEvent} {e : RawEvent}
    (h : s.Fetches after limit (.ok es)) (he : es.find? (·.contract ≠ contract) = some e) :
    Fails s contract (.foreignEvent contract e.contract)

namespace Job

/-! ## A batch in a transaction -/

theorem wp_ofBatch (b : Batch α) {p : Partition} {w : WriteSet} {o : Observed}
    {Q : Except IndexerError α → View → Prop}
    (h : b.run.wp Partition.rule
      (fun r p' => ∀ w' : WriteSet, w'.mergeInto p = p' → Q r ⟨p, some w', o⟩) (w.mergeInto p)) :
    (ofBatch b).run.wp (Effect.watched contract s) Q (View.mk p (some w) o) :=
  wp_ofBatch_of_request (fun w => View.mk p (some w) o) (fun _ _ _ h => h) b h

section Batches

variable {es : List RawEvent} {p : Partition} {committed : List (List RawEvent)}
  {failure : Option IndexerError}

/-- The batch that was fetched last is committed or refused as a whole, if it is of the contract.
Else it is abandoned. -/
theorem wp_transact (tx : Option WriteSet) {Q : Except IndexerError BatchReport → View → Prop}
    (hcommitted : (∀ e ∈ es, e.contract = contract) →
      ∀ (times : List Timestamp) (now : Timestamp), times.length = es.length →
        let processed := p.process contract (es.zip times) now
        Q (.ok processed.1) ⟨processed.2, none, ⟨es, committed ++ [es], failure⟩⟩)
    (hrefused : s.Refuses →
      let cause := .storage .commitRefused
      Q (.error cause) ⟨p, none, ⟨es, committed, some cause⟩⟩)
    (hforeign : ∀ e, es.find? (·.contract ≠ contract) = some e →
      let cause := .foreignEvent contract e.contract
      Q (.error cause) ⟨p, none, ⟨es, committed, some cause⟩⟩) :
    (transact contract (Batch.process contract es)).wp (Effect.watched contract s) Q
      (View.mk p tx ⟨es, committed, failure⟩) := by
  rw [transact_eq, wp_bind]
  refine ⟨rfl, ?_⟩
  change ((ofBatch _).run >>= conclude).wp _ _ _
  rw [wp_bind]
  apply wp_ofBatch
  rw [WriteSet.mergeInto_start]
  apply Batch.wp_process
  · intro hes times now htimes w hw
    have hQ := hcommitted hes times now htimes
    dsimp only at hQ
    rw [← hw] at hQ
    exact ⟨hrefused, hQ⟩
  · intro e he d w hw
    have hseen : Observed.note ⟨es, committed, failure⟩ contract .abandon () =
        ⟨es, committed, some (.foreignEvent contract e.contract)⟩ := by
      simp only [Observed.note, he, Option.map_some]
    change Q _ ⟨p, none, Observed.note ⟨es, committed, failure⟩ contract .abandon ()⟩
    rw [hseen]
    exact hforeign e he

end Batches

/-! ## Retries -/

theorem wp_retrying {job : Job (Except IndexerError α)} (policy : RetryPolicy) (I : View → Prop)
    (Good : α → View → Prop) (Bad : IndexerError → View → Prop)
    (hjob : ∀ v, I v → job.wp (Effect.watched contract s) (fun r v' =>
      match r with
      | .ok a => Good a v'
      | .error e => Bad e v' ∧ I v') v)
    {v : View} (hv : I v) {Q : Except IndexerError α → View → Prop}
    (hgood : ∀ a v', Good a v' → Q (.ok a) v')
    (hbad : ∀ cause v', Bad cause v' → Q (.error (policy.givenUp contract cause)) v') :
    (retrying policy contract job).wp (Effect.watched contract s) Q v :=
  wp_retrying_of_mono (Effect.watched_mono contract s) (fun h => h) policy I Good Bad hjob hv hgood
    hbad

theorem wp_process (policy : RetryPolicy) {after : Option Position} {limit : Nat}
    {es : List RawEvent} {p : Partition} {committed : List (List RawEvent)}
    {failure : Option IndexerError} (hfetches : s.Fetches after limit (.ok es))
    {Q : Except IndexerError BatchReport → View → Prop}
    (hcommitted : (∀ e ∈ es, e.contract = contract) →
      ∀ (times : List Timestamp) (now : Timestamp) (failure : Option IndexerError),
        times.length = es.length →
          let processed := p.process contract (es.zip times) now
          Q (.ok processed.1) ⟨processed.2, none, ⟨es, committed ++ [es], failure⟩⟩)
    (hfailed : ∀ cause, s.Fails contract cause →
      Q (.error (policy.givenUp contract cause)) ⟨p, none, ⟨es, committed, some cause⟩⟩) :
    (process policy contract es).wp (Effect.watched contract s) Q
      (View.mk p none ⟨es, committed, failure⟩) := by
  let before (failure : Option IndexerError) : View := ⟨p, none, ⟨es, committed, failure⟩⟩
  rw [process, wp_bind, wp_clock]
  intro started
  rw [wp_bind]
  refine wp_retrying policy (fun v => ∃ failure, v = before failure)
    (fun report v => (∀ e ∈ es, e.contract = contract) ∧ ∃ times now failure,
      times.length = es.length ∧
        let processed := p.process contract (es.zip times) now
        report = processed.1 ∧ v = ⟨processed.2, none, ⟨es, committed ++ [es], failure⟩⟩)
    (fun cause v => s.Fails contract cause ∧ v = before (some cause)) ?_ ⟨failure, rfl⟩ ?_ ?_
  · rintro _ ⟨failure, rfl⟩
    apply wp_transact
    · intro hes times now htimes
      exact ⟨hes, times, now, failure, htimes, rfl, rfl⟩
    · intro hrefuses
      exact ⟨⟨.commit hrefuses, rfl⟩, _, rfl⟩
    · intro e he
      exact ⟨⟨.foreign hfetches he, rfl⟩, _, rfl⟩
  · rintro _ _ ⟨hes, times, now, failure, htimes, rfl, rfl⟩ ended
    have hQ := hcommitted hes times now failure htimes
    dsimp only
    cases (p.process contract (es.zip times) now).1.line <;> exact hQ
  · rintro cause _ ⟨hfails, rfl⟩
    exact hfailed cause hfails

theorem wp_resume (policy : RetryPolicy) {v : View}
    {Q : Except IndexerError (Option Position) → View → Prop}
    (h : Q (.ok (v.data.checkpoint.map Checkpoint.position)) v) :
    (retrying policy contract do
      return (← resumePosition contract).mapError IndexerError.storage).wp
      (Effect.watched contract s) Q v := by
  refine wp_retrying policy (· = v)
    (fun a v' => a = v.data.checkpoint.map Checkpoint.position ∧ v' = v) (fun _ _ => False)
    ?_ rfl ?_ ?_
  · rintro _ rfl
    exact ⟨rfl, rfl, rfl⟩
  · rintro _ _ ⟨rfl, rfl⟩
    exact h
  · rintro _ _ ⟨⟩

end Job

theorem Worker.wp_fetch (w : Worker) {fetched : List RawEvent} {p : Partition}
    {committed : List (List RawEvent)} {failure : Option IndexerError}
    {Q : Except IndexerError (List RawEvent) → View → Prop}
    (hfetched : ∀ es failure, s.Fetches w.after w.config.batchSize.toNat (.ok es) →
      Q (.ok es) ⟨p, none, ⟨es, committed, failure⟩⟩)
    (hfailed : ∀ cause, s.Fails w.contract cause →
      Q (.error (w.config.retryPolicy.givenUp w.contract cause))
        ⟨p, none, ⟨fetched, committed, some cause⟩⟩) :
    w.fetch.wp (Effect.watched w.contract s) Q (View.mk p none ⟨fetched, committed, failure⟩) := by
  let before (failure : Option IndexerError) : View := ⟨p, none, ⟨fetched, committed, failure⟩⟩
  refine Job.wp_retrying _ (fun v => ∃ failure, v = before failure)
    (fun es v => s.Fetches w.after w.config.batchSize.toNat (.ok es) ∧
      ∃ failure, v = ⟨p, none, ⟨es, committed, failure⟩⟩)
    (fun cause v => s.Fails w.contract cause ∧ v = before (some cause)) ?_ ⟨failure, rfl⟩ ?_ ?_
  · rintro _ ⟨failure, rfl⟩
    rw [wp_bind]
    refine ⟨rfl, ?_⟩
    rintro (e | es) ha
    · exact ⟨⟨.fetch ha, rfl⟩, _, rfl⟩
    · exact ⟨ha, failure, rfl⟩
  · rintro es _ ⟨ha, failure, rfl⟩
    exact hfetched es failure ha
  · rintro cause _ ⟨hfails, rfl⟩
    exact hfailed cause hfails

end EventIndex
