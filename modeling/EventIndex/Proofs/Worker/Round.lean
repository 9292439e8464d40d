import EventIndex.Proofs.Worker.Attempts

/-! # The rounds of a worker

What a worker comes to in one round: it ends, waits, or commits one batch. -/

namespace EventIndex

open Program

/-- What comes of a round of a worker that has no transaction open, and what is in view then. -/
inductive Round (s : Surroundings) (w : Worker) :
    Partition → Observed → Worker × Option Exit → View → Prop
  | stopped {p : Partition} {o : Observed} (h : s.Stops true) :
    Round s w p o (w, some .stopped) ⟨p, none, o⟩
  | failed {p : Partition} {o : Observed} {fetched : List RawEvent} {cause : IndexerError}
    (h : s.Fails w.contract cause) :
    Round s w p o (w, some (.paused (w.config.retryPolicy.givenUp w.contract cause)))
      ⟨p, none, ⟨fetched, o.committed, some cause⟩⟩
  | drained {p : Partition} {o : Observed} {failure : Option IndexerError}
    (h : s.Fetches w.after w.config.batchSize.toNat (.ok [])) :
    Round s w p o (w, if w.config.stopWhenCaughtUp then some .caughtUp else none)
      ⟨p, none, ⟨[], o.committed, failure⟩⟩
  | committed {p : Partition} {o : Observed} {es : List RawEvent} {times : List Timestamp}
    {now : Timestamp} {failure : Option IndexerError}
    (h : s.Fetches w.after w.config.batchSize.toNat (.ok es)) (hne : es ≠ [])
    (hes : ∀ e ∈ es, e.contract = w.contract) (htimes : times.length = es.length) :
    Round s w p o (w.advance (p.process w.contract (es.zip times) now).1, none)
      ⟨(p.process w.contract (es.zip times) now).2, none, ⟨es, o.committed ++ [es], failure⟩⟩

theorem Job.wp_stopRequested {s : Surroundings} {contract : ContractId} (Q : Bool → View → Prop)
    (v : View) :
    (perform .stopRequested).wp (Effect.watched contract s) Q v = ∀ b, s.Stops b → Q b v := rfl

namespace Worker

variable {s : Surroundings} (w : Worker)

theorem wp_round (p : Partition) (o : Observed) :
    w.round.wp (Effect.watched w.contract s) (Round s w p o) (View.mk p none o) := by
  rw [round, wp_bind, Job.wp_stopRequested]
  intro stops hstops
  cases stops with
  | true => exact .stopped hstops
  | false =>
    rw [if_neg Bool.false_ne_true, wp_bind]
    apply w.wp_fetch
    · intro es failure hfetches
      cases es with
      | nil =>
        have hdrained : Round s w p o _ ⟨p, none, ⟨[], o.committed, failure⟩⟩ := .drained hfetches
        dsimp only
        split
        · rename_i hcaught
          rwa [if_pos hcaught] at hdrained
        · rename_i hcaught
          rw [if_neg hcaught] at hdrained
          rw [wp_bind, wait, wp_bind, Job.wp_stopRequested]
          intro stops hstops
          cases stops <;> exact hdrained
      | cons e es =>
        rw [wp_bind]
        refine Job.wp_process w.config.retryPolicy hfetches ?_ ?_
        · intro hes times now failure htimes
          exact .committed hfetches (List.cons_ne_nil e es) hes htimes
        · intro cause hfails
          exact .failed hfails
    · intro cause hfails
      exact .failed hfails

/-- The last line of a worker does not matter for its report. -/
@[simp] theorem wp_finish (exit : Exit) (Q : WorkerReport → View → Prop) (v : View)
    (contract : ContractId) :
    (w.finish exit).wp (Effect.watched contract s) Q v =
      Q ⟨w.contract, exit, w.batches, w.events, w.after⟩ v := by
  cases exit <;> rfl

end Worker

end EventIndex
