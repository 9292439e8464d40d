import EventIndex.Indexer.Run
import EventIndex.Proofs.Indexer.Transaction
import EventIndex.Proofs.Row.Canonical

/-! # Comparing rows with the log

The stored rows match the log of a contract just if they are equal to the rows that the log gives:
comparing their texts misses no difference. -/

namespace EventIndex

/-- Reads the log of a contract, replays it, and reads what is stored. -/
def Job.replayedAndStored (contract : ContractId) :
    Job (Except IndexerError (Snapshot × Snapshot)) := do
  match (← perform (.query contract .entries)) with
  | .error e => pure (.error (.storage e))
  | .ok entries =>
    match (← Replay.snapshot contract (Log.sort entries)) with
    | .error e => pure (.error e)
    | .ok replayed =>
      match (← perform (.query contract .snapshot)) with
      | .error e => pure (.error (.storage e))
      | .ok stored => pure (.ok (replayed, stored))

theorem Job.matchesLog_eq (contract : ContractId) :
    matchesLog contract = (do
      match (← replayedAndStored contract) with
      | .error e => pure (.error e)
      | .ok (replayed, stored) => .ok <$> Replay.agrees contract replayed stored) := by
  simp only [matchesLog, replayedAndStored, bind_assoc]
  congr 1
  funext entries
  cases entries with
  | error e => rfl
  | ok entries =>
    simp only [bind_assoc]
    congr 1
    funext replayed
    cases replayed with
    | error e => rfl
    | ok replayed =>
      simp only [bind_assoc]
      congr 1
      funext stored
      cases stored <;> rfl

theorem Replay.run_agrees {σ ρ : Type} [Store σ] [EventSource ρ] (contract : ContractId)
    (replayed stored : Snapshot) (d : Desk σ ρ) :
    (((agrees contract replayed stored).run Desk.handler).run d).1 =
      decide (replayed = stored) := by
  by_cases heq : replayed = stored
  · simp [agrees, heq]
    rfl
  · have htext : ¬ replayed.canonicalText = stored.canonicalText :=
      mt Snapshot.canonicalText_inj.mp heq
    simp [agrees, heq, htext]
    rfl

theorem Job.run_matchesLog {σ ρ : Type} [Store σ] [EventSource ρ] (contract : ContractId)
    (d : Desk σ ρ) :
    (((matchesLog contract).run Desk.handler).run d).1 =
      (((replayedAndStored contract).run Desk.handler).run d).1.map
        fun x => decide (x.1 = x.2) := by
  rw [matchesLog_eq, Program.run_bind_run]
  generalize ((replayedAndStored contract).run Desk.handler).run d = answer
  obtain ⟨r, d'⟩ := answer
  cases r with
  | error e => rfl
  | ok x =>
    obtain ⟨replayed, stored⟩ := x
    dsimp only
    rw [map_eq_pure_bind, Program.run_bind_run]
    exact congrArg Except.ok (Replay.run_agrees contract replayed stored d')

/-- A snapshot is read back from its text, so different snapshots have different texts. Whether the
stored rows match the log is therefore whether they are equal to the replayed ones, in every row and
field. -/
theorem Snapshot.canonicalText_faithful {σ ρ : Type} [Store σ] [EventSource ρ] (w : World σ ρ)
    (contract : ContractId) (s t : Snapshot) :
    codec.ofText s.canonicalText = .ok s ∧
      (s.canonicalText.toUTF8 = t.canonicalText.toUTF8 ↔ s = t) ∧
      (w.perform (Job.matchesLog contract)).1 =
        (w.perform (Job.replayedAndStored contract)).1.map fun x => decide (x.1 = x.2) := by
  refine ⟨s.ofText_canonicalText, ?_, Job.run_matchesLog contract _⟩
  rw [← canonicalText_inj]
  exact String.toByteArray_inj

end EventIndex
