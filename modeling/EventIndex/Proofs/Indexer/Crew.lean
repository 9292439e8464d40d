import EventIndex.Indexer.Run
import EventIndex.Proofs.Program.Weakest
import Mathlib.Data.List.Perm.Basic
import Mathlib.Data.List.Nodup
import Mathlib.Logic.Relation

/-! # The workers of an indexer

The workers of the configured contracts share one world and take their steps in any order. When the
indexer lets them take turns, this is one of the orders. -/

namespace EventIndex

variable {ρ : Type} [EventSource ρ]

/-- The workers of an indexer, in the order of the contracts, and the state that they share. -/
structure Crew (ρ : Type) where
  world : World MemoryStore ρ
  workers : List (Waiting MemoryStore (Option WorkerReport))

namespace Crew

def start (world : World MemoryStore ρ) (config : Config) (rounds : Nat) : Crew ρ :=
  ⟨world, config.contractIds.map fun contract => ⟨Worker.run config contract rounds, none⟩⟩

/-- The worker `b`, which is the one at `i`, takes its next step. -/
def work (c : Crew ρ) (i : Nat) (b : Waiting MemoryStore (Option WorkerReport)) : Crew ρ :=
  let next := (b.job.step Desk.handler).run ⟨c.world, b.tx⟩
  ⟨next.2.world, c.workers.set i ⟨next.1, next.2.tx⟩⟩

inductive Step : Crew ρ → Crew ρ → Prop
  | work {c : Crew ρ} {i : Nat} {b : Waiting MemoryStore (Option WorkerReport)}
    (hworker : c.workers[i]? = some b) : Step c (c.work i b)

/-- All workers are done, and what they have come to arrives in some order. -/
def Ends (c : Crew ρ) (arrived : List (Option WorkerReport)) : Prop :=
  (c.workers.map Waiting.job).Perm (arrived.map .done)

theorem length_workers {c c' : Crew ρ} (h : Relation.ReflTransGen Step c c') :
    c'.workers.length = c.workers.length := by
  induction h with
  | refl => rfl
  | tail _ hstep ih =>
    cases hstep with
    | work hworker => exact (List.length_set ..).trans ih

/-! ## Taking turns -/

/-- The state in which this is left of a worker. -/
private def left (c : Crew ρ) (i : Nat) (job : Job (Option WorkerReport))
    (d : Desk MemoryStore ρ) : Crew ρ :=
  ⟨d.world, c.workers.set i ⟨job, d.tx⟩⟩

private def rest : Job (Option WorkerReport) ⊕ Option WorkerReport → Job (Option WorkerReport)
  | .inl job => job
  | .inr a => .done a

section Turns

variable {c : Crew ρ} {i : Nat} {b : Waiting MemoryStore (Option WorkerReport)}

omit [EventSource ρ] in
private theorem left_of_getElem? (h : c.workers[i]? = some b) :
    c.left i b.job ⟨c.world, b.tx⟩ = c := by
  obtain ⟨hi, hb⟩ := List.getElem?_eq_some_iff.mp h
  have hset : c.workers.set i b = c.workers := by
    rw [← hb, List.set_getElem_self]
  exact congrArg (Crew.mk c.world) hset

private theorem step_left (hi : i < c.workers.length) (job : Job (Option WorkerReport))
    (d : Desk MemoryStore ρ) :
    let next := (job.step Desk.handler).run d
    Step (c.left i job d) (c.left i next.1 next.2) := by
  have hworker : (c.left i job d).workers[i]? = some ⟨job, d.tx⟩ := by
    simp [left, hi]
  have hstep := Step.work hworker
  simp only [work, left, List.set_set] at hstep
  exact hstep

private theorem reaches_turn (h : c.workers[i]? = some b) :
    let turned := (b.job.runTurn Desk.handler).run ⟨c.world, b.tx⟩
    Relation.ReflTransGen Step c (c.left i (rest turned.1) turned.2) := by
  have hi : i < c.workers.length := (List.getElem?_eq_some_iff.mp h).1
  have hleft (job : Job (Option WorkerReport)) (d : Desk MemoryStore ρ) :
      let turned := (job.runTurn Desk.handler).run d
      Relation.ReflTransGen Step (c.left i job d) (c.left i (rest turned.1) turned.2) := by
    induction job generalizing d with
    | done a => exact .refl
    | note line job ih => exact .head (step_left hi _ d) (ih _)
    | now job ih | call op job ih => exact .head (step_left hi _ d) (ih _ _)
    | pause ms job ih => exact .single (step_left hi _ d)
  have hturn := hleft b.job ⟨c.world, b.tx⟩
  rwa [left_of_getElem? h] at hturn

private theorem reaches_finish (h : c.workers[i]? = some b) :
    let ended := (b.job.run Desk.handler).run ⟨c.world, b.tx⟩
    Relation.ReflTransGen Step c (c.left i (.done ended.1) ended.2) := by
  have hi : i < c.workers.length := (List.getElem?_eq_some_iff.mp h).1
  have hleft (job : Job (Option WorkerReport)) (d : Desk MemoryStore ρ) :
      let ended := (job.run Desk.handler).run d
      Relation.ReflTransGen Step (c.left i job d) (c.left i (.done ended.1) ended.2) := by
    induction job generalizing d with
    | done a => exact .refl
    | note line job ih | pause ms job ih => exact .head (step_left hi _ d) (ih _)
    | now job ih | call op job ih => exact .head (step_left hi _ d) (ih _ _)
  have hfinish := hleft b.job ⟨c.world, b.tx⟩
  rwa [left_of_getElem? h] at hfinish

end Turns

/-- From `c` on, the workers at `is` may take all of their steps, so that the world becomes `world`
and what they have come to arrives in this order. -/
private def Finishes (c : Crew ρ) (is : List Nat) (arrived : List (Option WorkerReport))
    (world : World MemoryStore ρ) : Prop :=
  ∃ (c' : Crew ρ) (js : List Nat), Relation.ReflTransGen Step c c' ∧ c'.world = world ∧
    (∀ j, j ∉ is → c'.workers[j]? = c.workers[j]?) ∧ js.Perm is ∧
    js.map (fun j => c'.workers[j]?.map Waiting.job) = (arrived.map .done).map some

section Queue

variable {c : Crew ρ} {i : Nat} {is : List Nat} {b : Waiting MemoryStore (Option WorkerReport)}
  {waiting : List (Waiting MemoryStore (Option WorkerReport))}

omit [EventSource ρ] in
private theorem getElem?_left (h : c.workers[i]? = some b) (job : Job (Option WorkerReport))
    (d : Desk MemoryStore ρ) : (c.left i job d).workers[i]? = some ⟨job, d.tx⟩ := by
  have hi : i < c.workers.length := (List.getElem?_eq_some_iff.mp h).1
  simp [left, hi]

omit [EventSource ρ] in
private theorem getElem?_left_of_ne {j : Nat} (hj : j ≠ i) (job : Job (Option WorkerReport))
    (d : Desk MemoryStore ρ) : (c.left i job d).workers[j]? = c.workers[j]? := by
  simp [left, hj.symm]

private theorem Finishes.cons {a : Option WorkerReport} {d : Desk MemoryStore ρ}
    {arrived : List (Option WorkerReport)} {world : World MemoryStore ρ}
    (hb : c.workers[i]? = some b) (hi : i ∉ is)
    (hsteps : Relation.ReflTransGen Step c (c.left i (.done a) d))
    (h : (c.left i (.done a) d).Finishes is arrived world) :
    c.Finishes (i :: is) (a :: arrived) world := by
  obtain ⟨c', js, hsteps', hworld, hother, hperm, harrived⟩ := h
  refine ⟨c', i :: js, hsteps.trans hsteps', hworld, ?_, hperm.cons i, ?_⟩
  · intro j hj
    obtain ⟨hji, hj⟩ : j ≠ i ∧ j ∉ is := by simpa using hj
    exact (hother j hj).trans (getElem?_left_of_ne hji _ _)
  · rw [List.map_cons, List.map_cons, harrived, hother i hi, getElem?_left hb]
    rfl

private theorem Finishes.requeue {job : Job (Option WorkerReport)} {d : Desk MemoryStore ρ}
    {arrived : List (Option WorkerReport)} {world : World MemoryStore ρ}
    (hsteps : Relation.ReflTransGen Step c (c.left i job d))
    (h : (c.left i job d).Finishes (is ++ [i]) arrived world) :
    c.Finishes (i :: is) arrived world := by
  obtain ⟨c', js, hsteps', hworld, hother, hperm, harrived⟩ := h
  refine ⟨c', js, hsteps.trans hsteps', hworld, ?_, ?_, harrived⟩
  · intro j hj
    obtain ⟨hji, hj⟩ : j ≠ i ∧ j ∉ is := by simpa using hj
    exact (hother j (by simp [hji, hj])).trans (getElem?_left_of_ne hji _ _)
  · exact hperm.trans (List.perm_append_singleton i is)

omit [EventSource ρ] in
private theorem map_getElem?_left (hi : i ∉ is) (job : Job (Option WorkerReport))
    (d : Desk MemoryStore ρ) :
    is.map (fun j => (c.left i job d).workers[j]?) = is.map (fun j => c.workers[j]?) :=
  List.map_congr_left fun _ hj => getElem?_left_of_ne (ne_of_mem_of_not_mem hj hi) _ _

private theorem finishes_mapM (hnodup : is.Nodup)
    (hwaiting : is.map (fun i => c.workers[i]?) = waiting.map some) :
    let ended := (waiting.mapM (Waiting.finish Desk.handler)).run c.world
    c.Finishes is ended.1 ended.2 := by
  induction waiting generalizing c is with
  | nil =>
    obtain rfl : is = [] := by simpa using hwaiting
    exact ⟨c, [], .refl, rfl, fun _ _ => rfl, .refl _, rfl⟩
  | cons b waiting ih =>
    obtain ⟨i, is, rfl⟩ : ∃ i is', is = i :: is' := by
      cases is with
      | nil => cases hwaiting
      | cons i is => exact ⟨i, is, rfl⟩
    obtain ⟨hi, hnodup⟩ := List.nodup_cons.mp hnodup
    obtain ⟨hb, hwaiting⟩ := List.cons.inj hwaiting
    let ended := (b.job.run Desk.handler).run ⟨c.world, b.tx⟩
    have hnext := (map_getElem?_left hi (.done ended.1) ended.2).trans hwaiting
    rw [List.mapM_cons]
    exact (ih hnodup hnext).cons hb hi (reaches_finish hb)

private theorem run_queue_cons (turns : Nat) (b : Waiting MemoryStore (Option WorkerReport))
    (waiting : List (Waiting MemoryStore (Option WorkerReport))) (world : World MemoryStore ρ) :
    (Queue.run (Waiting.turn Desk.handler) (Waiting.finish Desk.handler) (turns + 1)
      (b :: waiting)).run world =
        let turned := (b.job.runTurn Desk.handler).run ⟨world, b.tx⟩
        match turned.1 with
        | .inl job => (Queue.run (Waiting.turn Desk.handler) (Waiting.finish Desk.handler)
            turns (waiting ++ [⟨job, turned.2.tx⟩])).run turned.2.world
        | .inr a =>
          let others := (Queue.run (Waiting.turn Desk.handler) (Waiting.finish Desk.handler)
            turns waiting).run turned.2.world
          (a :: others.1, others.2) := by
  have hturn : (Waiting.turn Desk.handler b).run world =
      let turned := (b.job.runTurn Desk.handler).run ⟨world, b.tx⟩
      (turned.1.map (⟨·, turned.2.tx⟩) id, turned.2.world) := by
    rw [StateT.run, Waiting.turn]
    obtain ⟨job | a, d⟩ := (b.job.runTurn Desk.handler).run ⟨world, b.tx⟩ <;> rfl
  rw [Queue.run, StateT.run_bind, hturn]
  obtain ⟨job | a, d⟩ := (b.job.runTurn Desk.handler).run ⟨world, b.tx⟩ <;> rfl

/-- Workers that take turns take their steps in one of the orders. -/
private theorem finishes_queue (turns : Nat) (hnodup : is.Nodup)
    (hwaiting : is.map (fun i => c.workers[i]?) = waiting.map some) :
    let ended := (Queue.run (Waiting.turn Desk.handler) (Waiting.finish Desk.handler) turns
      waiting).run c.world
    c.Finishes is ended.1 ended.2 := by
  induction turns generalizing c is waiting with
  | zero =>
    cases waiting with
    | nil => exact finishes_mapM hnodup hwaiting
    | cons b waiting => exact finishes_mapM hnodup hwaiting
  | succ turns ih =>
    cases waiting with
    | nil => exact finishes_mapM hnodup hwaiting
    | cons b waiting =>
      obtain ⟨i, is, rfl⟩ : ∃ i is', is = i :: is' := by
        cases is with
        | nil => cases hwaiting
        | cons i is => exact ⟨i, is, rfl⟩
      obtain ⟨hi, hnodup⟩ := List.nodup_cons.mp hnodup
      obtain ⟨hb, hwaiting⟩ := List.cons.inj hwaiting
      have hturn := reaches_turn hb
      rw [run_queue_cons]
      revert hturn
      generalize (b.job.runTurn Desk.handler).run (⟨c.world, b.tx⟩ : Desk MemoryStore ρ) = turned
      obtain ⟨job | a, d⟩ := turned <;> intro hturn
      · refine Finishes.requeue hturn (ih ?_ ?_)
        · exact List.nodup_append_comm.mp (List.nodup_cons.mpr ⟨hi, hnodup⟩)
        · rw [List.map_append, List.map_append, map_getElem?_left hi, hwaiting, List.map_singleton,
            getElem?_left hb]
          rfl
      · exact (ih hnodup ((map_getElem?_left hi _ _).trans hwaiting)).cons hb hi hturn

private theorem Finishes.ends {arrived : List (Option WorkerReport)} {world : World MemoryStore ρ}
    (h : c.Finishes (List.range c.workers.length) arrived world) :
    ∃ c', Relation.ReflTransGen Step c c' ∧ c'.world = world ∧ c'.Ends arrived := by
  obtain ⟨c', js, hsteps, hworld, -, hperm, harrived⟩ := h
  refine ⟨c', hsteps, hworld, ?_⟩
  have hjobs : (List.range c'.workers.length).map (fun j => c'.workers[j]?.map Waiting.job) =
      (c'.workers.map Waiting.job).map some := by
    apply List.ext_getElem
    · simp
    · intro j hj hj'
      have hj : j < c'.workers.length := by simpa using hj
      simp [hj]
  rw [← length_workers hsteps] at hperm
  have hmapped := hperm.map fun j => c'.workers[j]?.map Waiting.job
  rw [hjobs, harrived] at hmapped
  exact ((List.map_perm_map_iff fun _ _ => Option.some.inj).mp hmapped).symm

end Queue

omit [EventSource ρ] in
private theorem map_getElem?_workers (c : Crew ρ) :
    (List.range c.workers.length).map (fun i => c.workers[i]?) = c.workers.map some := by
  apply List.ext_getElem
  · simp
  · intro i hi hi'
    have hi : i < c.workers.length := by simpa using hi
    simp [hi]

theorem reaches_ends (c : Crew ρ) :
    ∃ c' arrived, Relation.ReflTransGen Step c c' ∧ c'.Ends arrived := by
  obtain ⟨c', hsteps, -, hends⟩ :=
    (finishes_mapM List.nodup_range c.map_getElem?_workers).ends
  exact ⟨c', _, hsteps, hends⟩

/-- What the indexer runs is one of the orders in which its workers may take their steps. It gives
the reports as they have arrived, in the order of the contracts, and leaves store and metrics as
they are at the end. -/
theorem reaches_run_metrics (world : World MemoryStore ρ) {config : Config}
    (hvalid : config.validate = .ok ()) (rounds : Nat) :
    let ran := (Indexer.run Desk.handler config rounds).run world
    ∃ c arrived, Relation.ReflTransGen Step (start world config rounds) c ∧ c.Ends arrived ∧
      ran.1 = .ok (Indexer.sortReports (arrived.filterMap id)) ∧
      ran.2.store = c.world.store ∧ ran.2.metrics = c.world.metrics := by
  obtain ⟨c, hsteps, hworld, hends⟩ := (finishes_queue turnLimit List.nodup_range
    (start world config rounds).map_getElem?_workers).ends
  refine ⟨c, _, hsteps, hends, ?_⟩
  have hstore := congrArg World.store hworld.symm
  have hmetrics := congrArg World.metrics hworld.symm
  rw [Indexer.run, hvalid]
  exact ⟨rfl, hstore, hmetrics⟩

theorem reaches_run (world : World MemoryStore ρ) {config : Config}
    (hvalid : config.validate = .ok ()) (rounds : Nat) :
    let ran := (Indexer.run Desk.handler config rounds).run world
    ∃ c arrived, Relation.ReflTransGen Step (start world config rounds) c ∧ c.Ends arrived ∧
      ran.1 = .ok (Indexer.sortReports (arrived.filterMap id)) ∧
      ran.2.store = c.world.store := by
  obtain ⟨c, arrived, hsteps, hends, hanswer, hstore, -⟩ :=
    reaches_run_metrics world hvalid rounds
  exact ⟨c, arrived, hsteps, hends, hanswer, hstore⟩

end Crew

end EventIndex
