import EventIndex.Proofs.Indexer.Guard
import Mathlib.Logic.Function.Basic

/-! # The indexer as a system

Calls of different contracts take their steps in any order, one call of a contract at a time. A call
may be given up at any point, and its surroundings may do anything but change committed data. -/

namespace EventIndex

variable {ρ : Type} [EventSource ρ]

/-! ## The desk of a call -/

/-- The desk shows the data and the transaction of the contract. These data have grown since they
were as in `store`; the data of all other contracts are as they are there. -/
private structure Shows (contract : ContractId) (store : MemoryStore) (d : Desk MemoryStore ρ)
    (s : Partition × Option WriteSet) : Prop where
  eq : s = (d.world.store.partition contract, d.tx)
  contract_eq : ∀ w : WriteSet, d.tx = some w → w.contract = contract
  growsTo : (store.partition contract).GrowsTo contract (d.world.store.partition contract)
  other_eq : ∀ other, other ≠ contract → d.world.store.partition other = store.partition other

private theorem handler_obeys (contract : ContractId) (store : MemoryStore) :
    (Desk.handler : Handler _ (StateM (Desk MemoryStore ρ))).Obeys (Effect.rule contract)
      (Shows contract store) where
  note _ _ _ h := ⟨h.eq, h.contract_eq, h.growsTo, h.other_eq⟩
  now _ _ h := ⟨h.eq, h.contract_eq, h.growsTo, h.other_eq⟩
  pause _ _ _ h := h
  answer := by
    rintro op Q ⟨world, tx⟩ _ ⟨rfl, hcontract, hgrows, hother⟩ hQ
    have hnone : ∀ w : WriteSet, (none : Option WriteSet) = some w → w.contract = contract := by
      simp
    cases op with
    | query | fetch => exact ⟨_, ⟨rfl, hcontract, hgrows, hother⟩, hQ _⟩
    | stopRequested => exact ⟨_, ⟨rfl, hcontract, hgrows, hother⟩, hQ _⟩
    | recordBatch | recordRetry => exact ⟨_, ⟨rfl, hcontract, hgrows, hother⟩, hQ⟩
    | start c =>
      obtain ⟨rfl, hQ⟩ := hQ
      refine ⟨_, ⟨rfl, ?_, hgrows, hother⟩, hQ⟩
      rintro w ⟨⟩
      rfl
    | request r =>
      cases tx with
      | none => exact ⟨_, ⟨rfl, hcontract, hgrows, hother⟩, hQ⟩
      | some w =>
        obtain rfl := hcontract w rfl
        refine ⟨_, ⟨rfl, ?_, hgrows, hother⟩, hQ⟩
        rintro w' ⟨⟩
        exact w.request_contract _ r
    | abandon => cases tx <;> exact ⟨_, ⟨rfl, hnone, hgrows, hother⟩, hQ⟩
    | commit =>
      cases tx with
      | none => exact ⟨_, ⟨rfl, hcontract, hgrows, hother⟩, hQ⟩
      | some w =>
        obtain rfl := hcontract w rfl
        obtain ⟨hmerged, hrefused, hcommitted⟩ := hQ
        obtain ⟨⟨partitions, failures⟩, source, metrics, stop, times, looks, journal⟩ := world
        cases failures with
        | succ n => exact ⟨_, ⟨rfl, hnone, hgrows, hother⟩, hrefused⟩
        | zero =>
          let merged := w.mergeInto (MemoryStore.partition ⟨partitions, 0⟩ w.contract)
          have hsame := MemoryStore.partition_insert_self ⟨partitions, 0⟩ w.contract merged 0
          refine ⟨(merged, none), ⟨Prod.ext hsame.symm rfl, hnone, ?_, ?_⟩, hcommitted⟩
          · exact hsame.symm ▸ hgrows.trans hmerged
          · intro c hc
            exact (MemoryStore.partition_insert_of_ne ⟨partitions, 0⟩ hc merged 0).trans
              (hother c hc)

/-! ## Steps of the system -/

inductive Job.IsCall (contract : ContractId) : Job (Except IndexerError BatchReport) → Prop
  | process (policy : RetryPolicy) (es : List RawEvent) :
    IsCall contract (process policy contract es)
  | rebuild (policy : RetryPolicy) : IsCall contract (rebuild policy contract)

/-- What is left of a call, and its open transaction. -/
abbrev Running := Waiting MemoryStore (Except IndexerError BatchReport)

/-- The shared state, and the calls in progress. -/
structure System (ρ : Type) where
  world : World MemoryStore ρ
  calls : ContractId → Option Running

namespace System

abbrev data (s : System ρ) (contract : ContractId) : Partition :=
  s.world.store.partition contract

/-- The call of a contract takes its next step. -/
def work (s : System ρ) (contract : ContractId) (b : Running) : System ρ :=
  let next := (b.job.step Desk.handler).run ⟨s.world, b.tx⟩
  ⟨next.2.world, Function.update s.calls contract (some ⟨next.1, next.2.tx⟩)⟩

/-- The call of a contract takes so many steps, if there is one. -/
def proceed (s : System ρ) (contract : ContractId) : Nat → System ρ
  | 0 => s
  | n + 1 =>
    match s.calls contract with
    | none => s
    | some b => (s.work contract b).proceed contract n

/-- A call is made and takes all of its steps. -/
def finish (s : System ρ) (contract : ContractId) (job : Job (Except IndexerError BatchReport)) :
    System ρ :=
  let ended := (job.run Desk.handler).run ⟨s.world, none⟩
  ⟨ended.2.world, Function.update s.calls contract (some ⟨.done ended.1, ended.2.tx⟩)⟩

theorem calls_finish (s : System ρ) (contract : ContractId)
    (job : Job (Except IndexerError BatchReport)) :
    ∃ tx, (s.finish contract job).calls contract = some ⟨.done (s.world.perform job).1, tx⟩ :=
  ⟨_, Function.update_self _ _ _⟩

inductive Step : System ρ → System ρ → Prop
  | call {s : System ρ} {contract : ContractId} {job : Job (Except IndexerError BatchReport)}
    (hidle : s.calls contract = none) (hjob : job.IsCall contract) :
    Step s { s with calls := Function.update s.calls contract (some ⟨job, none⟩) }
  | work {s : System ρ} {contract : ContractId} {b : Running} (hcall : s.calls contract = some b) :
    Step s (s.work contract b)
  /-- A call has returned, or is given up together with its transaction. -/
  | leave (s : System ρ) (contract : ContractId) :
    Step s { s with calls := Function.update s.calls contract none }
  /-- The clock moves, commits are made to fail, and so on. -/
  | surroundings {s : System ρ} {world : World MemoryStore ρ}
    (hstore : world.store.partitions = s.world.store.partitions) : Step s { s with world := world }

/-- The states that are reached from an empty store. -/
inductive Reachable : System ρ → Prop
  | start {world : World MemoryStore ρ} (hstore : world.store.partitions = ∅) :
    Reachable ⟨world, fun _ => none⟩
  | step {s s' : System ρ} (h : Reachable s) (hstep : Step s s') : Reachable s'

theorem Reachable.proceed {s : System ρ} (h : s.Reachable) (contract : ContractId) (n : Nat) :
    (s.proceed contract n).Reachable := by
  induction n generalizing s with
  | zero => exact h
  | succ n ih =>
    rw [System.proceed]
    split
    · exact h
    · rename_i hcall
      exact ih (h.step (.work hcall))

/-- The states in which a call is in progress that was made with `job`. -/
inductive InProgress (contract : ContractId) (job : Job (Except IndexerError BatchReport)) :
    System ρ → Prop
  | call {s : System ρ} (h : s.Reachable) (hidle : s.calls contract = none)
    (hjob : job.IsCall contract) : InProgress contract job
      { s with calls := Function.update s.calls contract (some ⟨job, none⟩) }
  | step {s s' : System ρ} (h : InProgress contract job s) (hstep : Step s s')
    (hcall : (s'.calls contract).isSome) : InProgress contract job s'

namespace InProgress

variable {contract : ContractId} {job : Job (Except IndexerError BatchReport)} {s : System ρ}

theorem reachable (h : InProgress contract job s) : s.Reachable := by
  induction h with
  | call h hidle hjob => exact h.step (.call hidle hjob)
  | step h hstep hcall ih => exact ih.step hstep

theorem isSome (h : InProgress contract job s) : (s.calls contract).isSome := by
  cases h with
  | call h hidle hjob => simp
  | step h hstep hcall => exact hcall

theorem isCall (h : InProgress contract job s) : job.IsCall contract := by
  induction h with
  | call h hidle hjob => exact hjob
  | step h hstep hcall ih => exact ih

private theorem work {calls : ContractId → Option Running}
    {rest : Job (Except IndexerError BatchReport)} {d : Desk MemoryStore ρ}
    (h : InProgress contract job
      ⟨d.world, Function.update calls contract (some ⟨rest, d.tx⟩)⟩) :
    let next := (rest.step Desk.handler).run d
    InProgress contract job
      ⟨next.2.world, Function.update calls contract (some ⟨next.1, next.2.tx⟩)⟩ := by
  have hwork := h.step (.work (Function.update_self contract (some ⟨rest, d.tx⟩) calls))
  rw [System.work, Function.update_idem] at hwork
  exact hwork (by simp)

theorem run {α : Type} {calls : ContractId → Option Running} (part : Job α)
    {next : α → Job (Except IndexerError BatchReport)} {d : Desk MemoryStore ρ}
    (h : InProgress contract job
      ⟨d.world, Function.update calls contract (some ⟨part >>= next, d.tx⟩)⟩) :
    let end_ := (part.run Desk.handler).run d
    InProgress contract job
      ⟨end_.2.world, Function.update calls contract (some ⟨next end_.1, end_.2.tx⟩)⟩ := by
  induction part generalizing d with
  | done a => exact h
  | note line part ih | pause ms part ih => exact ih h.work
  | now part ih | call op part ih => exact ih _ h.work

theorem finish (h : s.Reachable) (hidle : s.calls contract = none) (hjob : job.IsCall contract) :
    InProgress contract job (s.finish contract job) := by
  have hstart : InProgress contract job
      ⟨s.world, Function.update s.calls contract (some ⟨job >>= pure, none⟩)⟩ := by
    rw [bind_pure]
    exact .call h hidle hjob
  exact run job (d := ⟨s.world, none⟩) hstart

end InProgress

theorem Reachable.exists_inProgress {s : System ρ} (h : s.Reachable) {contract : ContractId}
    {b : Running} (hcall : s.calls contract = some b) : ∃ job, InProgress contract job s := by
  induction h generalizing b with
  | start hstore => cases hcall
  | @step s s' h hstep ih =>
    cases hbefore : s.calls contract with
    | some before =>
      obtain ⟨job, hjob⟩ := ih hbefore
      exact ⟨job, hjob.step hstep (by simp [hcall])⟩
    | none =>
      -- Without a call before it, the step is that the call is made.
      cases hstep with
      | @call other job hidle hjob =>
        by_cases hc : contract = other
        · subst hc
          exact ⟨job, .call h hidle hjob⟩
        · simp [Function.update_of_ne hc, hbefore] at hcall
      | @work other before hother =>
        have hc : contract ≠ other := by
          rintro rfl
          cases hbefore.symm.trans hother
        simp [System.work, Function.update_of_ne hc, hbefore] at hcall
      | leave other =>
        by_cases hc : contract = other
        · simp [hc] at hcall
        · simp [Function.update_of_ne hc, hbefore] at hcall
      | surroundings hstore => cases hbefore.symm.trans hcall

theorem Reachable.perform {s : System ρ} (h : s.Reachable) {contract : ContractId}
    {job : Job (Except IndexerError BatchReport)} (hidle : s.calls contract = none)
    (hjob : job.IsCall contract) : Reachable ⟨(s.world.perform job).2, s.calls⟩ := by
  have hleave := (InProgress.finish h hidle hjob).reachable.step (.leave _ contract)
  have hcalls : Function.update s.calls contract none = s.calls := by
    rw [← hidle, Function.update_eq_self]
  rwa [System.finish, Function.update_idem, hcalls] at hleave

/-! ## What every state keeps -/

/-- The data of a contract are derived, and its call, if there is one, leaves them so and gives an
answer of which `Q` holds. -/
private structure Sound (contract : ContractId) (Q : Except IndexerError BatchReport → Prop)
    (s : System ρ) : Prop where
  derived : (s.data contract).Derived contract
  contract_eq : ∀ (b : Running) (w : WriteSet), s.calls contract = some b → b.tx = some w →
    w.contract = contract
  along_job : ∀ b : Running, s.calls contract = some b →
    b.job.along (Effect.rule contract) Job.freshness
      (fun a t => t.1.Derived contract ∧ Q a) (s.data contract, b.tx)

namespace Sound

variable {contract : ContractId} {Q : Except IndexerError BatchReport → Prop}

section

variable {ρ : Type} {s s' : System ρ}

private theorem idle (h : (s.data contract).Derived contract) (hidle : s.calls contract = none) :
    Sound contract Q s :=
  ⟨h, by simp [hidle], by simp [hidle]⟩

private theorem of_call {b : Running} (hcall : s.calls contract = some b)
    (h : (s.data contract).Derived contract)
    (hcontract : ∀ w : WriteSet, b.tx = some w → w.contract = contract)
    (hjob : b.job.along (Effect.rule contract) Job.freshness
      (fun a t => t.1.Derived contract ∧ Q a) (s.data contract, b.tx)) : Sound contract Q s := by
  refine ⟨h, ?_, ?_⟩
  · intro b' w hb'
    obtain rfl : b = b' := Option.some.inj (hcall.symm.trans hb')
    exact hcontract w
  · intro b' hb'
    obtain rfl : b = b' := Option.some.inj (hcall.symm.trans hb')
    exact hjob

private theorem call (h : (s.data contract).Derived contract)
    {job : Job (Except IndexerError BatchReport)} (hjob : job.Gives contract Q)
    (hcall : s.calls contract = some ⟨job, none⟩) : Sound contract Q s :=
  of_call hcall h (by simp) (hjob _ _ h)

private theorem congr (h : Sound contract Q s) (hdata : s'.data contract = s.data contract)
    (hcalls : s'.calls contract = s.calls contract) : Sound contract Q s' := by
  obtain ⟨hderived, hcontract, hjob⟩ := h
  refine ⟨?_, ?_, ?_⟩
  · rwa [hdata]
  · rwa [hcalls]
  · rwa [hcalls, hdata]

end

/-- A call that takes a step stays sound. Its data may grow, and other data are left alone. -/
private theorem work {s : System ρ} (h : Sound contract Q s) {b : Running}
    (hcall : s.calls contract = some b) :
    Sound contract Q (s.work contract b) ∧
      (s.data contract).GrowsTo contract ((s.work contract b).data contract) ∧
      ∀ other, other ≠ contract → (s.work contract b).data other = s.data other := by
  have hshows : Shows contract s.world.store ⟨s.world, b.tx⟩ (s.data contract, b.tx) :=
    ⟨rfl, fun w hw => h.contract_eq b w hcall hw, .refl h.derived, fun _ _ => rfl⟩
  obtain ⟨_, ⟨rfl, hcontract, hgrows, hother⟩, hjob⟩ :=
    Program.step_of_along (handler_obeys contract s.world.store) b.job hshows (h.along_job b hcall)
  exact ⟨of_call (Function.update_self _ _ _) hgrows.derived hcontract hjob, hgrows, hother⟩

end Sound

private theorem gives_true {contract : ContractId} {job : Job (Except IndexerError BatchReport)}
    (h : job.IsCall contract) : job.Gives contract fun _ => True := by
  cases h with
  | process policy es => exact (Job.gives_process policy contract es).mono fun _ _ => trivial
  | rebuild policy => exact (Job.gives_rebuild policy contract).mono fun _ _ => trivial

private theorem Reachable.sound {s : System ρ} (h : s.Reachable) (contract : ContractId) :
    Sound contract (fun _ => True) s := by
  induction h generalizing contract with
  | @start world hstore =>
    have hempty : world.store.partition contract = ∅ := by simp [MemoryStore.partition, hstore]
    refine .idle ⟨[], ?_⟩ rfl
    simpa only [data, hempty] using Partition.Holds.empty contract
  | @step s _ h hstep ih =>
    cases hstep with
    | @call other job hidle hjob =>
      by_cases hc : contract = other
      · subst hc
        exact .call (ih contract).derived (gives_true hjob) (Function.update_self _ _ _)
      · exact (ih contract).congr rfl (Function.update_of_ne hc _ _)
    | @work other b hcall =>
      by_cases hc : contract = other
      · subst hc
        exact ((ih contract).work hcall).1
      · exact (ih contract).congr (((ih other).work hcall).2.2 contract hc)
          (Function.update_of_ne hc _ _)
    | leave other =>
      by_cases hc : contract = other
      · subst hc
        exact .idle (ih contract).derived (Function.update_self _ _ _)
      · exact (ih contract).congr rfl (Function.update_of_ne hc _ _)
    | @surroundings world hstore =>
      exact (ih contract).congr (by simp only [data, MemoryStore.partition, hstore]) rfl

namespace Reachable

variable {s s' : System ρ} {contract : ContractId}

theorem derived (h : s.Reachable) (contract : ContractId) :
    (s.world.store.partition contract).Derived contract :=
  (h.sound contract).derived

theorem freshness (h : s.Reachable) {b : Running} (hcall : s.calls contract = some b)
    (hjob : ∀ a, b.job ≠ .done a) : Job.freshness.Holds b.job (s.data contract, b.tx) :=
  Program.holds_of_along ((h.sound contract).along_job b hcall) hjob

theorem growsTo_of_step (h : s.Reachable) (hstep : Step s s') (contract : ContractId) :
    (s.data contract).GrowsTo contract (s'.data contract) := by
  have hrefl := Partition.GrowsTo.refl (h.derived contract)
  cases hstep with
  | call hidle hjob => exact hrefl
  | @work other b hcall =>
    obtain ⟨-, hgrows, hother⟩ := (h.sound other).work hcall
    by_cases hc : contract = other
    · exact hc ▸ hgrows
    · rwa [hother contract hc]
  | leave other => exact hrefl
  | @surroundings world hstore =>
    have hdata : data { s with world := world } contract = s.data contract := by
      simp only [data, MemoryStore.partition, hstore]
    rwa [hdata]

theorem growsTo (h : s.Reachable) (hsteps : Relation.ReflTransGen Step s s')
    (contract : ContractId) : (s.data contract).GrowsTo contract (s'.data contract) := by
  have hboth : s'.Reachable ∧ (s.data contract).GrowsTo contract (s'.data contract) := by
    induction hsteps with
    | refl => exact ⟨h, .refl (h.derived contract)⟩
    | tail _ hstep ih => exact ⟨ih.1.step hstep, ih.2.trans (ih.1.growsTo_of_step hstep contract)⟩
  exact hboth.2

end Reachable

namespace InProgress

variable {contract : ContractId} {job : Job (Except IndexerError BatchReport)} {s : System ρ}
  {Q : Except IndexerError BatchReport → Prop}

private theorem sound (h : InProgress contract job s) (hjob : job.Gives contract Q) :
    Sound contract Q s := by
  induction h with
  | call h hidle _ => exact .call (h.derived contract) hjob (Function.update_self _ _ _)
  | @step s _ h hstep hcall ih =>
    cases hstep with
    | @call other _ hidle _ =>
      have hc : contract ≠ other := by
        rintro rfl
        have hsome := h.isSome
        simp [hidle] at hsome
      exact ih.congr rfl (Function.update_of_ne hc _ _)
    | @work other b hwork =>
      by_cases hc : contract = other
      · subst hc
        exact (ih.work hwork).1
      · exact ih.congr (((h.reachable.sound other).work hwork).2.2 contract hc)
          (Function.update_of_ne hc _ _)
    | leave other =>
      have hc : contract ≠ other := by
        rintro rfl
        simp at hcall
      exact ih.congr rfl (Function.update_of_ne hc _ _)
    | @surroundings world hstore =>
      exact ih.congr (by simp only [data, MemoryStore.partition, hstore]) rfl

theorem answer (h : InProgress contract job s) (hjob : job.Gives contract Q)
    {r : Except IndexerError BatchReport} {tx : Option WriteSet}
    (hcall : s.calls contract = some ⟨.done r, tx⟩) : Q r :=
  ((h.sound hjob).along_job _ hcall).2

end InProgress

end System

end EventIndex
