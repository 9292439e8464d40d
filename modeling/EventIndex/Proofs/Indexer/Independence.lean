import EventIndex.Proofs.Indexer.Crew
import EventIndex.Proofs.Worker.Drain

/-! # Workers do not interfere

The workers of an indexer share the store, the source and the metrics. Each of them still comes to
what it would come to alone, in whatever order they take their steps, because no two of them work on
the same contract. -/

namespace EventIndex

open Program

/-! ## Valid configurations -/

theorem firstRepeat?_eq_none_iff {α : Type} [DecidableEq α] (seen as : List α) :
    firstRepeat? seen as = none ↔ as.Nodup ∧ ∀ a ∈ as, a ∉ seen := by
  induction as generalizing seen with
  | nil => simp [firstRepeat?]
  | cons a as ih =>
    rw [firstRepeat?]
    by_cases ha : a ∈ seen
    · simp [ha]
    · rw [if_neg ha, ih, List.nodup_cons, List.forall_mem_cons]
      constructor
      · rintro ⟨hnodup, hnext⟩
        exact ⟨⟨fun hmem => hnext a hmem List.mem_cons_self, hnodup⟩, ha,
          fun b hb hseen => hnext b hb (List.mem_cons_of_mem a hseen)⟩
      · rintro ⟨⟨hmem, hnodup⟩, -, hseen⟩
        refine ⟨hnodup, fun b hb hnext => ?_⟩
        rcases List.mem_cons.mp hnext with rfl | hb'
        · exact hmem hb
        · exact hseen b hb hb'

namespace Config

variable {c : Config}

theorem validate_eq_ok_iff :
    c.validate = .ok () ↔ (c.contracts.isEmpty && c.eventsFile.isNone) = false ∧
      c.contracts.Nodup ∧ c.batchSize ≠ 0 ∧ c.pollInterval ≠ 0 ∧ ¬ c.multiplier < 1 ∧
      ¬ c.maxBackoff < c.initialBackoff ∧ c.maxConnections ≠ 0 := by
  have hrepeat : firstRepeat? [] c.contracts = none ↔ c.contracts.Nodup := by
    simp [firstRepeat?_eq_none_iff]
  have hfault : c.validate = .ok () ↔ c.fault? = none := by
    rw [validate]
    cases c.fault? <;> simp
  rw [hfault, ← hrepeat, fault?]
  cases firstRepeat? [] c.contracts with
  | some contract => split <;> simp
  | none => simp [ite_eq_iff, Option.isSome_iff_ne_none]

theorem nodup_contractIds (h : c.validate = .ok ()) : c.contractIds.Nodup := by
  obtain ⟨-, hnodup, -⟩ := validate_eq_ok_iff.mp h
  exact hnodup.map fun _ _ => ContractId.mk.inj

theorem validate_alone (h : c.validate = .ok ()) (contract : ContractId) :
    ({ c with contracts := [contract.address] } : Config).validate = .ok () := by
  obtain ⟨-, -, hothers⟩ := validate_eq_ok_iff.mp h
  exact validate_eq_ok_iff.mpr ⟨rfl, by simp, hothers⟩

end Config

/-! ## Sorted reports -/

namespace Indexer

theorem pairwise_sortReports {reports : List WorkerReport}
    (h : (reports.map WorkerReport.contract).Nodup) :
    (sortReports reports).Pairwise fun a b => compare a.contract b.contract = .lt := by
  have hsorted : (sortReports reports).Pairwise fun a b =>
      (compare a.contract b.contract).isLE = true := by
    apply List.pairwise_mergeSort
    · exact fun a b c => Std.TransCmp.isLE_trans
    · intro a b
      have hswap : compare b.contract a.contract = (compare a.contract b.contract).swap :=
        Std.OrientedCmp.eq_swap
      rw [hswap]
      cases compare a.contract b.contract <;> rfl
  have hnodup : ((sortReports reports).map WorkerReport.contract).Nodup :=
    ((List.mergeSort_perm reports _).map WorkerReport.contract).nodup_iff.mpr h
  refine hsorted.imp₂ ?_ (List.pairwise_map.mp hnodup)
  intro a b hle hne
  cases horder : compare a.contract b.contract with
  | lt => rfl
  | eq => exact absurd (Std.LawfulEqOrd.eq_of_compare horder) hne
  | gt =>
    rw [horder] at hle
    cases hle

end Indexer

/-! ## Workers on their course -/

namespace Crew

def openContracts {ρ : Type} (c : Crew ρ) : List ContractId :=
  (c.workers.filterMap Waiting.tx).map WriteSet.contract

variable (s : MemorySource) (config : Config) (rounds : Nat) (w : World MemoryStore MemorySource)

/-- What the worker of a contract comes to alone. -/
private def goal (contract : ContractId) : WorkerReport × Partition :=
  s.outcome contract config rounds (w.store.partition contract)

/-- The worker asks for nothing beside its contract, and comes to what it comes to alone. -/
private structure OnCourse (c : Crew MemorySource) (contract : ContractId)
    (b : Waiting MemoryStore (Option WorkerReport)) : Prop where
  contract_eq : ∀ tx : WriteSet, b.tx = some tx → tx.contract = contract
  wp_job : ∃ o, b.job.wp (Effect.watched contract (.calm s contract))
    (fun r v => r = some (goal s config rounds w contract).1 ∧
      v.data.undated = (goal s config rounds w contract).2)
    ⟨c.world.store.partition contract, b.tx, o⟩

/-- Every worker is on its course, and what is stored for other contracts is as it was. -/
private structure Sound (c : Crew MemorySource) : Prop where
  calm : c.world.Calm s
  length_eq : c.workers.length = config.contractIds.length
  onCourse : ∀ {i : Nat} {contract : ContractId} {b : Waiting MemoryStore (Option WorkerReport)},
    config.contractIds[i]? = some contract → c.workers[i]? = some b →
      OnCourse s config rounds w c contract b
  other_eq : ∀ contract, contract ∉ config.contractIds →
    c.world.store.partitions[contract]? = w.store.partitions[contract]?

variable {s : MemorySource} {config : Config} {rounds : Nat} {w : World MemoryStore MemorySource}
  {c c' : Crew MemorySource}

private theorem OnCourse.congr {contract : ContractId}
    {b : Waiting MemoryStore (Option WorkerReport)} (h : OnCourse s config rounds w c contract b)
    (hdata : c'.world.store.partitions[contract]? = c.world.store.partitions[contract]?) :
    OnCourse s config rounds w c' contract b := by
  obtain ⟨htx, hwp⟩ := h
  refine ⟨htx, ?_⟩
  rwa [MemoryStore.partition_eq_of_getElem? hdata]

private theorem sound_start {es : List RawEvent} (hs : s = .ofEvents es) (hw : w.Calm s)
    (hsize : config.batchSize ≠ 0) (hcaughtUp : config.stopWhenCaughtUp)
    (hrounds : es.length < rounds) : Sound s config rounds w (start w config rounds) where
  calm := hw
  length_eq := List.length_map ..
  onCourse := by
    intro i contract b hcontract hworker
    obtain rfl : ⟨Worker.run config contract rounds, none⟩ = b := by
      simpa [start, hcontract] using hworker
    refine ⟨by simp, .nothing, ?_⟩
    refine Worker.wp_run_outcome hs hsize hcaughtUp contract _ ?_
    calc (s.select contract (w.store.partition contract).position?).length
        ≤ (s.eventsOf contract).length := s.length_select_le contract _
      _ = (es.filter (·.contract = contract)).length := by
        rw [hs, MemorySource.eventsOf_ofEvents]
      _ ≤ es.length := List.length_filter_le ..
      _ < rounds := hrounds
  other_eq _ _ := rfl

private theorem Sound.step (hnodup : config.contractIds.Nodup) (h : Sound s config rounds w c)
    (hstep : Step c c') : Sound s config rounds w c' := by
  obtain @⟨i, b, hworker⟩ := hstep
  have hi : i < c.workers.length := (List.getElem?_eq_some_iff.mp hworker).1
  obtain ⟨contract, hcontract⟩ : ∃ contract, config.contractIds[i]? = some contract :=
    ⟨_, List.getElem?_eq_getElem (h.length_eq ▸ hi)⟩
  obtain ⟨htx, o, hwp⟩ := h.onCourse hcontract hworker
  have hobeys := handler_obeys_watched (Surroundings.describe_calm s contract) c.world.store
  have hshows : Desk.Shows contract c.world.store (World.Calm s) ⟨c.world, b.tx⟩
      ⟨c.world.store.partition contract, b.tx, o⟩ :=
    ⟨rfl, rfl, htx, h.calm, fun _ _ => rfl⟩
  obtain ⟨⟨data, tx, o'⟩, ⟨rfl, rfl, htx', hcalm, hother⟩, hwp'⟩ :=
    Program.step_of_wp hobeys b.job hshows hwp
  refine ⟨hcalm, (List.length_set ..).trans h.length_eq, ?_, ?_⟩
  · intro j contract' b' hcontract' hworker'
    by_cases hji : j = i
    · subst hji
      obtain rfl : contract = contract' := Option.some.inj (hcontract.symm.trans hcontract')
      rw [work, List.getElem?_set_self hi] at hworker'
      obtain rfl := Option.some.inj hworker'
      exact ⟨htx', o', hwp'⟩
    · rw [work, List.getElem?_set_ne (Ne.symm hji)] at hworker'
      have hne : contract' ≠ contract := by
        rintro rfl
        exact hji ((List.getElem?_inj (List.getElem?_eq_some_iff.mp hcontract').1 hnodup).mp
          (hcontract'.trans hcontract.symm))
      exact (h.onCourse hcontract' hworker').congr (hother contract' hne)
  · intro contract' hcontract'
    have hne : contract' ≠ contract := by
      rintro rfl
      exact hcontract' (List.mem_of_getElem? hcontract)
    exact (hother contract' hne).trans (h.other_eq contract' hcontract')

private theorem Sound.steps (hnodup : config.contractIds.Nodup) (h : Sound s config rounds w c)
    (hsteps : Relation.ReflTransGen Step c c') : Sound s config rounds w c' := by
  induction hsteps with
  | refl => exact h
  | tail _ hstep ih => exact ih.step hnodup hstep

private theorem Sound.nodup_openContracts (hnodup : config.contractIds.Nodup)
    (h : Sound s config rounds w c) : c.openContracts.Nodup := by
  rw [openContracts, List.Nodup, List.pairwise_map, List.pairwise_filterMap,
    List.pairwise_iff_getElem]
  intro i j hi hj hij tx htx tx' htx'
  have hi' : i < config.contractIds.length := h.length_eq ▸ hi
  have hj' : j < config.contractIds.length := h.length_eq ▸ hj
  obtain ⟨hcontract, -⟩ := h.onCourse (List.getElem?_eq_getElem hi') (List.getElem?_eq_getElem hi)
  obtain ⟨hcontract', -⟩ := h.onCourse (List.getElem?_eq_getElem hj') (List.getElem?_eq_getElem hj)
  rw [hcontract tx htx, hcontract' tx' htx']
  exact fun h => hij.ne ((hnodup.getElem_inj_iff).mp h)

private theorem Sound.ended (h : Sound s config rounds w c) {arrived : List (Option WorkerReport)}
    (hends : c.Ends arrived) {i : Nat} {contract : ContractId}
    {b : Waiting MemoryStore (Option WorkerReport)}
    (hcontract : config.contractIds[i]? = some contract) (hworker : c.workers[i]? = some b) :
    b.job = .done (some (goal s config rounds w contract).1) ∧
      (c.world.store.partition contract).undated = (goal s config rounds w contract).2 := by
  obtain ⟨-, o, hwp⟩ := h.onCourse hcontract hworker
  have hmem : b.job ∈ arrived.map .done :=
    hends.subset (List.mem_map_of_mem (List.mem_of_getElem? hworker))
  obtain ⟨a, -, ha⟩ := List.mem_map.mp hmem
  rw [← ha] at hwp ⊢
  exact ⟨congrArg _ hwp.1, hwp.2⟩

private theorem Sound.perm (h : Sound s config rounds w c) {arrived : List (Option WorkerReport)}
    (hends : c.Ends arrived) :
    (arrived.filterMap id).Perm
      (config.contractIds.map fun contract => (goal s config rounds w contract).1) := by
  have hjobs : c.workers.map Waiting.job = (config.contractIds.map fun contract =>
      some (goal s config rounds w contract).1).map .done := by
    apply List.ext_getElem
    · simp [h.length_eq]
    · intro i hi hi'
      have hi : i < c.workers.length := by simpa using hi
      have hi' : i < config.contractIds.length := by simpa using hi'
      simpa using
        (h.ended hends (List.getElem?_eq_getElem hi') (List.getElem?_eq_getElem hi)).1
  rw [Ends, hjobs, List.map_perm_map_iff fun _ _ => Program.done.inj] at hends
  simpa [List.filterMap_map, Function.comp_def] using (hends.filterMap id).symm

/-- An indexer of one contract comes to what the worker of this contract comes to. -/
private theorem run_alone {es : List RawEvent} (hs : s = .ofEvents es) (hw : w.Calm s)
    (hvalid : config.validate = .ok ()) (hcaughtUp : config.stopWhenCaughtUp)
    (hrounds : es.length < rounds) (contract : ContractId) :
    let single : Config := { config with contracts := [contract.address] }
    let ran := (Indexer.run Desk.handler single rounds).run w
    ran.1 = .ok [(goal s config rounds w contract).1] ∧
      (ran.2.store.partition contract).undated = (goal s config rounds w contract).2 := by
  intro single ran
  have hvalid' : single.validate = .ok () := Config.validate_alone hvalid contract
  obtain ⟨-, -, hsize, -⟩ := Config.validate_eq_ok_iff.mp hvalid
  obtain ⟨c, arrived, hsteps, hends, hanswer, hstore⟩ := reaches_run w hvalid' rounds
  have hstart : Sound s single rounds w (start w single rounds) :=
    sound_start hs hw hsize hcaughtUp hrounds
  have hsound := hstart.steps (Config.nodup_contractIds hvalid') hsteps
  have hreports : arrived.filterMap id = [(goal s config rounds w contract).1] :=
    List.perm_singleton.mp (hsound.perm hends)
  have hworker : 0 < c.workers.length := hsound.length_eq ▸ Nat.one_pos
  obtain ⟨-, hdata⟩ := hsound.ended hends rfl (List.getElem?_eq_getElem hworker)
  refine ⟨?_, ?_⟩
  · rw [hanswer, hreports, Indexer.sortReports, List.mergeSort_singleton]
  · rw [hstore]
    exact hdata

/-- The workers of a valid configuration do not interfere, in whatever order they take their steps.
No two of their transactions that are open at a time are for one contract, nothing that is stored
for other contracts changes, and they may come to their ends. Then there is one report for each
contract, in the order of the contracts. It is that of an indexer of this contract alone, and so
are, but for dates, the data of the contract. -/
theorem independent {es : List RawEvent} (hsource : w.source = .ofEvents es)
    (hstop : w.stop = false) (hcommit : w.store.commitFailures = 0)
    (hvalid : config.validate = .ok ()) (hcaughtUp : config.stopWhenCaughtUp)
    (hrounds : es.length < rounds) :
    let single (contract : ContractId) : Config := { config with contracts := [contract.address] }
    let alone (contract : ContractId) :=
      (Indexer.run Desk.handler (single contract) rounds).run w
    let ran := (Indexer.run Desk.handler config rounds).run w
    (∀ c, Relation.ReflTransGen Step (start w config rounds) c →
      c.openContracts.Nodup ∧
      (∀ contract, contract ∉ config.contractIds →
        c.world.store.partitions[contract]? = w.store.partitions[contract]?) ∧
      (∃ c' arrived, Relation.ReflTransGen Step c c' ∧ c'.Ends arrived) ∧
      ∀ arrived, c.Ends arrived →
        let reports := Indexer.sortReports (arrived.filterMap id)
        (reports.map WorkerReport.contract).Perm config.contractIds ∧
        reports.Pairwise (fun a b => compare a.contract b.contract = .lt) ∧
        (∀ report ∈ reports, (alone report.contract).1 = .ok [report]) ∧
        ∀ contract ∈ config.contractIds, (c.world.store.partition contract).undated =
          ((alone contract).2.store.partition contract).undated) ∧
    ∃ c arrived, Relation.ReflTransGen Step (start w config rounds) c ∧ c.Ends arrived ∧
      ran.1 = .ok (Indexer.sortReports (arrived.filterMap id)) ∧
      ran.2.store = c.world.store := by
  intro single alone ran
  have hw : w.Calm (.ofEvents es) := ⟨hsource, hstop, hcommit⟩
  have halone := run_alone rfl hw hvalid hcaughtUp hrounds
  have hnodup := Config.nodup_contractIds hvalid
  obtain ⟨-, -, hsize, -⟩ := Config.validate_eq_ok_iff.mp hvalid
  refine ⟨?_, reaches_run w hvalid rounds⟩
  intro c hsteps
  have hsound := (sound_start rfl hw hsize hcaughtUp hrounds).steps hnodup hsteps
  refine ⟨hsound.nodup_openContracts hnodup, hsound.other_eq, c.reaches_ends, ?_⟩
  intro arrived hends reports
  have harrived : ((arrived.filterMap id).map WorkerReport.contract).Perm config.contractIds := by
    simpa [Function.comp_def, goal, MemorySource.outcome] using
      (hsound.perm hends).map WorkerReport.contract
  have hsorted : reports.Perm (arrived.filterMap id) := List.mergeSort_perm ..
  refine ⟨(hsorted.map _).trans harrived,
    Indexer.pairwise_sortReports (harrived.nodup_iff.mpr hnodup), ?_, ?_⟩
  · intro report hreport
    obtain ⟨contract, -, rfl⟩ :=
      List.mem_map.mp ((hsorted.trans (hsound.perm hends)).subset hreport)
    exact (halone contract).1
  · intro contract hcontract
    obtain ⟨i, hi, rfl⟩ := List.getElem_of_mem hcontract
    have hworker : i < c.workers.length := hsound.length_eq ▸ hi
    exact (hsound.ended hends (List.getElem?_eq_getElem hi)
      (List.getElem?_eq_getElem hworker)).2.trans (halone _).2.symm

/-- The source has events of two configured contracts and of another one. -/
theorem independent_of_two_contracts :
    let config : Config :=
      { Config.default with contracts := ["D", "C"], stopWhenCaughtUp := true }
    let event (address : String) (ledger : UInt32) : RawEvent :=
      ⟨⟨address⟩, "NOTE", .null, ledger, .epoch, .replicate 0, 0⟩
    let source : MemorySource :=
      .ofEvents [event "D" 1, event "C" 1, event "E" 1, event "C" 2]
    let world : World MemoryStore MemorySource := .start .empty source
    let alone (address : String) :=
      (Indexer.run Desk.handler { config with contracts := [address] } 5).run world
    let ran := (Indexer.run Desk.handler config 5).run world
    config.validate = .ok () ∧
      ∃ first second : WorkerReport, ran.1 = .ok [first, second] ∧
        (alone "C").1 = .ok [first] ∧ (alone "D").1 = .ok [second] ∧
        ran.2.store.partitions[(⟨"E"⟩ : ContractId)]? = none := by
  intro config event source world alone ran
  have hvalid : config.validate = .ok () := by
    subst config
    rfl
  obtain ⟨hall, c, arrived, hsteps, hends, hanswer, hstore⟩ :=
    independent (w := world) rfl rfl rfl hvalid rfl (by decide : 4 < 5)
  obtain ⟨-, hother, -, hend⟩ := hall c hsteps
  obtain ⟨hcontracts, hsorted, hreports, -⟩ := hend arrived hends
  rw [show ran.1 = _ from hanswer, show ran.2.store = _ from hstore]
  generalize Indexer.sortReports (arrived.filterMap id) = reports at *
  have hperm : (reports.map WorkerReport.contract).Perm [⟨"D"⟩, ⟨"C"⟩] := hcontracts
  obtain ⟨first, second, rfl⟩ : ∃ first second, reports = [first, second] :=
    List.length_eq_two.mp (by simpa using hperm.length_eq)
  have hfirst : first.contract = ⟨"D"⟩ ∨ first.contract = ⟨"C"⟩ := by
    simpa using hperm.subset List.mem_cons_self
  have hsecond : second.contract = ⟨"D"⟩ ∨ second.contract = ⟨"C"⟩ := by
    simpa using hperm.subset (List.mem_cons_of_mem _ List.mem_cons_self)
  have horder := List.rel_of_pairwise_cons hsorted List.mem_cons_self
  obtain ⟨hfirst, hsecond⟩ : first.contract = ⟨"C"⟩ ∧ second.contract = ⟨"D"⟩ := by
    rcases hfirst with hfirst | hfirst <;> rcases hsecond with hsecond | hsecond <;>
      rw [hfirst, hsecond] at horder ⊢ <;> revert horder <;> decide
  have hone := hreports first List.mem_cons_self
  have htwo := hreports second (List.mem_cons_of_mem _ List.mem_cons_self)
  rw [hfirst] at hone
  rw [hsecond] at htwo
  exact ⟨hvalid, first, second, rfl, hone, htwo, hother ⟨"E"⟩ (by decide)⟩

end Crew

end EventIndex
