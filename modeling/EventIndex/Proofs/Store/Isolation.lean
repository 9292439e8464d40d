import EventIndex.Proofs.Store.Direct

/-! # Isolated transactions

A transaction over the store in memory is answered as if it had a copy of the committed data, made
each write there at once and put the copy in their place at its commit. Until then its writes are
seen by nobody else, and without a commit that succeeds they are gone. -/

namespace EventIndex

abbrev Answered := (r : Request) × Except StorageError r.Answer

namespace Partition

/-- The answers to requests that are made one after the other, and the data after them. -/
def serve (p : Partition) : List Request → List Answered × Partition
  | [] => ([], p)
  | r :: rs =>
    let (answer, next) := p.request r
    let (answers, last) := next.serve rs
    (⟨r, answer⟩ :: answers, last)

variable (p : Partition)

theorem serve_append_singleton (rs : List Request) (r : Request) :
    p.serve (rs ++ [r]) =
      ((p.serve rs).1 ++ [⟨r, ((p.serve rs).2.request r).1⟩], ((p.serve rs).2.request r).2) := by
  induction rs generalizing p with
  | nil => rfl
  | cons first rs ih => simp only [List.cons_append, serve, ih]

end Partition

/-- A transaction over the data `p` of a contract: what it was answered so far, and the store as it
is by now. Meanwhile the store may change in all but the data of the contract. -/
inductive Transaction (contract : ContractId) (p : Partition) :
    List Answered → WriteSet → MemoryStore → Prop
  | start {tx : WriteSet} {s s' : MemoryStore} (hp : s.partition contract = p)
      (hs : Store.start contract s = (.ok tx, s')) : Transaction contract p [] tx s'
  | request {as : List Answered} {tx tx' : WriteSet} {s s' : MemoryStore}
      (h : Transaction contract p as tx s) (r : Request) {answer : Except StorageError r.Answer}
      (hr : Store.request r tx s = (answer, tx', s')) :
      Transaction contract p (as ++ [⟨r, answer⟩]) tx' s'
  | elsewhere {as : List Answered} {tx : WriteSet} {s s' : MemoryStore}
      (h : Transaction contract p as tx s)
      (hs : s'.partition contract = s.partition contract) : Transaction contract p as tx s'

namespace Transaction

variable {contract : ContractId} {p : Partition} {as : List Answered} {tx : WriteSet}
  {s : MemoryStore}

theorem contract_eq (h : Transaction contract p as tx s) : tx.contract = contract := by
  induction h with
  | start hp hs =>
    obtain ⟨⟨⟩, -⟩ := Prod.mk.inj hs
    rfl
  | @request as tx _ s _ h r _ hr ih =>
    obtain ⟨-, rfl, -⟩ := Prod.mk.inj hr
    exact (tx.request_contract (s.partition tx.contract) r).trans ih
  | elsewhere h hs ih => exact ih

theorem partition_eq (h : Transaction contract p as tx s) : s.partition contract = p := by
  induction h with
  | start hp hs =>
    obtain ⟨-, rfl⟩ := Prod.mk.inj hs
    exact hp
  | request h r hr ih =>
    obtain ⟨-, -, rfl⟩ := Prod.mk.inj hr
    exact ih
  | elsewhere h hs ih => exact hs.trans ih

theorem request_eq (h : Transaction contract p as tx s) (r : Request) :
    Store.request r tx s = ((tx.request p r).1, (tx.request p r).2, s) := by
  rw [← h.partition_eq, ← h.contract_eq]
  rfl

/-- The answers are those that a copy of the data gives, and the writes lead to the copy. -/
theorem serve_eq (h : Transaction contract p as tx s) :
    p.serve (as.map Sigma.fst) = (as, tx.mergeInto p) := by
  induction h with
  | start hp hs =>
    obtain ⟨⟨⟩, -⟩ := Prod.mk.inj hs
    rw [WriteSet.mergeInto_start]
    rfl
  | @request as tx tx' s s' h r answer hr ih =>
    rw [h.request_eq] at hr
    obtain ⟨rfl, rfl, -⟩ := Prod.mk.inj hr
    rw [List.map_append, List.map_cons, List.map_nil, Partition.serve_append_singleton, ih,
      tx.request_answer p r, tx.request_mergeInto p r]
  | elsewhere h hs ih => exact ih

/-- The answers and the commit are those of a transaction that works on a copy of the data. Until
the commit succeeds the data are read as they were at the start, also after it has failed or the
transaction was given up. -/
theorem refines_copy (h : Transaction contract p as tx s) :
    let copy := p.serve (as.map Sigma.fst)
    as = copy.1 ∧
      (∀ q, Store.query contract q s = (.ok (p.query q), s)) ∧
      (∀ q, (Store.query contract q (Store.abandon tx s)).1 = .ok (p.query q)) ∧
      (0 < s.commitFailures →
        (Store.commit tx s).1 = .error .commitRefused ∧
          (Store.commit tx s).2.partitions = s.partitions ∧
          ∀ q, (Store.query contract q (Store.commit tx s).2).1 = .ok (p.query q)) ∧
      (s.commitFailures = 0 →
        Store.commit tx s =
          (.ok (), { s with partitions := s.partitions.insert contract copy.2 })) := by
  have hquery (q : Query) : Store.query contract q s = (.ok (p.query q), s) := by
    rw [← h.partition_eq]
    rfl
  rw [h.serve_eq]
  refine ⟨rfl, hquery, fun q => congrArg Prod.fst (hquery q), fun hfail => ?_, fun hnone => ?_⟩
  · obtain ⟨n, hn⟩ : ∃ n, s.commitFailures = n + 1 := Nat.exists_eq_add_one.2 hfail
    have hcommit : Store.commit tx s = (.error .commitRefused, { s with commitFailures := n }) := by
      change MemoryStore.commit tx s = _
      simp only [MemoryStore.commit, hn]
    rw [hcommit]
    exact ⟨rfl, rfl, fun q => congrArg Prod.fst (hquery q)⟩
  · change MemoryStore.commit tx s = _
    simp only [MemoryStore.commit, hnone, h.contract_eq, h.partition_eq]

/-- A clear hides the checkpoint and the rows, but not the log. -/
theorem refines_copy_of_clear :
    let contract : ContractId := ⟨"C"⟩
    let position : Position := ⟨1, .replicate 0, 0⟩
    let x : LogEntry := ⟨contract, "NOTE", position, .epoch, .null, none, none, .epoch⟩
    let frozen : Quarantine := ⟨contract, ⟨.grant, 7⟩, position, "refused"⟩
    let p : Partition :=
      ⟨(∅ : Tables).freeze frozen, Std.ExtTreeMap.insert ∅ position x,
        some ⟨contract, position, 1, .epoch⟩⟩
    let s : MemoryStore := ⟨Std.ExtTreeMap.insert ∅ contract p, 0⟩
    let as : List Answered := [⟨.clear, .ok ()⟩, ⟨.quarantine frozen.entity, .ok none⟩,
      ⟨.checkpoint, .ok none⟩, ⟨.append x, .error (.positionTaken position)⟩]
    Transaction contract p as ⟨contract, true, ∅, ∅, some none⟩ s ∧
      as = (p.serve (as.map Sigma.fst)).1 ∧
      Store.commit (⟨contract, true, ∅, ∅, some none⟩ : WriteSet) s =
        (.ok (), ⟨s.partitions.insert contract (p.serve (as.map Sigma.fst)).2, 0⟩) := by
  intro contract position x frozen p s as
  have hp : s.partition contract = p := by simp [s, MemoryStore.partition]
  have hlog : p.log[position]? = some x := by simp [p]
  have h₁ : Transaction contract p [⟨.clear, .ok ()⟩] ⟨contract, true, ∅, ∅, some none⟩ s :=
    (Transaction.start hp rfl).request .clear rfl
  have h₂ := h₁.request (.quarantine frozen.entity) (h₁.request_eq _)
  have h₃ := h₂.request .checkpoint (h₂.request_eq _)
  have h₄ := h₃.request (.append x) (h₃.request_eq _)
  have h : Transaction contract p as ⟨contract, true, ∅, ∅, some none⟩ s := by
    simpa [WriteSet.request, WriteSet.quarantine?, WriteSet.beneath, WriteSet.entry?, hlog, x, as]
      using h₄
  obtain ⟨has, -, -, -, hcommit⟩ := h.refines_copy
  exact ⟨h, has, hcommit rfl⟩

end Transaction

end EventIndex
