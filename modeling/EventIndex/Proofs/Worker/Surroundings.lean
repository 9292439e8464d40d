import EventIndex.Indexer.Worker
import EventIndex.Proofs.Program.Weakest
import EventIndex.Proofs.Indexer.Transaction

/-! # The surroundings of a worker

A worker is followed by what it sees: the committed data of its contract, its open transaction, and
the answers of its surroundings. The surroundings may choose between answers; what is proved of the
worker holds for all of their choices. -/

namespace EventIndex

/-! ## What has been seen -/

structure Observed where
  /-- The events that were fetched last. -/
  fetched : List RawEvent
  /-- The batches that were committed, in their order. -/
  committed : List (List RawEvent)
  failure : Option IndexerError

namespace Observed

def nothing : Observed :=
  ⟨[], [], none⟩

/-- Sees the answer to an effect. What is committed is the batch that was fetched last, and it is
abandoned because of its first event of another contract. -/
def note (o : Observed) (contract : ContractId) : (e : Effect) → e.Answer → Observed
  | .query .., .error e => { o with failure := some (.storage e) }
  | .fetch .., .ok es => { o with fetched := es }
  | .fetch .., .error e => { o with failure := some (.source e) }
  | .commit, .ok () => { o with committed := o.committed ++ [o.fetched] }
  | .commit, .error e => { o with failure := some (.storage e) }
  | .abandon, () =>
    { o with
      failure := (o.fetched.find? (·.contract ≠ contract)).map fun e =>
        .foreignEvent contract e.contract }
  | _, _ => o

end Observed

/-- The committed data of a contract, its open transaction, and what has been seen. -/
structure View where
  data : Partition
  tx : Option WriteSet
  seen : Observed

/-! ## What the surroundings may do -/

/-- The answers that the surroundings of a contract may give. -/
structure Surroundings where
  Fetches : Option Position → Nat → Except SourceError (List RawEvent) → Prop
  Refuses : Prop
  Stops : Bool → Prop

namespace Surroundings

def any : Surroundings where
  Fetches _ _ _ := True
  Refuses := True
  Stops _ := True

/-- The events are those of the source, no commit is refused and no stop is requested. -/
def calm (source : MemorySource) (contract : ContractId) : Surroundings where
  Fetches after limit answer := answer = .ok ((source.select contract after).take limit)
  Refuses := False
  Stops b := b = false

variable {ρ : Type} [EventSource ρ]

/-- The worlds in `W` give no other answers, whatever is asked of them. -/
structure Describe (s : Surroundings) (contract : ContractId) (W : World MemoryStore ρ → Prop) :
    Prop where
  fetches : ∀ w after limit, W w →
    s.Fetches after limit (EventSource.fetch contract after limit w.source).1
  refuses : ∀ w, W w → w.store.commitFailures ≠ 0 → s.Refuses
  stops : ∀ w, W w → s.Stops (w.stop || EventSource.asksToStop w.source)
  answer : ∀ (d : Desk MemoryStore ρ) (e : Effect), W d.world → W (d.answer e).2.world
  note : ∀ w line, W w → W { w with journal := line :: w.journal }
  now : ∀ w, W w → W { w with looks := w.looks + 1 }

theorem describe_any (contract : ContractId) :
    any.Describe contract fun _ : World MemoryStore ρ => True where
  fetches _ _ _ _ := trivial
  refuses _ _ _ := trivial
  stops _ _ := trivial
  answer _ _ _ := trivial
  note _ _ _ := trivial
  now _ _ := trivial

end Surroundings

structure World.Calm (source : MemorySource) (w : World MemoryStore MemorySource) : Prop where
  source_eq : w.source = source
  stop_eq : w.stop = false
  commitFailures_eq : w.store.commitFailures = 0

theorem World.Calm.answer {source : MemorySource} {d : Desk MemoryStore MemorySource}
    (h : d.world.Calm source) (e : Effect) : (d.answer e).2.world.Calm source := by
  obtain ⟨⟨store, src, metrics, stop, times, looks, journal⟩, tx⟩ := d
  obtain ⟨hsource, hstop, hcommit⟩ := h
  cases e with
  | query | fetch | start | stopRequested | recordBatch | recordRetry =>
    exact ⟨hsource, hstop, hcommit⟩
  | request r => cases tx <;> exact ⟨hsource, hstop, hcommit⟩
  | abandon => cases tx <;> exact ⟨hsource, hstop, hcommit⟩
  | commit =>
    cases tx with
    | none => exact ⟨hsource, hstop, hcommit⟩
    | some w =>
      refine ⟨hsource, hstop, ?_⟩
      change (store.commit w).2.commitFailures = 0
      simp only at hcommit
      simp [MemoryStore.commit, hcommit]

theorem Surroundings.describe_calm (source : MemorySource) (contract : ContractId) :
    (calm source contract).Describe contract (World.Calm source) where
  fetches w after limit h := by
    rw [h.source_eq]
    rfl
  refuses w h hne := hne h.commitFailures_eq
  stops w h := by
    rw [h.stop_eq]
    rfl
  answer d e h := h.answer e
  note w line h := ⟨h.source_eq, h.stop_eq, h.commitFailures_eq⟩
  now w h := ⟨h.source_eq, h.stop_eq, h.commitFailures_eq⟩

/-! ## Following a worker -/

/-- What must hold before an effect of the worker of a contract. Everything is asked for this
contract only, and the surroundings choose the answer. -/
def Effect.watched (contract : ContractId) (s : Surroundings) : Rule Effect.signature View
  | .query c q, Q, v => c = contract ∧ Q (.ok (v.data.query q)) v
  | .fetch c after limit, Q, v =>
    c = contract ∧ ∀ a, s.Fetches after limit a →
      Q a { v with seen := v.seen.note contract (.fetch c after limit) a }
  | .start c, Q, v => c = contract ∧ Q (.ok ()) { v with tx := some (.start contract) }
  | .request _, Q, ⟨p, none, o⟩ => Q (.error Desk.withoutTransaction) ⟨p, none, o⟩
  | .request r, Q, ⟨p, some w, o⟩ => Q (w.request p r).1 ⟨p, some (w.request p r).2, o⟩
  | .commit, Q, ⟨p, none, o⟩ =>
    let refused : Except StorageError Unit := .error Desk.withoutTransaction
    Q refused ⟨p, none, o.note contract .commit refused⟩
  | .commit, Q, ⟨p, some w, o⟩ =>
    let refused : Except StorageError Unit := .error .commitRefused
    (s.Refuses → Q refused ⟨p, none, o.note contract .commit refused⟩) ∧
      Q (.ok ()) ⟨w.mergeInto p, none, o.note contract .commit (.ok ())⟩
  | .abandon, Q, v => Q () { v with tx := none, seen := v.seen.note contract .abandon () }
  | .stopRequested, Q, v => ∀ b, s.Stops b → Q b v
  | .recordBatch .., Q, v => Q () v
  | .recordRetry, Q, v => Q () v

theorem Effect.watched_mono (contract : ContractId) (s : Surroundings) :
    (Effect.watched contract s).Mono := by
  rintro op Q Q' ⟨p, tx, o⟩ hQ hrule
  cases op with
  | query => exact ⟨hrule.1, hQ _ _ hrule.2⟩
  | fetch => exact ⟨hrule.1, fun a ha => hQ _ _ (hrule.2 a ha)⟩
  | start => exact ⟨hrule.1, hQ _ _ hrule.2⟩
  | stopRequested => exact fun b hb => hQ _ _ (hrule b hb)
  | request => cases tx <;> exact hQ _ _ hrule
  | commit =>
    cases tx with
    | none => exact hQ _ _ hrule
    | some w => exact ⟨fun h => hQ _ _ (hrule.1 h), hQ _ _ hrule.2⟩
  | abandon | recordBatch | recordRetry => exact hQ _ _ hrule

section Showing

variable {ρ : Type} [EventSource ρ] {contract : ContractId} {store : MemoryStore}
  {W : World MemoryStore ρ → Prop} {s : Surroundings}

/-- The desk has the data and the transaction that are in view, in a world of `W`. The data of all
other contracts are as in `store`. -/
structure Desk.Shows (contract : ContractId) (store : MemoryStore) (W : World MemoryStore ρ → Prop)
    (d : Desk MemoryStore ρ) (v : View) : Prop where
  data_eq : v.data = d.world.store.partition contract
  tx_eq : v.tx = d.tx
  contract_eq : ∀ w : WriteSet, d.tx = some w → w.contract = contract
  world : W d.world
  other_eq : ∀ other, other ≠ contract →
    d.world.store.partitions[other]? = store.partitions[other]?

theorem Desk.Shows.answer (hs : s.Describe contract W) {d : Desk MemoryStore ρ} {v : View}
    (h : Desk.Shows contract store W d v) (e : Effect) {Q : e.Answer → View → Prop}
    (hQ : Effect.watched contract s e Q v) :
    ∃ v', Desk.Shows contract store W (d.answer e).2 v' ∧
      v'.seen = v.seen.note contract e (d.answer e).1 ∧ Q (d.answer e).1 v' := by
  have hworld := hs.answer d e h.world
  obtain ⟨world, tx⟩ := d
  obtain ⟨data, tx', seen⟩ := v
  obtain ⟨rfl, htx, hcontract, hw, hother⟩ := h
  obtain rfl : tx = tx' := htx.symm
  have hnone : ∀ w : WriteSet, (none : Option WriteSet) = some w → w.contract = contract := by
    simp
  cases e with
  | query c q =>
    obtain ⟨rfl, hQ⟩ := hQ
    exact ⟨_, ⟨rfl, rfl, hcontract, hworld, hother⟩, rfl, hQ⟩
  | fetch c after limit =>
    obtain ⟨rfl, hQ⟩ := hQ
    exact ⟨_, ⟨rfl, rfl, hcontract, hworld, hother⟩, rfl, hQ _ (hs.fetches world after limit hw)⟩
  | start c =>
    obtain ⟨rfl, hQ⟩ := hQ
    refine ⟨⟨_, some (.start c), seen⟩, ⟨rfl, rfl, ?_, hworld, hother⟩, rfl, hQ⟩
    rintro w ⟨⟩
    rfl
  | stopRequested =>
    exact ⟨_, ⟨rfl, rfl, hcontract, hworld, hother⟩, rfl, hQ _ (hs.stops world hw)⟩
  | recordBatch | recordRetry => exact ⟨_, ⟨rfl, rfl, hcontract, hworld, hother⟩, rfl, hQ⟩
  | request r =>
    cases tx with
    | none => exact ⟨_, ⟨rfl, rfl, hnone, hworld, hother⟩, rfl, hQ⟩
    | some w =>
      obtain rfl := hcontract w rfl
      let next := (w.request (world.store.partition w.contract) r).2
      refine ⟨⟨_, some next, seen⟩, ⟨rfl, rfl, ?_, hworld, hother⟩, rfl, hQ⟩
      rintro w' ⟨⟩
      exact w.request_contract _ r
  | abandon => cases tx <;> exact ⟨_, ⟨rfl, rfl, hnone, hworld, hother⟩, rfl, hQ⟩
  | commit =>
    cases tx with
    | none => exact ⟨_, ⟨rfl, rfl, hnone, hworld, hother⟩, rfl, hQ⟩
    | some w =>
      obtain rfl := hcontract w rfl
      obtain ⟨hrefused, hcommitted⟩ := hQ
      obtain ⟨⟨partitions, failures⟩, source, metrics, stop, times, looks, journal⟩ := world
      cases failures with
      | succ n =>
        have hrefuses := hs.refuses _ hw (Nat.succ_ne_zero n)
        exact ⟨_, ⟨rfl, rfl, hnone, hworld, hother⟩, rfl, hrefused hrefuses⟩
      | zero =>
        let merged := w.mergeInto (MemoryStore.partition ⟨partitions, 0⟩ w.contract)
        have hsame := MemoryStore.partition_insert_self ⟨partitions, 0⟩ w.contract merged 0
        refine ⟨_, ⟨?_, rfl, hnone, hworld, ?_⟩, rfl, hcommitted⟩
        · exact hsame.symm
        · intro other hne
          refine Eq.trans ?_ (hother other hne)
          change (partitions.insert w.contract merged)[other]? = partitions[other]?
          simp [Std.ExtTreeMap.getElem?_insert, hne.symm]

theorem handler_obeys_watched (hs : s.Describe contract W) (store : MemoryStore) :
    (Desk.handler : Handler _ (StateM (Desk MemoryStore ρ))).Obeys (Effect.watched contract s)
      (Desk.Shows contract store W) where
  note line d v h := ⟨h.data_eq, h.tx_eq, h.contract_eq, hs.note _ line h.world, h.other_eq⟩
  now d v h := ⟨h.data_eq, h.tx_eq, h.contract_eq, hs.now _ h.world, h.other_eq⟩
  pause ms d v h := h
  answer e Q d v h hQ := by
    obtain ⟨v', hshows, -, hQ'⟩ := h.answer hs e hQ
    exact ⟨v', hshows, hQ'⟩

def Desk.watching (contract : ContractId) :
    Handler Effect.signature (StateM (Desk MemoryStore ρ × Observed)) where
  answer e := fun (d, o) =>
    let (a, d) := d.answer e
    (a, d, o.note contract e a)
  note line := fun (d, o) =>
    let ((), d) := (Desk.handler.note line).run d
    ((), d, o)
  now := fun (d, o) =>
    let (t, d) := Desk.handler.now.run d
    (t, d, o)
  pause ms := fun (d, o) =>
    let ((), d) := (Desk.handler.pause ms).run d
    ((), d, o)

theorem watching_obeys (hs : s.Describe contract W) (store : MemoryStore) :
    (Desk.watching contract : Handler _ (StateM (Desk MemoryStore ρ × Observed))).Obeys
      (Effect.watched contract s)
      (fun d v => Desk.Shows contract store W d.1 v ∧ v.seen = d.2) where
  note line := by
    rintro ⟨d, o⟩ v ⟨h, hseen⟩
    exact ⟨(handler_obeys_watched hs store).note line d v h, hseen⟩
  now := by
    rintro ⟨d, o⟩ v ⟨h, hseen⟩
    exact ⟨(handler_obeys_watched hs store).now d v h, hseen⟩
  pause ms := by
    rintro ⟨d, o⟩ v ⟨h, hseen⟩
    exact ⟨(handler_obeys_watched hs store).pause ms d v h, hseen⟩
  answer := by
    rintro e Q ⟨d, o⟩ v ⟨h, rfl⟩ hQ
    obtain ⟨v', hshows, hseen, hQ'⟩ := h.answer hs e hQ
    exact ⟨v', ⟨hshows, hseen⟩, hQ'⟩

end Showing

end EventIndex
