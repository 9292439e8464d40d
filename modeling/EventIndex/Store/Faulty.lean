import EventIndex.Store.Basic
import EventIndex.Store.Planned

/-!
# Stores with planned faults

A store that fails on demand. Errors are planned for its calls by their names.
-/

namespace EventIndex

structure FaultyStore (σ : Type) where
  store : σ
  faults : List (Planned StorageError)

namespace FaultyStore

variable {σ : Type}

instance [Store σ] : Store (FaultyStore σ) where
  Tx := Store.Tx σ
  start contract s :=
    match Planned.take "begin" s.faults with
    | (some e, faults) => (.error e, { s with faults := faults })
    | (none, faults) =>
      let (answer, store) := Store.start contract s.store
      (answer, ⟨store, faults⟩)
  request r tx s :=
    match Planned.take r.name s.faults with
    | (some e, faults) => (.error e, tx, { s with faults := faults })
    | (none, faults) =>
      let (answer, tx, store) := Store.request r tx s.store
      (answer, tx, ⟨store, faults⟩)
  commit tx s :=
    match Planned.take "commit" s.faults with
    | (some e, faults) => (.error e, ⟨Store.abandon tx s.store, faults⟩)
    | (none, faults) =>
      let (answer, store) := Store.commit tx s.store
      (answer, ⟨store, faults⟩)
  abandon tx s := { s with store := Store.abandon tx s.store }
  query contract q s :=
    match Planned.take q.name s.faults with
    | (some e, faults) => (.error e, { s with faults := faults })
    | (none, faults) =>
      let (answer, store) := Store.query contract q s.store
      (answer, ⟨store, faults⟩)

end FaultyStore

end EventIndex
