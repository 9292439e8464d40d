import EventIndex.Proofs.Batch.Course
import EventIndex.Proofs.Position.Order
import Mathlib.Data.List.Pairwise

/-! # The log as a list of events

A log that records events of one contract is known by the list of these events, in the order of
their positions. An event after all others is added at the end of the list. -/

namespace EventIndex

open OrderedMap

/-- The positions of the events rise strictly. -/
def Rising (es : List RawEvent) : Prop :=
  es.Pairwise fun e f => e.position < f.position

namespace Rising

variable {es fs : List RawEvent} {e f : RawEvent}

theorem append_singleton (h : Rising es) (he : ∀ f ∈ es, f.position < e.position) :
    Rising (es ++ [e]) := by
  refine List.pairwise_append.mpr ⟨h, by simp, ?_⟩
  simpa using he

theorem of_isPrefix (h : Rising es) (hp : fs <+: es) : Rising fs :=
  h.sublist hp.sublist

/-- Rising events are known by their set. -/
theorem eq_of_mem_iff (he : Rising es) (hf : Rising fs) (h : ∀ e, e ∈ es ↔ e ∈ fs) : es = fs := by
  have : Std.Irrefl fun e f : RawEvent => e.position < f.position := ⟨fun e => lt_irrefl e.position⟩
  have : Std.Antisymm fun e f : RawEvent => e.position < f.position :=
    ⟨fun _ _ hef hfe => absurd hfe (lt_asymm hef)⟩
  exact List.Pairwise.eq_of_mem_iff he hf h

theorem lt_of_mem_append (h : Rising (es ++ fs)) (he : e ∈ es) (hf : f ∈ fs) :
    e.position < f.position :=
  (List.pairwise_append.mp h).2.2 e he f hf

theorem le_getLast (h : Rising es) (hlast : es.getLast? = some e) (hf : f ∈ es) :
    f.position ≤ e.position := by
  obtain ⟨init, rfl⟩ := List.getLast?_eq_some_iff.mp hlast
  rcases List.mem_append.mp hf with hf | hf
  · exact (h.lt_of_mem_append hf (by simp)).le
  · exact (congrArg RawEvent.position (List.mem_singleton.mp hf)).le

end Rising

namespace LogEntry

@[simp] theorem toRaw_ofEvent (e : RawEvent) (now : Timestamp) : (ofEvent e now).toRaw = e :=
  Batch.toRaw_entryFor e _ now

@[simp] theorem position_ofEvent (e : RawEvent) (now : Timestamp) :
    (ofEvent e now).position = e.position :=
  Batch.position_entryFor e _ now

@[simp] theorem createdAt_ofEvent (e : RawEvent) (now : Timestamp) :
    (ofEvent e now).createdAt = now := by
  unfold ofEvent
  cases decode (.classify e.topic) e.payload e.position <;> rfl

end LogEntry

/-- The log records just the events `es`, which are of the contract. -/
structure LogHolds (contract : ContractId) (log : Std.ExtTreeMap Position LogEntry)
    (es : List RawEvent) : Prop where
  toRaw_values : log.values.map LogEntry.toRaw = es
  position_eq : ∀ (p : Position) (x : LogEntry), log[p]? = some x → x.position = p
  entry_eq : ∀ (p : Position) (x : LogEntry), log[p]? = some x → x = .ofEvent x.toRaw x.createdAt
  contract_eq : ∀ e ∈ es, e.contract = contract

namespace LogHolds

variable {contract : ContractId} {log : Std.ExtTreeMap Position LogEntry} {es : List RawEvent}

theorem empty (contract : ContractId) : LogHolds contract ∅ [] where
  toRaw_values := rfl
  position_eq := by simp
  entry_eq := by simp
  contract_eq := by simp

theorem rising (h : LogHolds contract log es) : Rising es := by
  rw [← h.toRaw_values, values_eq_map_toList, List.map_map, Rising, List.pairwise_map]
  refine log.ordered_keys_toList.imp_of_mem ?_
  rintro ⟨p, x⟩ ⟨q, y⟩ hx hy hlt
  rw [Std.ExtTreeMap.mem_toList_iff_getElem?_eq_some] at hx hy
  have hxp : x.position = p := h.position_eq p x hx
  have hyq : y.position = q := h.position_eq q y hy
  change x.position < y.position
  rwa [hxp, hyq]

theorem mem_iff_exists (h : LogHolds contract log es) {e : RawEvent} :
    e ∈ es ↔ ∃ x, log[e.position]? = some x ∧ x.toRaw = e := by
  rw [← h.toRaw_values, List.mem_map]
  constructor
  · rintro ⟨x, hx, rfl⟩
    obtain ⟨p, hp⟩ := mem_values_iff.mp hx
    have hxp : x.toRaw.position = p := h.position_eq p x hp
    exact ⟨x, by rwa [hxp], rfl⟩
  · rintro ⟨x, hx, rfl⟩
    exact ⟨x, mem_values_iff.mpr ⟨_, hx⟩, rfl⟩

theorem mem_iff (h : LogHolds contract log es) {e : RawEvent} :
    e ∈ es ↔ log[e.position]?.any (·.records e) := by
  rw [h.mem_iff_exists]
  simp [Option.any_eq_true, LogEntry.records_iff]

theorem isSome_iff (h : LogHolds contract log es) {p : Position} :
    log[p]?.isSome ↔ ∃ e ∈ es, e.position = p := by
  rw [Option.isSome_iff_exists]
  constructor
  · rintro ⟨x, hx⟩
    have hp : x.toRaw.position = p := h.position_eq p x hx
    exact ⟨x.toRaw, h.mem_iff_exists.mpr ⟨x, by rwa [hp], rfl⟩, hp⟩
  · rintro ⟨e, he, rfl⟩
    obtain ⟨x, hx, -⟩ := h.mem_iff_exists.mp he
    exact ⟨x, hx⟩

theorem values_insert (h : LogHolds contract log es) {p : Position}
    (hlt : ∀ f ∈ es, f.position < p) (x : LogEntry) :
    (log.insert p x).values = log.values ++ [x] := by
  apply values_insert_of_forall_lt
  intro q y hy
  obtain ⟨f, hf, rfl⟩ := h.isSome_iff.mp (by simp [hy] : log[q]?.isSome)
  exact hlt f hf

theorem insert (h : LogHolds contract log es) {e : RawEvent} (he : e.contract = contract)
    (hlt : ∀ f ∈ es, f.position < e.position) (now : Timestamp) :
    LogHolds contract (log.insert e.position (.ofEvent e now)) (es ++ [e]) where
  toRaw_values := by
    rw [h.values_insert hlt, List.map_append, h.toRaw_values]
    simp
  position_eq := by
    intro p x hx
    rw [Std.ExtTreeMap.getElem?_insert] at hx
    split at hx
    · rename_i hp
      cases hx
      simpa using hp
    · exact h.position_eq p x hx
  entry_eq := by
    intro p x hx
    rw [Std.ExtTreeMap.getElem?_insert] at hx
    split at hx
    · cases hx
      simp
    · exact h.entry_eq p x hx
  contract_eq := by
    simpa [or_imp, forall_and, he] using h.contract_eq

end LogHolds

end EventIndex
