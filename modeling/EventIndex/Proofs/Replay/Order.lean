import EventIndex.Proofs.Replay.Completeness
import EventIndex.Proofs.Source.Pages

/-! # Replay in any order

A replay sorts the entries that it is given, and of those that record one event it takes one. Its
rows are a function of the set of the recorded events, whatever else the entries say. -/

namespace EventIndex

open Program

/-! ## Sorted events and their maxima -/

/-- The maxima of sorted events that do not contradict each other are all of them, each once. -/
theorem Sorted.mem_maxima_iff {es : List RawEvent} (h : Sorted es)
    (hsame : ∀ e ∈ es, ∀ f ∈ es, e.position = f.position → e = f) {e : RawEvent} :
    e ∈ maxima [] es ↔ e ∈ es := by
  rw [EventIndex.mem_maxima_iff h]
  constructor
  · exact fun hfirst => List.mem_of_find?_eq_some hfirst.2
  · intro he
    refine ⟨by simp [RawEvent.After], ?_⟩
    obtain ⟨f, hf⟩ : ∃ f, es.find? (·.position = e.position) = some f := by
      rw [← Option.isSome_iff_exists, List.find?_isSome]
      exact ⟨e, he, decide_eq_true rfl⟩
    have hposition : f.position = e.position := by simpa using List.find?_some hf
    rw [hf, hsame f (List.mem_of_find?_eq_some hf) e he hposition]

/-! ## Entries that agree -/

namespace Replay

/-- Entries at one position differ at most in what was made of the event, and in when. -/
def Agreeing (entries : List LogEntry) : Prop :=
  ∀ x ∈ entries, ∀ y ∈ entries, x.position = y.position →
    x.topic = y.topic ∧ x.rawPayload = y.rawPayload ∧ x.ledgerClosedAt = y.ledgerClosedAt

def Records (entries : List LogEntry) (e : RawEvent) : Prop :=
  ∃ x ∈ entries, x.toRaw = e

variable {contract : ContractId} {entries entries' : List LogEntry}

theorem Agreeing.eq_of_position_eq (h : Agreeing entries)
    (hcontract : ∀ x ∈ entries, x.contract = contract) {e f : RawEvent} (he : Records entries e)
    (hf : Records entries f) (hposition : e.position = f.position) : e = f := by
  obtain ⟨x, hx, rfl⟩ := he
  obtain ⟨y, hy, rfl⟩ := hf
  have hxy : x.position = y.position := hposition
  obtain ⟨htopic, hpayload, hclosed⟩ := h x hx y hy hxy
  simp only [LogEntry.toRaw, hxy, htopic, hpayload, hclosed, hcontract x hx, hcontract y hy]

theorem mem_maxima_iff (hone : ∀ e f, Records entries e → Records entries f →
    e.position = f.position → e = f) {e : RawEvent} :
    e ∈ maxima [] (MemorySource.sortEvents (entries.map LogEntry.toRaw)) ↔ Records entries e := by
  have hmem {e : RawEvent} :
      e ∈ MemorySource.sortEvents (entries.map LogEntry.toRaw) ↔ Records entries e := by
    rw [MemorySource.mem_sortEvents, List.mem_map, Records]
  have hsorted : Sorted (MemorySource.sortEvents (entries.map LogEntry.toRaw)) :=
    MemorySource.pairwise_sortEvents _
  rw [hsorted.mem_maxima_iff, hmem]
  exact fun e he f hf => hone e f (hmem.mp he) (hmem.mp hf)

theorem Agreeing.maxima_eq (h : Agreeing entries)
    (hcontract : ∀ x ∈ entries, x.contract = contract)
    (hsame : ∀ e, Records entries e ↔ Records entries' e) :
    maxima [] (MemorySource.sortEvents (entries.map LogEntry.toRaw)) =
      maxima [] (MemorySource.sortEvents (entries'.map LogEntry.toRaw)) := by
  have hone (e f : RawEvent) (he : Records entries e) (hf : Records entries f) :
      e.position = f.position → e = f :=
    h.eq_of_position_eq hcontract he hf
  refine (rising_maxima _).eq_of_mem_iff (rising_maxima _) fun e => ?_
  rw [mem_maxima_iff hone, hsame, mem_maxima_iff]
  intro e f he hf
  exact hone e f ((hsame e).mpr he) ((hsame f).mpr hf)

/-! ## Replaying -/

/-- A rule of programs that ask for nothing. -/
private def silent : Rule Effect.signature Unit :=
  fun _ _ _ => False

variable {σ ρ : Type} [Store σ] [EventSource ρ]

private theorem handler_obeys_silent :
    (Desk.handler : Handler _ (StateM (Desk σ ρ))).Obeys silent fun _ _ => True where
  note _ _ _ h := h
  now _ _ h := h
  pause _ _ _ h := h
  answer _ _ _ _ _ h := h.elim

private theorem perform_snapshot (w : World σ ρ)
    (hcontract : ∀ x ∈ entries, x.contract = contract) :
    (w.perform (snapshot contract entries)).1 = .ok (Tables.derive (maxima []
      (MemorySource.sortEvents (entries.map LogEntry.toRaw)))).snapshot := by
  have hdesk : True := trivial
  obtain ⟨-, -, -, hsnapshot⟩ := run_of_wp handler_obeys_silent (s := ⟨w, none⟩) _ hdesk
    (wp_snapshot silent () contract entries)
  rw [World.perform]
  split at hsnapshot
  · rename_i heq
    exact heq.trans (congrArg _ hsnapshot.2)
  · obtain ⟨x, hx, hforeign, -⟩ := hsnapshot
    exact absurd (hcontract x hx) hforeign

private theorem perform_snapshot_of_foreign (w : World σ ρ) {x : LogEntry} (hx : x ∈ entries)
    (hforeign : x.contract ≠ contract) :
    ∃ y ∈ entries, y.contract ≠ contract ∧
      (w.perform (snapshot contract entries)).1 = .error (.foreignEvent contract y.contract) := by
  have hdesk : True := trivial
  obtain ⟨-, -, -, hsnapshot⟩ := run_of_wp handler_obeys_silent (s := ⟨w, none⟩) _ hdesk
    (wp_snapshot silent () contract entries)
  rw [World.perform]
  split at hsnapshot
  · exact absurd (hsnapshot.1 x hx) hforeign
  · rename_i heq
    obtain ⟨y, hy, hother, rfl⟩ := hsnapshot
    exact ⟨y, hy, hother, heq⟩

/-- Entries of the contract that agree give one snapshot, in any order and with any repetitions, and
whatever was made of the events and when. A list with an entry of another contract gives none. -/
theorem snapshot_of_events (w w' : World σ ρ) (contract : ContractId)
    (entries entries' : List LogEntry) :
    ((∀ x ∈ entries ++ entries', x.contract = contract) → Agreeing entries →
      (∀ e, Records entries e ↔ Records entries' e) →
        ∃ s, (w.perform (snapshot contract entries)).1 = .ok s ∧
          (w'.perform (snapshot contract entries')).1 = .ok s) ∧
    ((∃ x ∈ entries, x.contract ≠ contract) →
      ∃ x ∈ entries, x.contract ≠ contract ∧
        (w.perform (snapshot contract entries)).1 =
          .error (.foreignEvent contract x.contract)) := by
  constructor
  · intro hcontract hagreeing hsame
    obtain ⟨hentries, hentries'⟩ := List.forall_mem_append.mp hcontract
    refine ⟨_, perform_snapshot w hentries, ?_⟩
    rw [perform_snapshot w' hentries', hagreeing.maxima_eq hentries hsame]
  · rintro ⟨x, hx, hforeign⟩
    exact perform_snapshot_of_foreign w hx hforeign

/-- A reward and a quarantine are replayed from entries in another order, one of them twice and one
of them without what was decoded. An entry of another contract is refused. -/
theorem snapshot_of_events_reversed :
    let contract : ContractId := ⟨"C"⟩
    let added : RawEvent := ⟨contract, "REWARD_ADDED", .object [("added_at", .number "1"),
      ("amount", .string "5"), ("reason", .string "bug"), ("recipient", .string "R"),
      ("reward_id", .number "7")], 1, .epoch, .replicate 0, 0⟩
    let cancelled : RawEvent := ⟨contract, "PROPOSAL_CANCELLED", .object [
      ("cancelled_at", .number "2"), ("cancelled_by", .string "A"), ("proposal_id", .number "7")],
      2, .epoch, .replicate 0, 0⟩
    let entry (e : RawEvent) : LogEntry := .observed e none none .epoch
    let decoded : LogEntry := .ofEvent added .epoch
    let foreign : LogEntry := { entry added with contract := ⟨"D"⟩ }
    let w : World MemoryStore MemorySource := .start .empty .empty
    let replayed (entries : List LogEntry) := (w.perform (snapshot contract entries)).1
    decoded.decodedPayload ≠ none ∧
      (∃ s, replayed [decoded, entry cancelled] = .ok s ∧
        replayed [entry cancelled, entry added, entry cancelled] = .ok s ∧
        s.rewards.length = 1 ∧ s.quarantined.length = 1) ∧
      replayed [entry cancelled, foreign] = .error (.foreignEvent contract ⟨"D"⟩) := by
  intro contract added cancelled entry decoded foreign w replayed
  let entries := [decoded, entry cancelled]
  let entries' := [entry cancelled, entry added, entry cancelled]
  have hcontract : ∀ x ∈ entries ++ entries', x.contract = contract := by decide +kernel
  have hagreeing : Agreeing entries := by
    unfold Agreeing
    decide +kernel
  have hsame (e : RawEvent) : Records entries e ↔ Records entries' e := by
    have hdecoded : decoded.toRaw = (entry added).toRaw := LogEntry.toRaw_ofEvent _ _
    simp only [Records, entries, entries', List.exists_mem_cons_iff, List.not_mem_nil, false_and,
      exists_false, or_false, hdecoded]
    tauto
  obtain ⟨s, hs, hs'⟩ := (snapshot_of_events w w contract entries entries').1 hcontract hagreeing
    hsame
  have hsorted : MemorySource.sortEvents (entries.map LogEntry.toRaw) = [added, cancelled] :=
    List.mergeSort_of_pairwise (by decide +kernel)
  have hrows : (Tables.derive (maxima [] [added, cancelled])).snapshot = s := by
    have hreplayed := perform_snapshot w fun x hx => hcontract x (List.mem_append_left _ hx)
    rw [hsorted] at hreplayed
    exact Except.ok.inj (hreplayed.symm.trans hs)
  have hdecoded : decoded.decodedPayload ≠ none := by decide +kernel
  have hrewards : s.rewards.length = 1 := hrows ▸ by decide +kernel
  have hquarantined : s.quarantined.length = 1 := hrows ▸ by decide +kernel
  obtain ⟨x, hx, hother, hrefused⟩ :=
    (snapshot_of_events w w contract [entry cancelled, foreign] []).2 ⟨foreign, by simp, by decide⟩
  obtain rfl : x = foreign := by
    have hcancelled : x ≠ entry cancelled := fun h => hother (h ▸ rfl)
    simpa [hcancelled] using hx
  exact ⟨hdecoded, ⟨s, hs, hs', hrewards, hquarantined⟩, hrefused⟩

end Replay

end EventIndex
