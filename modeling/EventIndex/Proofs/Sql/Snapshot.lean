import EventIndex.Proofs.Sql.Record
import EventIndex.Proofs.Table.Lookup
import EventIndex.Sql.Scripted
import Mathlib.Data.List.Forall2

/-! # Snapshots of the database

All rows of a contract are read back as their records. The frozen entities come out in the order of
entities, whatever the order of their rows, which is the order in which a store in memory lists
them. -/

namespace EventIndex

open Sql

/-! ## Frozen entities in order -/

namespace Query

variable {qs : List Quarantine}

theorem sortQuarantined_perm (qs : List Quarantine) : (sortQuarantined qs).Perm qs :=
  List.mergeSort_perm qs _

theorem pairwise_sortQuarantined (qs : List Quarantine) :
    (sortQuarantined qs).Pairwise fun a b => (compare a.entity b.entity).isLE := by
  apply List.pairwise_mergeSort
  · intro a b c hab hbc
    exact Std.TransCmp.isLE_trans hab hbc
  · intro a b
    rw [Bool.or_eq_true]
    cases h : compare a.entity b.entity with
    | lt => exact .inl rfl
    | eq => exact .inl rfl
    | gt => exact .inr (by rw [Std.OrientedCmp.gt_iff_lt.mp h]; rfl)

/-- After the records were stored, one for each entity, each is found under its entity, and what was
there before under the others. -/
theorem quarantine?_foldl_freeze (h : qs.Pairwise fun a b => a.entity ≠ b.entity) (t : Tables)
    (e : Entity) (q : Quarantine) :
    (qs.foldl Tables.freeze t).quarantine? e = some q ↔
      (q ∈ qs ∧ q.entity = e) ∨ ((∀ r ∈ qs, r.entity ≠ e) ∧ t.quarantine? e = some q) := by
  induction qs generalizing t with
  | nil => simp
  | cons first qs ih =>
    obtain ⟨hfirst, hqs⟩ := List.pairwise_cons.mp h
    rw [List.foldl_cons, ih hqs, Tables.quarantine?_freeze]
    by_cases he : first.entity = e
    · subst he
      have hothers : ∀ r ∈ qs, r.entity ≠ first.entity := fun r hr => (hfirst r hr).symm
      constructor
      · rintro (⟨hq, heq⟩ | ⟨-, heq⟩)
        · exact absurd heq (hothers q hq)
        · obtain rfl : first = q := by simpa using heq
          exact .inl ⟨List.mem_cons_self, rfl⟩
      · rintro (⟨hq, heq⟩ | ⟨hnone, -⟩)
        · rcases List.mem_cons.mp hq with rfl | hq
          · exact .inr ⟨hothers, by simp⟩
          · exact absurd heq (hothers q hq)
        · exact absurd rfl (hnone first List.mem_cons_self)
    · have hq : q.entity = e → q ≠ first := by
        rintro heq rfl
        exact he heq
      simp only [he, if_false, List.mem_cons, forall_eq_or_imp, ne_eq, not_false_eq_true, true_and]
      constructor
      · exact Or.imp_left fun ⟨hmem, heq⟩ => ⟨.inr hmem, heq⟩
      · exact Or.imp_left fun ⟨hmem, heq⟩ => ⟨hmem.resolve_left (hq heq), heq⟩

private def Before (a b : Quarantine) : Prop :=
  compare a.entity b.entity = .lt

private theorem before_irrefl (a : Quarantine) : ¬ Before a a := by
  simp [Before]

private theorem before_asymm {a b : Quarantine} (h : Before a b) : ¬ Before b a := by
  have hgt : compare b.entity a.entity = .gt := Std.OrientedCmp.gt_of_lt h
  simp [Before, hgt]

private theorem pairwise_before_sorted (h : qs.Pairwise fun a b => a.entity ≠ b.entity) :
    (sortQuarantined qs).Pairwise Before := by
  have hdistinct := h.perm (sortQuarantined_perm qs).symm fun hab => hab.symm
  refine ((pairwise_sortQuarantined qs).and hdistinct).imp fun {a b} hab => ?_
  cases hcompare : compare a.entity b.entity with
  | lt => exact hcompare
  | eq => exact absurd (Std.LawfulEqOrd.eq_of_compare hcompare) hab.2
  | gt => simp [hcompare] at hab

/-- The order of entities is the order in which a store in memory lists the same records. -/
theorem sortQuarantined_eq_snapshot (h : qs.Pairwise fun a b => a.entity ≠ b.entity) :
    sortQuarantined qs = (qs.foldl Tables.freeze ∅).snapshot.quarantined := by
  let m := (qs.foldl Tables.freeze ∅).quarantined
  have hmem (e : Entity) (q : Quarantine) : m[e]? = some q ↔ q ∈ qs ∧ q.entity = e := by
    have hfound : (qs.foldl Tables.freeze ∅).quarantine? e = some q ↔ q ∈ qs ∧ q.entity = e := by
      simpa using quarantine?_foldl_freeze h ∅ e q
    exact hfound
  have hstored : m.values.Pairwise Before := by
    rw [OrderedMap.values_eq_map_toList, List.pairwise_map]
    refine List.Pairwise.imp_of_mem ?_ m.ordered_keys_toList
    intro a b ha hb hab
    have hea := ((hmem a.1 a.2).mp (Std.ExtTreeMap.mem_toList_iff_getElem?_eq_some.mp ha)).2
    have heb := ((hmem b.1 b.2).mp (Std.ExtTreeMap.mem_toList_iff_getElem?_eq_some.mp hb)).2
    rw [Before, hea, heb]
    exact hab
  have : Std.Irrefl Before := ⟨before_irrefl⟩
  have : Std.Antisymm Before := ⟨fun _ _ hab hba => absurd hba (before_asymm hab)⟩
  refine List.Pairwise.eq_of_mem_iff (pairwise_before_sorted h) hstored fun q => ?_
  have hvalues : q ∈ m.values ↔ q ∈ qs := by simp [OrderedMap.mem_values_iff, hmem]
  rw [(sortQuarantined_perm qs).mem_iff, ← hvalues]
  rfl

end Query

/-! ## Reading a snapshot -/

namespace Sql

theorem Brought.all_of_forall₂ {α : Type} {ofRow : Row → Except RowError α} {as : List α}
    {rows : List Row} (h : List.Forall₂ (fun a row => ofRow row = .ok a) as rows) :
    Brought.all ofRow rows = .ok as := by
  rw [Brought.all]
  induction h with
  | nil => rfl
  | cons ha _ ih => simp [ha, ih]; rfl

namespace Database

variable {δ : Type} [Server δ]

/-- Sends the statements of a query, each for itself, and gives what they bring. -/
def ask (contract : ContractId) (q : Query) : Exchange δ (List Brought) :=
  (q.statements contract).mapM fun st => do
    acquire
    send st

theorem query_of_ask {contract : ContractId} {q : Query} {db : Database δ} {results : List Brought}
    (h : ((ask contract q).run.run db).1 = .ok results) :
    (query contract q db).1 = (q.readAnswer contract results).mapError RowError.toStorage := by
  obtain ⟨db', hask⟩ : ∃ db', (ask contract q).run.run db = (.ok results, db') :=
    ⟨_, Prod.ext h rfl⟩
  rw [ask] at hask
  simp only [query, hask]

theorem query_snapshot {contract : ContractId} {db : Database δ}
    {records : (k : EntityKind) → List k.Row} {rows : EntityKind → List Row}
    {qs : List Quarantine} {quarantineRows : List Row}
    (hrecords : ∀ k, List.Forall₂ (fun r row => k.relation.Carries (k.values r) row)
      (records k) (rows k))
    (hqs : List.Forall₂ (fun q row => Quarantine.relation.Carries (Quarantine.values q) row)
      qs quarantineRows)
    (hask : ((ask contract .snapshot).run.run db).1 =
      .ok (EntityKind.all.map rows ++ [quarantineRows])) :
    (query contract .snapshot db).1 = .ok ⟨records .trade, records .proposal, records .reward,
      records .grant, Query.sortQuarantined qs⟩ := by
  have hkind (k : EntityKind) : Brought.all k.ofRow (rows k) = .ok (records k) :=
    Brought.all_of_forall₂ ((hrecords k).imp fun _ _ => EntityKind.ofRow_of_carries)
  have hfrozen : Brought.all Quarantine.ofRow quarantineRows = .ok qs :=
    Brought.all_of_forall₂ (hqs.imp fun _ _ => Quarantine.ofRow_of_carries)
  have htrades : Brought.all Trade.ofRow (rows .trade) = .ok (records .trade) := hkind .trade
  have hproposals : Brought.all Proposal.ofRow (rows .proposal) = .ok (records .proposal) :=
    hkind .proposal
  have hrewards : Brought.all Reward.ofRow (rows .reward) = .ok (records .reward) :=
    hkind .reward
  have hgrants : Brought.all Grant.ofRow (rows .grant) = .ok (records .grant) := hkind .grant
  rw [query_of_ask hask]
  simp only [Query.readAnswer, broughtBy, EntityKind.all, List.map_cons, List.map_nil,
    List.cons_append, List.nil_append, List.getD_cons_zero, List.getD_cons_succ, htrades,
    hproposals, hrewards, hgrants, hfrozen]
  rfl

/-- Every record is read back from a row that carries its values, up to the time of a checkpoint,
and a snapshot lists the records of the rows, the frozen entities in the order in which a store in
memory lists them. -/
theorem records_read_back (contract : ContractId) (db : Database δ) :
    (∀ (k : EntityKind) (r : k.Row) (row : Row),
      k.relation.Carries (k.values r) row → k.ofRow row = .ok r) ∧
    (∀ (q : Quarantine) (row : Row),
      Quarantine.relation.Carries q.values row → Quarantine.ofRow row = .ok q) ∧
    (∀ (c : Checkpoint) (row : Row), Checkpoint.relation.Carries c.values row →
      Checkpoint.ofRow c.contract row = .ok { c with updatedAt := c.updatedAt.toMicros }) ∧
    ∀ (records : (k : EntityKind) → List k.Row) (rows : EntityKind → List Row)
      (qs : List Quarantine) (quarantineRows : List Row),
      (∀ k, List.Forall₂ (fun r row => k.relation.Carries (k.values r) row)
        (records k) (rows k)) →
      List.Forall₂ (fun q row => Quarantine.relation.Carries (Quarantine.values q) row)
        qs quarantineRows →
      ((ask contract .snapshot).run.run db).1 =
        .ok (EntityKind.all.map rows ++ [quarantineRows]) →
      ∃ quarantined, (query contract .snapshot db).1 = .ok ⟨records .trade, records .proposal,
          records .reward, records .grant, quarantined⟩ ∧
        quarantined.Perm qs ∧
        quarantined.Pairwise (fun a b => (compare a.entity b.entity).isLE) ∧
        (qs.Pairwise (fun a b => a.entity ≠ b.entity) →
          quarantined = (qs.foldl Tables.freeze ∅).snapshot.quarantined) := by
  refine ⟨fun k r row => EntityKind.ofRow_of_carries, fun q row => Quarantine.ofRow_of_carries,
    fun c row => Checkpoint.ofRow_of_carries, ?_⟩
  intro records rows qs quarantineRows hrecords hqs hask
  exact ⟨Query.sortQuarantined qs, query_snapshot hrecords hqs hask,
    Query.sortQuarantined_perm qs, Query.pairwise_sortQuarantined qs,
    Query.sortQuarantined_eq_snapshot⟩

/-- A reward of a negative amount that was not claimed, with places after its numbers, and two
frozen entities whose rows come in the order of the names of their kinds. -/
theorem records_read_back_of_unordered :
    let contract : ContractId := ⟨"C"⟩
    let position : Position := ⟨1, .replicate 0, 0⟩
    let reward : Reward := ⟨contract, 7, "R", ⟨-5, by decide, by decide⟩, "", 9, false, none, none,
      position, none⟩
    let row : Row := Reward.relation.row [.text "C", .numeric ⟨700, 2⟩, .text "R",
      .amount reward.amount, .text "", .numeric ⟨9, 0⟩, .boolean false, .null, .null,
      .position position, .null]
    let grant : Quarantine := ⟨contract, .grant 1, position, "late"⟩
    let trade : Quarantine := ⟨contract, .trade 2, position, "late"⟩
    let rows : List (List (String × Json)) := [grant, trade].map fun q =>
      [("contract_id", .string "C"), ("entity_kind", .string q.entity.kind.name),
        ("entity_id", .string (toString q.entity.id.toNat)),
        ("position", .string (Hex.encode q.position.key)), ("reason", .string q.reason)]
    let server := ScriptedServer.ofScript [⟨fun _ => true, 4, .rows rows⟩]
    Reward.ofRow row = .ok reward ∧
      (query contract .snapshot ⟨server, .present⟩).1 = .ok ⟨[], [], [], [], [trade, grant]⟩ := by
  intro contract position reward row grant trade rows server
  obtain ⟨hrow, -, -, hsnapshot⟩ := records_read_back contract ⟨server, .present⟩
  constructor
  · refine hrow .reward reward row (Relation.carries_row (by decide) ?_)
    exact .cons (.text _) <| .cons (.numeric (by decide)) <| .cons (.text _) <|
      .cons (ColumnType.keeps_amount _) <| .cons (.text _) <| .cons (.numeric (by decide)) <|
      .cons (.boolean _) <| .cons (.null _) <| .cons (.null _) <| .cons (.bytes _) <|
      .cons (.null _) .nil
  · let frozen (q : Quarantine) : Row := Quarantine.relation.row q.values
    have hcarries (q : Quarantine) : Quarantine.relation.Carries q.values (frozen q) :=
      Relation.carries_row (by decide) <| .cons (.text _) <| .cons (.text _) <|
        .cons (.numeric rfl) <| .cons (.bytes _) <| .cons (.text _) .nil
    obtain ⟨quarantined, hquery, -, -, hordered⟩ := hsnapshot (fun _ => []) (fun _ => [])
      [grant, trade] [frozen grant, frozen trade] (fun _ => .nil)
      (.cons (hcarries grant) (.cons (hcarries trade) .nil)) (by decide +kernel)
    have hlisted : quarantined = [trade, grant] := (hordered (by decide)).trans (by decide +kernel)
    rw [hquery, hlisted]
    rfl

end Database

end Sql

end EventIndex
