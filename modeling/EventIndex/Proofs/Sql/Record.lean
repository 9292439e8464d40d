import EventIndex.Proofs.Sql.Column

/-! # Records read back from the database

A row that carries the values that were bound to its columns is read as the record that they were
made of. The columns are those of the insertion, so a value that is bound in the place of another
would be read as the other. -/

namespace EventIndex

open Sql

namespace Sql

theorem Relation.params_insert (r : Relation) (values : List Value) :
    (r.insert values).params = values := rfl

/-- The row has in each column what the database keeps of the parameter that the insertion of the
values binds there. -/
def Relation.Carries (r : Relation) (values : List Value) (row : Row) : Prop :=
  ∀ x ∈ r.columns.zip (r.insert values).params, x.1.type.Keeps x.2 (row.get x.1.name)

theorem Relation.carries_row {r : Relation} {values kept : List Value}
    (hnames : r.columnNames.Nodup)
    (h : List.Forall₂ (fun x v => x.1.type.Keeps x.2 v) (r.columns.zip values) kept) :
    r.Carries values (r.row kept) := by
  rw [Carries, params_insert]
  change ∀ x ∈ r.columns.zip values,
    x.1.type.Keeps x.2 (((r.columnNames.zip kept).lookup x.1.name).getD .null)
  rw [columnNames] at hnames ⊢
  generalize r.columns = columns at hnames h
  induction columns generalizing values kept with
  | nil => simp
  | cons c columns ih =>
    cases values with
    | nil => simp
    | cons value values =>
      obtain ⟨hname, hnames⟩ := List.nodup_cons.mp hnames
      cases h with
      | @cons _ v _ kept hv hkept =>
        refine List.forall_mem_cons.mpr ⟨by simpa using hv, fun x hx => ?_⟩
        have hother : (x.1.name == c.name) = false := beq_eq_false_iff_ne.mpr fun heq =>
          hname (heq ▸ List.mem_map_of_mem (List.of_mem_zip hx).1)
        simpa [List.lookup_cons, hother] using ih hnames hkept x hx

private theorem ok_bind {ε α β : Type} (a : α) (f : α → Except ε β) : (.ok a >>= f) = f a := rfl

namespace Row

variable {r : Row} {column : String}

theorem optional_word64_of_keeps {a : Option UInt64}
    (h : ColumnType.numeric.Keeps (.optional .word64 a) (r.get column)) :
    optional word64 r column = .ok a :=
  optional_of_keeps h (fun _ h => by cases h) fun _ => word64_of_keeps

theorem optional_amount_of_keeps {a : Option Amount}
    (h : ColumnType.amount.Keeps (.optional .amount a) (r.get column)) :
    optional amount r column = .ok a :=
  optional_of_keeps h (fun _ h => by cases h) fun _ => amount_of_keeps

theorem optional_position_of_keeps {a : Option Position}
    (h : ColumnType.bytes.Keeps (.optional .position a) (r.get column)) :
    optional position r column = .ok a :=
  optional_of_keeps h (fun _ h => by cases h) fun _ => position_of_keeps

theorem optional_text_of_keeps {a : Option String}
    (h : ColumnType.text.Keeps (.optional .text a) (r.get column)) :
    optional text r column = .ok a :=
  optional_of_keeps h (fun _ h => by cases h) fun _ => text_of_keeps

theorem optional_json_of_keeps {a : Option Json}
    (h : ColumnType.json.Keeps (.optional .json a) (r.get column)) :
    optional json r column = .ok a :=
  optional_of_keeps h (fun _ h => by cases h) fun _ => json_of_keeps

end Row

end Sql

open Sql.Row

theorem Trade.ofRow_of_carries {t : Trade} {row : Sql.Row} (h : relation.Carries t.values row) :
    ofRow row = .ok t := by
  simp only [Relation.Carries, Relation.params_insert, relation, values, List.zip_cons_cons,
    List.zip_nil_left, List.forall_mem_cons] at h
  obtain ⟨hcontract, hid, hmaker, htaker, hbase, hquote, hbaseAmount, hquoteAmount, hexecuted,
    hposition, -⟩ := h
  simp only [ofRow, text_of_keeps hcontract, word64_of_keeps hid, text_of_keeps hmaker,
    text_of_keeps htaker, text_of_keeps hbase, text_of_keeps hquote, amount_of_keeps hbaseAmount,
    amount_of_keeps hquoteAmount, word64_of_keeps hexecuted, position_of_keeps hposition]
  rfl

theorem Proposal.ofRow_of_carries {p : Proposal} {row : Sql.Row}
    (h : relation.Carries p.values row) : ofRow row = .ok p := by
  simp only [Relation.Carries, Relation.params_insert, relation, values, List.zip_cons_cons,
    List.zip_nil_left, List.forall_mem_cons] at h
  obtain ⟨hcontract, hid, hproposer, htitle, hthreshold, hcurrent, hstatus, hcreated, hclosed,
    hcreatedPosition, hlastPosition, -⟩ := h
  simp only [ofRow, text_of_keeps hcontract, word64_of_keeps hid, text_of_keeps hproposer,
    text_of_keeps htitle, word32_of_keeps hthreshold, word32_of_keeps hcurrent,
    text_of_keeps hstatus, word64_of_keeps hcreated, optional_word64_of_keeps hclosed,
    position_of_keeps hcreatedPosition, position_of_keeps hlastPosition,
    ok_bind, ProposalStatus.ofName?_name, Option.elim_some]
  rfl

theorem Reward.ofRow_of_carries {w : Reward} {row : Sql.Row} (h : relation.Carries w.values row) :
    ofRow row = .ok w := by
  simp only [Relation.Carries, Relation.params_insert, relation, values, List.zip_cons_cons,
    List.zip_nil_left, List.forall_mem_cons] at h
  obtain ⟨hcontract, hid, hrecipient, hamount, hreason, hadded, hclaimed, hclaimedAmount,
    hclaimedAt, hcreatedPosition, hclaimPosition, -⟩ := h
  simp only [ofRow, text_of_keeps hcontract, word64_of_keeps hid, text_of_keeps hrecipient,
    amount_of_keeps hamount, text_of_keeps hreason, word64_of_keeps hadded,
    boolean_of_keeps hclaimed, optional_amount_of_keeps hclaimedAmount,
    optional_word64_of_keeps hclaimedAt, position_of_keeps hcreatedPosition,
    optional_position_of_keeps hclaimPosition]
  rfl

theorem Grant.ofRow_of_carries {g : Grant} {row : Sql.Row} (h : relation.Carries g.values row) :
    ofRow row = .ok g := by
  simp only [Relation.Carries, Relation.params_insert, relation, values, List.zip_cons_cons,
    List.zip_nil_left, List.forall_mem_cons] at h
  obtain ⟨hcontract, hid, hbeneficiary, hamount, hstart, hcliff, hduration, hgranted, htotal,
    hcount, hstatus, hrevoked, hunvested, hcreatedPosition, hlastPosition, -⟩ := h
  simp only [ofRow, text_of_keeps hcontract, word64_of_keeps hid, text_of_keeps hbeneficiary,
    amount_of_keeps hamount, word64_of_keeps hstart, word64_of_keeps hcliff,
    word64_of_keeps hduration, word64_of_keeps hgranted, amount_of_keeps htotal,
    word32_of_keeps hcount, text_of_keeps hstatus, optional_word64_of_keeps hrevoked,
    optional_amount_of_keeps hunvested, position_of_keeps hcreatedPosition,
    position_of_keeps hlastPosition, ok_bind, GrantStatus.ofName?_name, Option.elim_some]
  rfl

theorem Quarantine.ofRow_of_carries {q : Quarantine} {row : Sql.Row}
    (h : relation.Carries q.values row) : ofRow row = .ok q := by
  simp only [Relation.Carries, Relation.params_insert, relation, values, List.zip_cons_cons,
    List.zip_nil_left, List.forall_mem_cons] at h
  obtain ⟨hcontract, hkind, hid, hposition, hreason, -⟩ := h
  simp only [ofRow, text_of_keeps hcontract, text_of_keeps hkind, word64_of_keeps hid,
    position_of_keeps hposition, text_of_keeps hreason, ok_bind, EntityKind.ofName?_name,
    Option.elim_some]
  rfl

theorem EntityKind.ofRow_of_carries {k : EntityKind} {r : k.Row} {row : Sql.Row}
    (h : k.relation.Carries (k.values r) row) : k.ofRow row = .ok r := by
  cases k with
  | trade => exact Trade.ofRow_of_carries h
  | proposal => exact Proposal.ofRow_of_carries h
  | reward => exact Reward.ofRow_of_carries h
  | grant => exact Grant.ofRow_of_carries h

/-- A checkpoint is read back up to the digits of its time that the database drops. -/
theorem Checkpoint.ofRow_of_carries {c : Checkpoint} {row : Sql.Row}
    (h : relation.Carries c.values row) :
    ofRow c.contract row = .ok { c with updatedAt := c.updatedAt.toMicros } := by
  simp only [Relation.Carries, Relation.params_insert, relation, values, List.zip_cons_cons,
    List.zip_nil_left, List.forall_mem_cons] at h
  obtain ⟨-, hposition, happlied, hupdated, -⟩ := h
  simp only [ofRow, position_of_keeps hposition, word64_of_keeps happlied,
    instant_of_keeps hupdated]
  rfl

theorem LogEntry.ofRow_of_carries {x : LogEntry} {row : Sql.Row}
    (h : relation.Carries x.values row) :
    ofRow row = .ok { x with
      ledgerClosedAt := x.ledgerClosedAt.toMicros, createdAt := x.createdAt.toMicros } := by
  simp only [Relation.Carries, Relation.params_insert, relation, values, List.zip_cons_cons,
    List.zip_nil_left, List.forall_mem_cons] at h
  obtain ⟨hcontract, hposition, htopic, -, hclosed, hraw, hdecoded, herror, hcreated, -⟩ := h
  simp only [ofRow, instant_of_keeps hclosed, json_of_keeps hraw, text_of_keeps hcontract,
    text_of_keeps htopic, position_of_keeps hposition, optional_json_of_keeps hdecoded,
    optional_text_of_keeps herror, instant_of_keeps hcreated]
  rfl

end EventIndex
