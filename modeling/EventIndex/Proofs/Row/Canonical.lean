import EventIndex.Proofs.Position.Text
import EventIndex.Row.Codec

/-! # Canonical texts

Every row, and so every snapshot, is read back from its text, and equal texts are those of equal
snapshots. -/

namespace EventIndex

open Json.Codec

/-! ## Names -/

theorem EntityKind.faithful_codec : codec.Faithful 0 :=
  faithful_choice fun k => by cases k <;> rfl

theorem ProposalStatus.faithful_codec : codec.Faithful 0 :=
  faithful_choice fun s => by cases s <;> rfl

theorem GrantStatus.faithful_codec : codec.Faithful 0 :=
  faithful_choice fun s => by cases s <;> rfl

/-! ## Rows -/

theorem Entity.faithful_codec : codec.Faithful 1 :=
  faithful_record (fun _ => rfl) (by decide) ⟨EntityKind.faithful_codec, faithful_word64⟩

/-- Words, strings and the like need no levels, and so they are read where a position is. -/
private theorem one_level {α : Type} {c : Json.Codec α} (h : c.Faithful 0) : c.Faithful 1 :=
  h.mono (Nat.zero_le 1)

theorem Trade.faithful_codec : codec.Faithful 2 :=
  faithful_record (fun _ => rfl) (by decide)
    ⟨one_level ContractId.faithful_codec, one_level faithful_word64, one_level faithful_string,
      one_level faithful_string, one_level faithful_string, one_level faithful_string,
      one_level faithful_amount, one_level faithful_amount, one_level faithful_word64,
      Position.faithful_codec⟩

theorem Proposal.faithful_codec : codec.Faithful 2 :=
  faithful_record (fun _ => rfl) (by decide)
    ⟨one_level ContractId.faithful_codec, one_level faithful_word64, one_level faithful_string,
      one_level faithful_string, one_level faithful_word32, one_level faithful_word32,
      one_level ProposalStatus.faithful_codec, one_level faithful_word64,
      one_level faithful_optional_word64, Position.faithful_codec, Position.faithful_codec⟩

theorem Reward.faithful_codec : codec.Faithful 2 :=
  faithful_record (fun _ => rfl) (by decide)
    ⟨one_level ContractId.faithful_codec, one_level faithful_word64, one_level faithful_string,
      one_level faithful_amount, one_level faithful_string, one_level faithful_word64,
      one_level faithful_bool, one_level faithful_optional_amount,
      one_level faithful_optional_word64, Position.faithful_codec,
      Position.faithful_optional_codec⟩

theorem Grant.faithful_codec : codec.Faithful 2 :=
  faithful_record (fun _ => rfl) (by decide)
    ⟨one_level ContractId.faithful_codec, one_level faithful_word64, one_level faithful_string,
      one_level faithful_amount, one_level faithful_word64, one_level faithful_word64,
      one_level faithful_word64, one_level faithful_word64, one_level faithful_amount,
      one_level faithful_word32, one_level GrantStatus.faithful_codec,
      one_level faithful_optional_word64, one_level faithful_optional_amount,
      Position.faithful_codec, Position.faithful_codec⟩

theorem Quarantine.faithful_codec : codec.Faithful 2 :=
  faithful_record (fun _ => rfl) (by decide)
    ⟨one_level ContractId.faithful_codec, Entity.faithful_codec, Position.faithful_codec,
      one_level faithful_string⟩

theorem Snapshot.faithful_codec : codec.Faithful 4 :=
  faithful_record (fun _ => rfl) (by decide)
    ⟨Trade.faithful_codec.list, Proposal.faithful_codec.list, Reward.faithful_codec.list,
      Grant.faithful_codec.list, Quarantine.faithful_codec.list⟩

/-! ## Texts -/

theorem Snapshot.canonicalText_inj {s t : Snapshot} :
    s.canonicalText = t.canonicalText ↔ s = t :=
  (faithful_codec.mono (by decide)).text_injective.eq_iff

theorem Snapshot.ofText_canonicalText (s : Snapshot) : codec.ofText s.canonicalText = .ok s :=
  ofText_text (faithful_codec s Json.maxDepth (by decide))

end EventIndex
