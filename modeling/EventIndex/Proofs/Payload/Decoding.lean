import EventIndex.Proofs.Payload.Grammar

/-! # What is decoded

A payload of a known topic is decoded just when it is written in the grammar of the topic and makes
sense, and the event says what is written. The payload that is kept of an event is written in the
grammar too, so it is decoded to the same event. -/

namespace EventIndex

open Json

/-! ## The codecs of topics -/

/-- The codec reads and writes the payloads of the topic, and knows their fields. -/
structure PayloadCodec.Serves {α : Type} (c : PayloadCodec α) (wrap : α → Payload) (topic : Topic) :
    Prop where
  names : (c.form.fields.map Prod.fst).Nodup
  ofValues_toValues : ∀ a, c.ofValues (c.toValues a) = a
  toValues_ofValues : ∀ vs, c.toValues (c.ofValues vs) = vs
  data : ∀ a, (wrap a).data = PayloadForm.dataOf c.form.fields (c.toValues a)
  topic_iff : ∀ p : Payload, p.topic = topic ↔ ∃ a, wrap a = p
  ofJson? : ∀ v, Payload.ofJson? topic v = some ((c.ofJson v).map wrap)
  toJson : ∀ a, (wrap a).toJson = c.codec.toJson a

theorem Topic.exists_serves {topic : Topic} (h : topic.isKnown) :
    ∃ (α : Type) (c : PayloadCodec α) (wrap : α → Payload), c.Serves wrap topic := by
  cases topic
  case unknown => cases h
  case' tradeExecuted => refine ⟨_, TradeExecuted.codec, .tradeExecuted, ?_⟩
  case' proposalCreated => refine ⟨_, ProposalCreated.codec, .proposalCreated, ?_⟩
  case' proposalApproved => refine ⟨_, ProposalApproved.codec, .proposalApproved, ?_⟩
  case' proposalRejected => refine ⟨_, ProposalRejected.codec, .proposalRejected, ?_⟩
  case' proposalCancelled => refine ⟨_, ProposalCancelled.codec, .proposalCancelled, ?_⟩
  case' proposalExecuted => refine ⟨_, ProposalExecuted.codec, .proposalExecuted, ?_⟩
  case' rewardAdded => refine ⟨_, RewardAdded.codec, .rewardAdded, ?_⟩
  case' rewardClaimed => refine ⟨_, RewardClaimed.codec, .rewardClaimed, ?_⟩
  case' grant => refine ⟨_, GrantCreated.codec, .grant, ?_⟩
  case' claim => refine ⟨_, GrantClaimed.codec, .claim, ?_⟩
  case' revoke => refine ⟨_, GrantRevoked.codec, .revoke, ?_⟩
  all_goals
    exact ⟨by decide, fun _ => rfl, fun _ => rfl, fun _ => rfl,
      fun p => by cases p <;> simp [Payload.topic], fun _ => rfl, fun _ => rfl⟩

namespace PayloadCodec.Serves

variable {α : Type} {c : PayloadCodec α} {wrap : α → Payload} {topic : Topic}

theorem read_of_writtenAs (hc : c.Serves wrap topic) {a : α} {v : Json}
    (h : WrittenAs (wrap a).data v) : c.ofJson v = .ok a := by
  rw [hc.data] at h
  exact map_eq_ok_iff.mpr ⟨_, PayloadForm.ofJson_of_writtenAs hc.names h, hc.ofValues_toValues a⟩

theorem writtenAs_of_read (hc : c.Serves wrap topic) {a : α} {v : Json} (hv : v.Formed)
    (h : c.ofJson v = .ok a) : WrittenAs (wrap a).data v := by
  obtain ⟨vs, hvs, rfl⟩ := map_eq_ok_iff.mp h
  rw [hc.data, hc.toValues_ofValues]
  exact PayloadForm.writtenAs_of_ofJson hc.names hv hvs

end PayloadCodec.Serves

/-! ## The grammar -/

variable {topic : Topic} {v : Json} {decoded : Decoded}

theorem decodePayload_eq_ok_iff {r : Except Json.Error Payload}
    (h : Payload.ofJson? topic v = some r) : decodePayload topic v = .ok decoded ↔
      ∃ p, r = .ok p ∧ p.Sensible ∧ decoded = .recognized p := by
  rw [decodePayload, h]
  cases r with
  | error e => simp
  | ok p =>
    refine map_eq_ok_iff.trans ⟨?_, ?_⟩
    · rintro ⟨⟨⟩, hcheck, rfl⟩
      exact ⟨p, rfl, Payload.check_eq_ok_iff.mp hcheck, rfl⟩
    · rintro ⟨q, hq, hsensible, rfl⟩
      obtain rfl := Except.ok.inj hq
      exact ⟨(), Payload.check_eq_ok_iff.mpr hsensible, rfl⟩

theorem decode_eq_ok {position : Position} :
    decode topic v position = .ok decoded ↔ decodePayload topic v = .ok decoded := by
  rw [decode]
  cases decodePayload topic v <;> simp [Except.mapError]

theorem decodePayload_of_writtenAs {p : Payload} (hknown : p.topic.isKnown) (hsensible : p.Sensible)
    (h : WrittenAs p.data v) : decodePayload p.topic v = .ok (.recognized p) := by
  obtain ⟨α, c, wrap, hc⟩ := Topic.exists_serves hknown
  obtain ⟨a, ha⟩ := (hc.topic_iff p).mp rfl
  rw [decodePayload_eq_ok_iff (hc.ofJson? v)]
  subst ha
  exact ⟨wrap a, congrArg (Except.map wrap) (hc.read_of_writtenAs h), hsensible, rfl⟩

/-- What is decoded for a known topic is a sensible payload of the topic. If the value is formed,
the payload is written there. -/
theorem exists_payload_of_decodePayload (hknown : topic.isKnown)
    (h : decodePayload topic v = .ok decoded) : ∃ p : Payload, decoded = .recognized p ∧
      p.topic = topic ∧ p.Sensible ∧ (v.Formed → WrittenAs p.data v) := by
  obtain ⟨α, c, wrap, hc⟩ := Topic.exists_serves hknown
  obtain ⟨p, hp, hsensible, rfl⟩ := (decodePayload_eq_ok_iff (hc.ofJson? v)).mp h
  obtain ⟨a, ha, rfl⟩ := map_eq_ok_iff.mp hp
  have htopic : (wrap a).topic = topic := (hc.topic_iff _).mpr ⟨a, rfl⟩
  exact ⟨wrap a, rfl, htopic, hsensible, fun hv => hc.writtenAs_of_read hv ha⟩

/-- A parsed value of a known topic is decoded to an event just when the event has the topic and
says a sensible payload that is written in the value: as an object with just the fields of the
payload, or as a list of them. Otherwise the error has the topic, the position and the value that
were given. -/
theorem decode_grammar (hknown : topic.isKnown) (hv : v.Parsed) (position : Position) :
    (∀ decoded, decode topic v position = .ok decoded ↔ decoded.topic = topic ∧
      ∃ p : Payload, decoded = .recognized p ∧ p.Sensible ∧ WrittenAs p.data v) ∧
    ∀ e, decode topic v position = .error e →
      e.topic = topic ∧ e.position = position ∧ e.payload = v := by
  refine ⟨fun decoded => decode_eq_ok.trans ⟨fun h => ?_, ?_⟩, fun e he => ?_⟩
  · obtain ⟨p, rfl, htopic, hsensible, hwritten⟩ := exists_payload_of_decodePayload hknown h
    exact ⟨htopic, p, rfl, hsensible, hwritten hv.formed⟩
  · rintro ⟨rfl, p, rfl, hsensible, hwritten⟩
    exact decodePayload_of_writtenAs hknown hsensible hwritten
  · rw [decode] at he
    cases hflaw : decodePayload topic v with
    | error flaw =>
      rw [hflaw] at he
      obtain rfl := Except.error.inj he
      exact ⟨rfl, rfl, rfl⟩
    | ok decoded =>
      rw [hflaw] at he
      cases he

/-- Leading zeros and a zero with a sign are read in strings. -/
theorem decode_grammar_of_list :
    let v := Json.array [.number "7", .string "0012", .string "-0"]
    v.Parsed ∧ decode .revoke v ⟨1, .replicate 0, 0⟩ = .ok (.recognized (.revoke ⟨7, 12, 0⟩)) := by
  intro v
  have hparsed : v.Parsed := ⟨1, "[7, \"0012\", \"-0\"]".toList, [], by decide +kernel⟩
  refine ⟨hparsed, ((decode_grammar rfl hparsed _).1 _).mpr ⟨rfl, _, rfl, ?_, .array ?_⟩⟩
  · exact Int.le_refl 0
  · exact .cons (.number (by decide)) (.cons (.string (by decide))
      (.cons (.string (by decide)) .nil))

/-! ## The payload that is kept -/

namespace FieldKind

theorem spelledBy_write (k : FieldKind) (a : k.type) :
    (k.datum a).SpelledBy (k.codec.write a).sorted :=
  match k with
  | text => rfl
  | word32 => .number (Text.spells_toString (UInt32.toNat a : Int))
  | word64 => .number (Text.spells_toString (UInt64.toNat a : Int))
  | amount => .string (Text.spells_toString (Amount.val a))

end FieldKind

theorem PayloadForm.written_toFields : (fs : List (String × FieldKind)) →
    (vs : Values (fieldList fs)) → List.Forall₂ WrittenField (dataOf fs vs)
      ((Values.toFields (fieldList fs) vs).map fun x => (x.1, x.2.sorted))
  | [], () => .nil
  | (_, k) :: fs, (a, as) => .cons ⟨rfl, k.spelledBy_write a⟩ (written_toFields fs as)

theorem PayloadForm.names_fieldList (fs : List (String × FieldKind)) :
    (fieldList fs).map Field.name = fs.map Prod.fst := by
  simp [fieldList, FieldKind.field, Codec.field]

theorem PayloadCodec.Serves.writtenAs_toJson {α : Type} {c : PayloadCodec α} {wrap : α → Payload}
    (hc : c.Serves wrap topic) (a : α) : WrittenAs (wrap a).data (wrap a).toJson := by
  have hnames : (Values.toFields c.form.record.fields (c.toValues a)).map Prod.fst =
      c.form.fields.map Prod.fst :=
    (Slots.names_toFields _ _).trans (PayloadForm.names_fieldList _)
  rw [hc.data, hc.toJson]
  exact .object (perm_sortedFields (hnames ▸ hc.names)) (PayloadForm.written_toFields _ _)

theorem Payload.writtenAs_toJson (p : Payload) : WrittenAs p.data p.toJson := by
  have hknown : p.topic.isKnown := by cases p <;> rfl
  obtain ⟨α, c, wrap, hc⟩ := Topic.exists_serves hknown
  obtain ⟨a, rfl⟩ := (hc.topic_iff p).mp rfl
  exact hc.writtenAs_toJson a

theorem decodePayload_toJson {p : Payload} (h : decodePayload topic v = .ok (.recognized p)) :
    decodePayload topic p.toJson = .ok (.recognized p) := by
  have hknown : topic.isKnown := by
    cases topic with
    | unknown name => cases h
    | _ => rfl
  obtain ⟨q, hq, rfl, hsensible, -⟩ := exists_payload_of_decodePayload hknown h
  obtain rfl := Decoded.recognized.inj hq
  exact decodePayload_of_writtenAs hknown hsensible p.writtenAs_toJson

/-- The payload that is kept of a recognized event is decoded to the same event at every position.
So the events of a topic are the same just when the payloads that are kept of them are. -/
theorem decode_payloadJson {name : String} {position : Position}
    (h : decode (.classify name) v position = .ok decoded)
    (hrecognized : decoded.isUnrecognized = false) :
    ∃ kept, decoded.payloadJson = some kept ∧
      (∀ position', decode (.classify name) kept position' = .ok decoded) ∧
      ∀ v' position' decoded', decode (.classify name) v' position' = .ok decoded' →
        (decoded'.payloadJson = decoded.payloadJson ↔ decoded' = decoded) := by
  cases decoded with
  | unrecognized topic raw => cases hrecognized
  | recognized p =>
    have hkept := decodePayload_toJson (decode_eq_ok.mp h)
    refine ⟨p.toJson, rfl, fun position' => decode_eq_ok.mpr hkept, ?_⟩
    intro v' position' decoded' h'
    refine ⟨fun heq => ?_, congrArg Decoded.payloadJson⟩
    cases decoded' with
    | unrecognized topic raw => cases heq
    | recognized q =>
      have hkept' := decodePayload_toJson (decode_eq_ok.mp h')
      rw [Option.some.inj heq, hkept] at hkept'
      exact (Except.ok.inj hkept').symm

/-- A revoked grant that was given as a list with its numbers in strings is kept as an object. -/
theorem decode_payloadJson_of_list :
    let v := Json.array [.number "7", .string "0012", .string "-0"]
    let kept := Json.object [("grant_id", .number "7"), ("revoked_at", .number "12"),
      ("unvested_amount", .string "0")]
    let decoded := Decoded.recognized (.revoke ⟨7, 12, 0⟩)
    decode (.classify "REVOKE") v ⟨1, .replicate 0, 0⟩ = .ok decoded ∧
      decoded.payloadJson = some kept ∧
      decode (.classify "REVOKE") kept ⟨2, .replicate 0, 0⟩ = .ok decoded := by
  intro v kept decoded
  have hdecode : decode (.classify "REVOKE") v ⟨1, .replicate 0, 0⟩ = .ok decoded := by
    rw [decode_eq_ok]
    refine decodePayload_of_writtenAs (p := .revoke ⟨7, 12, 0⟩) rfl ?_ (.array ?_)
    · exact Int.le_refl 0
    · exact .cons (.number (by decide)) (.cons (.string (by decide))
        (.cons (.string (by decide)) .nil))
  obtain ⟨kept', hkept, hagain, -⟩ := decode_payloadJson hdecode rfl
  obtain rfl : kept = kept' := Option.some.inj hkept
  exact ⟨hdecode, hkept, hagain _⟩

end EventIndex
