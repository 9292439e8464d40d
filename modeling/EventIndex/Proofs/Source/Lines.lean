import EventIndex.Proofs.Json.Value
import EventIndex.Proofs.Position.Text
import EventIndex.Proofs.Source.Selection
import EventIndex.Proofs.Time.Text

/-! # Events in lines of text

An event that is written on a line of its own is read back, so a text of such lines and of blank
ones gives just the events, in their order. Of the lines that are neither, the first one is named by
its number among all lines. -/

namespace EventIndex

open Json

/-! ## Events read back -/

namespace RawEvent

/-- The payload was read from a text, and it can stand inside the text of the event. -/
structure Writable (e : RawEvent) : Prop where
  payload_read : ∃ s, Json.ofText s = .ok e.payload
  payload_plain : e.payload.Plain 126

theorem ofText_text {e : RawEvent} (h : e.Writable) : codec.ofText (codec.text e) = .ok e := by
  obtain ⟨s, hs⟩ := h.payload_read
  have hpayload : Codec.json.ReadsBack 126 e.payload := reads_value hs h.payload_plain
  have htimestamp : Codec.timestamp.Faithful 0 := Codec.faithful_parsed fun t => by
    rw [Timestamp.ofText_text]
    rfl
  apply Codec.ofText_text
  apply Codec.readsBack_record rfl (by decide)
  exact ⟨ContractId.faithful_codec _ _ (Nat.zero_le _), Codec.faithful_string _ _ (Nat.zero_le _),
    hpayload, Codec.faithful_word32 _ _ (Nat.zero_le _), htimestamp _ _ (Nat.zero_le _),
    TxHash.faithful_codec _ _ (Nat.zero_le _), Codec.faithful_word32 _ _ (Nat.zero_le _), trivial⟩

theorem oneLine_write {e : RawEvent} (h : e.payload.OneLine) : (codec.write e).OneLine := by
  apply oneLine_object
  intro x hx
  have hfield : x ∈ [("contract_id", Json.string e.contract.address), ("topic", .string e.topic),
      ("payload", e.payload), ("ledger", Json.ofNat e.ledger.toNat),
      ("ledger_closed_at", .string e.ledgerClosedAt.text), ("tx_hash", .string e.txHash.text),
      ("event_index", Json.ofNat e.eventIndex.toNat)] := hx
  simp only [List.mem_cons, List.not_mem_nil, or_false] at hfield
  rcases hfield with rfl | rfl | rfl | rfl | rfl | rfl | rfl
  · exact oneLine_string _
  · exact oneLine_string _
  · exact h
  · exact oneLine_ofNat _
  · exact oneLine_string _
  · exact oneLine_string _
  · exact oneLine_ofNat _

theorem feed_not_mem_text {e : RawEvent} (h : e.payload.OneLine) :
    '\n' ∉ (codec.text e).toList := by
  rw [Codec.text, Json.text, String.toList_ofList]
  exact oneLine_write h

theorem Writable.feed_not_mem {e : RawEvent} (h : e.Writable) : '\n' ∉ (codec.text e).toList := by
  obtain ⟨s, hs⟩ := h.payload_read
  exact feed_not_mem_text (formed_of_ofText hs).oneLine

theorem isBlankText_text (e : RawEvent) : Text.isBlankText (codec.text e) = false := by
  rw [Codec.text, Json.text, Text.isBlankText, String.toList_ofList]
  rfl

theorem text_ne_empty (e : RawEvent) : codec.text e ≠ "" := by
  intro h
  have hblank := e.isBlankText_text
  rw [h] at hblank
  cases hblank

end RawEvent

namespace MemorySource

/-! ## Lines of a text -/

/-- The text consists of these lines. A line ends with a line feed, which a carriage return may
precede; the last one need not end. -/
inductive Lines : List Char → List String → Prop
  | nil : Lines [] []
  | last {l : String} (h : l ≠ "") : Lines l.toList [l]
  | feed {l : String} {cs : List Char} {ls : List String} (h : l.toList.getLast? ≠ some '\r')
    (more : Lines cs ls) : Lines (l.toList ++ '\n' :: cs) (l :: ls)
  | returnFeed {l : String} {cs : List Char} {ls : List String} (more : Lines cs ls) :
    Lines (l.toList ++ '\r' :: '\n' :: cs) (l :: ls)

def withoutReturn (cs : List Char) : List Char :=
  if cs.getLast? = some '\r' then cs.dropLast else cs

theorem linesOf_feed {line : List Char} (h : '\n' ∉ line) (cs : List Char) :
    linesOf (.ofList (line ++ '\n' :: cs)) =
      .ofList (withoutReturn line) :: linesOf (.ofList cs) := by
  have hsplit : (line ++ '\n' :: cs).splitOn '\n' = line :: cs.splitOn '\n' :=
    List.splitOnP_append_cons_of_forall_mem
      (fun c hc => by simpa using ne_of_mem_of_not_mem hc h) '\n' (by simp) cs
  have hne : cs.splitOn '\n' ≠ [] := List.splitOn_ne_nil _ _
  simp only [linesOf, String.toList_ofList, hsplit, List.dropLast_cons_of_ne_nil hne,
    List.getLast?_cons_of_ne_nil hne, List.map_cons, List.cons_append, withoutReturn]

theorem linesOf_last {l : String} (h : '\n' ∉ l.toList) (hne : l ≠ "") : linesOf l = [l] := by
  have hsplit : l.toList.splitOn '\n' = [l.toList] := List.splitOn_eq_singleton h
  simp [linesOf, hsplit, hne]

theorem linesOf_eq {cs : List Char} {ls : List String} (h : Lines cs ls)
    (hfeed : ∀ l ∈ ls, '\n' ∉ l.toList) : linesOf (.ofList cs) = ls := by
  induction h with
  | nil => rfl
  | @last l hne =>
    rw [String.ofList_toList]
    exact linesOf_last (hfeed l List.mem_cons_self) hne
  | @feed l cs ls hreturn _ ih =>
    obtain ⟨hl, hls⟩ := List.forall_mem_cons.mp hfeed
    rw [linesOf_feed hl, ih hls, withoutReturn, if_neg hreturn, String.ofList_toList]
  | @returnFeed l cs ls _ ih =>
    obtain ⟨hl, hls⟩ := List.forall_mem_cons.mp hfeed
    have hreturn : '\n' ∉ l.toList ++ ['\r'] := by simp [hl]
    have hline := linesOf_feed hreturn cs
    simp only [List.append_assoc, List.singleton_append] at hline
    rw [hline, ih hls, withoutReturn, if_pos (by simp), List.dropLast_concat, String.ofList_toList]

/-! ## Events of the lines -/

/-- The lines are the events as they are written, with blank lines anywhere. -/
inductive Spaced : List RawEvent → List String → Prop
  | nil : Spaced [] []
  | blank {l : String} {es : List RawEvent} {ls : List String} (hblank : Text.isBlankText l)
    (hfeed : '\n' ∉ l.toList) (more : Spaced es ls) : Spaced es (l :: ls)
  | event {e : RawEvent} {es : List RawEvent} {ls : List String} (more : Spaced es ls) :
    Spaced (e :: es) (RawEvent.codec.text e :: ls)

/-- The events of the lines that are not blank; the first line has the number `number`. -/
def readLines (number : Nat) (ls : List String) : Except SourceError (List RawEvent) :=
  ((ls.zipIdx number).filter fun (line, _) => !Text.isBlankText line).mapM
    fun (line, number) => eventOfLine line number

theorem ofLines_eq (s : String) : ofLines s = (readLines 1 (linesOf s)).map ofEvents := by
  rw [ofLines, readLines]
  rfl

theorem readLines_blank {l : String} (h : Text.isBlankText l) (number : Nat) (ls : List String) :
    readLines number (l :: ls) = readLines (number + 1) ls := by
  simp [readLines, List.zipIdx_cons, h]

theorem readLines_cons {l : String} (h : Text.isBlankText l = false) (number : Nat)
    (ls : List String) :
    readLines number (l :: ls) = (do
      let e ← eventOfLine l number
      return e :: (← readLines (number + 1) ls)) := by
  simp [readLines, List.zipIdx_cons, h]

theorem readLines_spaced {es : List RawEvent} {ls : List String} (h : Spaced es ls)
    (hes : ∀ e ∈ es, e.Writable) (number : Nat) (more : List String) :
    readLines number (ls ++ more) = (readLines (number + ls.length) more).map (es ++ ·) := by
  induction h generalizing number with
  | nil => cases h : readLines number more <;> simp [h, Except.map]
  | @blank l es ls hblank _ _ ih =>
    rw [List.cons_append, readLines_blank hblank, ih hes, List.length_cons, Nat.add_right_comm,
      Nat.add_assoc]
  | @event e es ls _ ih =>
    obtain ⟨he, hes⟩ := List.forall_mem_cons.mp hes
    have hline : eventOfLine (RawEvent.codec.text e) number = .ok e := by
      rw [eventOfLine, RawEvent.ofText_text he]
      rfl
    rw [List.cons_append, readLines_cons e.isBlankText_text, hline, ih hes, List.length_cons,
      Nat.add_right_comm, Nat.add_assoc]
    cases readLines (number + (ls.length + 1)) more <;> rfl

theorem Spaced.feed_not_mem {es : List RawEvent} {ls : List String} (h : Spaced es ls)
    (hes : ∀ e ∈ es, e.Writable) : ∀ l ∈ ls, '\n' ∉ l.toList := by
  induction h with
  | nil => simp
  | blank _ hfeed _ ih => exact List.forall_mem_cons.mpr ⟨hfeed, ih hes⟩
  | event _ ih =>
    obtain ⟨he, hes⟩ := List.forall_mem_cons.mp hes
    exact List.forall_mem_cons.mpr ⟨he.feed_not_mem, ih hes⟩

/-- A text of written events and blank lines gives just these events, each contract's in their
order. If a line that is neither blank nor an event comes after them, it is named by its number,
whatever follows. -/
theorem ofLines_written {es : List RawEvent} {ls : List String} (h : Spaced es ls)
    (hes : ∀ e ∈ es, e.Writable) :
    (∀ s : String, Lines s.toList ls → ∃ source, ofLines s = .ok source ∧
      ∀ contract, source.eventsOf contract = es.filter (·.contract = contract)) ∧
    ∀ (l : String) (after : List String) (reason : Json.Error) (s : String),
      Text.isBlankText l = false → RawEvent.codec.ofText l = .error reason →
      Lines s.toList (ls ++ l :: after) → (∀ k ∈ l :: after, '\n' ∉ k.toList) →
      ofLines s = .error (.invalidLine (ls.length + 1) reason.message) := by
  constructor
  · intro s hs
    have hlines := linesOf_eq hs (h.feed_not_mem hes)
    have hread := readLines_spaced h hes 1 []
    rw [String.ofList_toList] at hlines
    rw [List.append_nil] at hread
    refine ⟨ofEvents es, ?_, eventsOf_ofEvents es⟩
    have hnone : readLines (1 + ls.length) [] = .ok [] := rfl
    rw [ofLines_eq, hlines, hread, hnone]
    simp [Except.map]
  · intro l after reason s hblank hl hs hfeed
    have hall : ∀ k ∈ ls ++ l :: after, '\n' ∉ k.toList := by
      intro k hk
      exact (List.mem_append.mp hk).elim (h.feed_not_mem hes k) (hfeed k)
    have hlines := linesOf_eq hs hall
    have hline : eventOfLine l (1 + ls.length) =
        .error (.invalidLine (1 + ls.length) reason.message) := by
      rw [eventOfLine, hl]
      rfl
    rw [String.ofList_toList] at hlines
    rw [ofLines_eq, hlines, readLines_spaced h hes, readLines_cons hblank, hline, Nat.add_comm]
    rfl

/-- A blank line, an event with a nested payload, and a line that is no event. The payload has a
field whose name would count if it came first. -/
theorem ofLines_written_of_nested :
    let payload : Json := .object [("!", .array [.number "1.50"]), (textKey, .string "2")]
    let event : RawEvent := ⟨⟨"C"⟩, "NOTE", payload, 1, .epoch, .replicate 0, 0⟩
    let line := (RawEvent.codec.text event).toList
    (∃ source, ofLines (.ofList (" ".toList ++ '\r' :: '\n' :: line)) = .ok source ∧
      source.eventsOf ⟨"C"⟩ = [event]) ∧
    ofLines (.ofList (" ".toList ++ '\r' :: '\n' :: (line ++ '\r' :: '\n' :: "?".toList))) =
      .error (.invalidLine 3 "expected value") := by
  intro payload event line
  have hpayload : Json.ofText ("\x7b\"!\":[1.50],\"" ++ textKey ++ "\":\"2\"\x7d") = .ok payload := by
    decide +kernel
  have hevent : event.Writable := ⟨⟨_, hpayload⟩, by decide, by decide, by decide⟩
  have hspaced : Spaced [event] [" ", RawEvent.codec.text event] :=
    .blank (by decide) (by decide) (.event .nil)
  obtain ⟨hread, hrefused⟩ := ofLines_written hspaced (by simpa using hevent)
  constructor
  · obtain ⟨source, hsource, hevents⟩ := hread (.ofList (" ".toList ++ '\r' :: '\n' :: line)) <| by
      rw [String.toList_ofList]
      exact .returnFeed (.last event.text_ne_empty)
    exact ⟨source, hsource, hevents ⟨"C"⟩⟩
  · refine hrefused "?" [] .expectedValue _ (by decide) (by decide +kernel) ?_ (by decide)
    rw [String.toList_ofList]
    exact .returnFeed (.returnFeed (.last (by decide)))

/-- A payload with a field by whose name an object stands for the value in a text. The field is not
the first one where the payload is read, and comes first where the event is written, which is then
refused. -/
theorem ofLines_textKey_refused :
    let payload : Json := .object [(textKey, .string "2"), ("z", .number "1")]
    let event : RawEvent := ⟨⟨"C"⟩, "NOTE", payload, 1, .epoch, .replicate 0, 0⟩
    (∃ s, Json.ofText s = .ok payload) ∧ payload.depth ≤ 126 ∧
      (∀ fields ∈ payload.objects, numberKey ∉ fields.map Prod.fst) ∧
      ofLines (RawEvent.codec.text event) = .error (.invalidLine 1 "trailing comma") := by
  intro payload event
  have hrefused : RawEvent.codec.ofText (RawEvent.codec.text event) = .error .trailingComma := by
    rw [Codec.ofText_text_eq]
    decide +kernel
  have hline : linesOf (RawEvent.codec.text event) = [RawEvent.codec.text event] :=
    linesOf_last (event.feed_not_mem_text (by decide)) event.text_ne_empty
  refine ⟨⟨"\x7b\"z\":1,\"" ++ textKey ++ "\":\"2\"\x7d", by decide +kernel⟩, by decide,
    by decide, ?_⟩
  rw [ofLines_eq, hline, readLines_cons event.isBlankText_text, eventOfLine, hrefused]
  rfl

end MemorySource

end EventIndex
