import EventIndex.Proofs.Log.Maxima
import EventIndex.Proofs.Source.Selection

/-! # Pages of a source

Sorted events that are fetched in pages, each going on after the last position of the one before it.
Where a page ends between events of one position, the others at this position are left out. -/

namespace EventIndex

def Sorted (es : List RawEvent) : Prop :=
  es.Pairwise fun e f => e.position ≤ f.position

/-- The pages of events: each begins after the last position of the one before it, and has at most
`size` events. -/
def pages (size : Nat) : List RawEvent → List (List RawEvent)
  | [] => []
  | e :: es =>
    let page := e :: es.take (size - 1)
    let last := page.getLast (List.cons_ne_nil _ _)
    page :: pages size (es.filter (last.position < ·.position))
termination_by es => es.length
decreasing_by exact Nat.lt_succ_of_le (List.length_filter_le _ _)

/-- The first page of sorted events, which ends at the position `reached`, and the events that are
left of them. -/
structure Turned (size : Nat) (es page : List RawEvent) (reached : Position)
    (left : List RawEvent) : Prop where
  page_eq : page = es.take size
  eq_append : es = page ++ left
  page_le : ∀ e ∈ page, e.position ≤ reached
  exists_mem : ∃ e ∈ page, e.position = reached
  le_left : ∀ e ∈ left, reached ≤ e.position
  pages_eq : pages size es = page :: pages size (es.filter (reached < ·.position))

theorem Sorted.turned {es : List RawEvent} (h : Sorted es) (hne : es ≠ []) {size : Nat}
    (hsize : size ≠ 0) : ∃ page reached left, Turned size es page reached left := by
  obtain ⟨e, es, rfl⟩ := List.exists_cons_of_ne_nil hne
  obtain ⟨n, rfl⟩ := Nat.exists_eq_succ_of_ne_zero hsize
  let page := e :: es.take n
  have hpage : page ≠ [] := List.cons_ne_nil _ _
  let last := page.getLast hpage
  have hlast : last ∈ page := List.getLast_mem hpage
  have hsplit : e :: es = page ++ es.drop n := by simp [page]
  obtain ⟨hsorted, -, hcross⟩ := List.pairwise_append.mp (hsplit ▸ h)
  have hle : ∀ f ∈ page, f.position ≤ last.position := by
    intro f hf
    have hinit := List.dropLast_append_getLast hpage
    rw [← hinit] at hsorted hf
    rcases List.mem_append.mp hf with hf | hf
    · exact (List.pairwise_append.mp hsorted).2.2 f hf last (List.mem_singleton_self _)
    · rw [List.mem_singleton.mp hf]
  refine ⟨page, last.position, es.drop n, rfl, hsplit, hle, ⟨last, hlast, rfl⟩,
    fun f hf => hcross last hlast f hf, ?_⟩
  have hfirst : ¬ last.position < e.position := (hle e List.mem_cons_self).not_gt
  rw [pages, List.filter_cons_of_neg (by simpa using hfirst)]
  rfl

namespace Turned

variable {size : Nat} {es page left : List RawEvent} {reached : Position}

theorem filter_eq (h : Turned size es page reached left) :
    es.filter (reached < ·.position) = left.filter (reached < ·.position) := by
  have hnone : page.filter (reached < ·.position) = [] :=
    List.filter_eq_nil_iff.mpr fun e he => by simpa using h.page_le e he
  rw [h.eq_append, List.filter_append, hnone, List.nil_append]

theorem length_lt (h : Turned size es page reached left) :
    (es.filter (reached < ·.position)).length < es.length := by
  obtain ⟨e, he, hposition⟩ := h.exists_mem
  refine List.length_filter_lt_length_iff_exists.mpr ⟨e, ?_, by simp [hposition]⟩
  rw [h.eq_append]
  exact List.mem_append_left _ he

end Turned

theorem Sorted.filter {es : List RawEvent} (h : Sorted es) (keep : RawEvent → Bool) :
    Sorted (es.filter keep) :=
  List.Pairwise.filter keep h

/-- Sorted events page by page. -/
@[elab_as_elim] theorem Sorted.pages_induction {size : Nat} (hsize : size ≠ 0)
    {motive : (es : List RawEvent) → Sorted es → Prop} (nil : ∀ h, motive [] h)
    (turn : ∀ (es page : List RawEvent) (reached : Position) (left : List RawEvent)
      (h : Sorted es), Turned size es page reached left →
        motive (es.filter (reached < ·.position)) (h.filter _) → motive es h)
    {es : List RawEvent} (h : Sorted es) : motive es h := by
  induction hn : es.length using Nat.strong_induction_on generalizing es with
  | _ n ih =>
    by_cases hne : es = []
    · subst hne
      exact nil h
    · obtain ⟨page, reached, left, hturned⟩ := h.turned hne hsize
      exact turn es page reached left h hturned (ih _ (hn ▸ hturned.length_lt) (h.filter _) rfl)

/-! ## The events that are delivered -/

section Delivered

variable {size : Nat} {es : List RawEvent}

theorem Sorted.flatten_pages_sublist (h : Sorted es) (hsize : size ≠ 0) :
    (pages size es).flatten.Sublist es := by
  induction h using Sorted.pages_induction hsize with
  | nil => simp [pages]
  | turn es page reached left h hturned ih =>
    rw [hturned.pages_eq, List.flatten_cons]
    rw [hturned.filter_eq] at ih ⊢
    rw [hturned.eq_append]
    exact (ih.trans List.filter_sublist).append_left page

theorem Sorted.flatten_pages (h : Sorted es) (hsize : size ≠ 0) : Sorted (pages size es).flatten :=
  List.Pairwise.sublist (h.flatten_pages_sublist hsize) h

namespace Turned

variable {page left : List RawEvent} {reached q : Position}

/-- Up to the position that was reached, what is delivered is in the page. -/
theorem filter_flatten_of_le (hsize : size ≠ 0) (hsorted : Sorted es)
    (h : Turned size es page reached left) (hq : q ≤ reached) :
    (pages size es).flatten.filter (·.position = q) = page.filter (·.position = q) := by
  have hnone : (pages size (es.filter (reached < ·.position))).flatten.filter
      (·.position = q) = [] := by
    refine List.filter_eq_nil_iff.mpr fun e he => ?_
    have hmem := ((hsorted.filter _).flatten_pages_sublist hsize).subset he
    have hlt : reached < e.position := by simpa using List.of_mem_filter hmem
    simpa using (hq.trans_lt hlt).ne'
  rw [h.pages_eq, List.flatten_cons, List.filter_append, hnone, List.append_nil]

/-- After it, what is delivered is in the later pages, from what is after it. -/
theorem filter_flatten_of_lt (h : Turned size es page reached left) (hq : reached < q) :
    (pages size es).flatten.filter (·.position = q) =
        (pages size (es.filter (reached < ·.position))).flatten.filter (·.position = q) ∧
      (es.filter (reached < ·.position)).filter (·.position = q) = es.filter (·.position = q) := by
  have hnone : page.filter (·.position = q) = [] :=
    List.filter_eq_nil_iff.mpr fun e he => by simpa using ((h.page_le e he).trans_lt hq).ne
  constructor
  · rw [h.pages_eq, List.flatten_cons, List.filter_append, hnone, List.nil_append]
  · rw [List.filter_filter]
    refine List.filter_congr fun e _ => ?_
    by_cases he : e.position = q <;> simp [he, hq]

end Turned

theorem Sorted.filter_flatten_prefix (h : Sorted es) (hsize : size ≠ 0) (q : Position) :
    (pages size es).flatten.filter (·.position = q) <+: es.filter (·.position = q) := by
  induction h using Sorted.pages_induction hsize with
  | nil => simp [pages]
  | turn es page reached left h hturned ih =>
    rcases le_or_gt q reached with hq | hq
    · rw [hturned.filter_flatten_of_le hsize h hq]
      rw [hturned.eq_append, List.filter_append]
      exact List.prefix_append _ _
    · obtain ⟨hdelivered, hall⟩ := hturned.filter_flatten_of_lt hq
      rwa [hdelivered, ← hall]

theorem Sorted.find?_flatten_pages (h : Sorted es) (hsize : size ≠ 0) (q : Position) :
    (pages size es).flatten.find? (·.position = q) = es.find? (·.position = q) := by
  induction h using Sorted.pages_induction hsize with
  | nil => simp [pages]
  | turn es page reached left h hturned ih =>
    rw [← List.head?_filter, ← List.head?_filter] at ih ⊢
    rcases le_or_gt q reached with hq | hq
    · rw [hturned.filter_flatten_of_le hsize h hq]
      rw [hturned.eq_append, List.filter_append]
      by_cases hpage : page.filter (·.position = q) = []
      · -- The page has events at the position that it reaches, so that one is later.
        obtain ⟨e, he, hreached⟩ := hturned.exists_mem
        have hne : reached ≠ q := by
          rintro rfl
          exact List.filter_eq_nil_iff.mp hpage e he (by simpa using hreached)
        have hleft : left.filter (·.position = q) = [] :=
          List.filter_eq_nil_iff.mpr fun f hf => by
            simpa using ((lt_of_le_of_ne hq hne.symm).trans_le (hturned.le_left f hf)).ne'
        rw [hpage, hleft, List.append_nil]
      · rw [List.head?_append_of_ne_nil _ hpage]
    · obtain ⟨hdelivered, hall⟩ := hturned.filter_flatten_of_lt hq
      rwa [hdelivered, ← hall]

/-- The events delivered at a position are in one page. -/
theorem Sorted.filter_flatten_of_mem (h : Sorted es) (hsize : size ≠ 0) {page : List RawEvent}
    (hpage : page ∈ pages size es) {e : RawEvent} (he : e ∈ page) :
    (pages size es).flatten.filter (·.position = e.position) =
      page.filter (·.position = e.position) := by
  induction h using Sorted.pages_induction hsize with
  | nil => simp [pages] at hpage
  | turn es first reached left h hturned ih =>
    rw [hturned.pages_eq] at hpage
    rcases List.mem_cons.mp hpage with rfl | hpage
    · exact hturned.filter_flatten_of_le hsize h (hturned.page_le e he)
    · have hdelivered := List.mem_flatten_of_mem hpage he
      have hmem := ((h.filter _).flatten_pages_sublist hsize).subset hdelivered
      have hlt : reached < e.position := by simpa using List.of_mem_filter hmem
      exact (hturned.filter_flatten_of_lt hlt).1.trans (ih hpage)

/-- All events are delivered if and only if no page ends between events of one position. -/
theorem Sorted.flatten_pages_eq_iff (h : Sorted es) (hsize : size ≠ 0) :
    (pages size es).flatten = es ↔ ∀ page ∈ pages size es, ∀ e ∈ page,
      es.filter (·.position = e.position) = page.filter (·.position = e.position) := by
  constructor
  · intro hall page hpage e he
    rw [← h.filter_flatten_of_mem hsize hpage he, hall]
  · intro hpages
    refine MemorySource.eq_of_filter_position (h.flatten_pages hsize) h fun q => ?_
    cases hfind : es.find? (·.position = q) with
    | none =>
      have hdelivered := (h.find?_flatten_pages hsize q).trans hfind
      rw [List.find?_eq_none] at hfind hdelivered
      rw [List.filter_eq_nil_iff.mpr hfind, List.filter_eq_nil_iff.mpr hdelivered]
    | some e =>
      obtain rfl : e.position = q := by simpa using List.find?_some hfind
      have hmem := List.mem_of_find?_eq_some ((h.find?_flatten_pages hsize e.position).trans hfind)
      obtain ⟨page, hpage, he⟩ := List.mem_flatten.mp hmem
      rw [h.filter_flatten_of_mem hsize hpage he, hpages page hpage e he]

theorem Rising.flatten_pages (h : Rising es) (hsize : size ≠ 0) : (pages size es).flatten = es := by
  have hsorted : Sorted es := h.imp le_of_lt
  refine (h.sublist (hsorted.flatten_pages_sublist hsize)).eq_of_mem_iff h fun e =>
    ⟨fun he => (hsorted.flatten_pages_sublist hsize).subset he, fun he => ?_⟩
  have hmaxima : maxima [] es = es := Rising.maxima_eq (by simpa using h)
  have hfirst : e ∈ maxima [] es ↔ _ := mem_maxima_iff hsorted
  have hfind := (hfirst.mp (hmaxima.symm ▸ he)).2
  exact List.mem_of_find?_eq_some ((hsorted.find?_flatten_pages hsize _).trans hfind)

/-- The events that advance a checkpoint are delivered, whatever the size. -/
theorem Sorted.advancing_flatten_pages (h : Sorted es) (hsize : size ≠ 0)
    (checkpoint : Option Position) :
    advancing checkpoint (pages size es).flatten = advancing checkpoint es := by
  have hfind (fs : List RawEvent) (q : Position) :
      (fs.filter (RawEvent.isAhead checkpoint)).find? (·.position = q) =
        if checkpoint.all (· < q) then fs.find? (·.position = q) else none := by
    rw [List.find?_filter]
    split
    · rename_i hq
      congr 1
      funext e
      by_cases he : e.position = q <;> simp [he, RawEvent.isAhead, hq]
    · rename_i hq
      refine List.find?_eq_none.mpr fun e _ => ?_
      by_cases he : e.position = q <;> simp [he, RawEvent.isAhead, hq]
  refine (rising_advancing _ _).eq_of_mem_iff (rising_advancing _ _) fun e => ?_
  rw [advancing, mem_maxima_iff ((h.flatten_pages hsize).filter _), advancing,
    mem_maxima_iff (h.filter _), hfind, hfind, h.find?_flatten_pages hsize]

end Delivered

end EventIndex
