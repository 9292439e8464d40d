import EventIndex.Proofs.Program.Weakest

/-! # Conditions along a program

A weakest precondition speaks of the end of a program. A guard also says what must hold of the state
on the way, by what is left of the program. -/

namespace EventIndex

/-- What must hold of the state when so much of a program is left, whatever follows after it. -/
structure Guard (S : Signature) (σ : Type) where
  Holds : {α : Type} → Program S α → σ → Prop
  bind : ∀ {α β : Type} {p : Program S α} (f : α → Program S β) {s : σ},
    (∀ a, p ≠ .done a) → Holds p s → Holds (p >>= f) s

namespace Program

variable {S T : Signature} {σ τ α β : Type}

/-- What must hold before a program for the guard to hold all the way, and `Q` of the result and the
state at the end. -/
def along (rule : Rule S σ) (g : Guard S σ) : Program S α → (α → σ → Prop) → σ → Prop
  | done a, Q, s => Q a s
  | note line p, Q, s => g.Holds (note line p) s ∧ p.along rule g Q s
  | now p, Q, s => g.Holds (now p) s ∧ ∀ t, (p t).along rule g Q s
  | pause ms p, Q, s => g.Holds (pause ms p) s ∧ p.along rule g Q s
  | call op p, Q, s => g.Holds (call op p) s ∧ rule op (fun a => (p a).along rule g Q) s

section Sequence

variable {rule : Rule S σ} {g : Guard S σ} {Q Q' : α → σ → Prop} {s : σ}

theorem holds_of_along {p : Program S α} (h : p.along rule g Q s) (hp : ∀ a, p ≠ done a) :
    g.Holds p s := by
  cases p with
  | done a => exact absurd rfl (hp a)
  | note line p | now p | pause ms p | call op p => exact h.1

theorem along_mono (hmono : rule.Mono) (p : Program S α) (h : ∀ a s', Q a s' → Q' a s')
    (hp : p.along rule g Q s) : p.along rule g Q' s := by
  induction p generalizing s with
  | done a => exact h a s hp
  | note line p ih => exact ⟨hp.1, ih hp.2⟩
  | now p ih => exact ⟨hp.1, fun t => ih t (hp.2 t)⟩
  | pause ms p ih => exact ⟨hp.1, ih hp.2⟩
  | call op p ih => exact ⟨hp.1, hmono op (fun a s' => ih a) hp.2⟩

theorem along_bind (hmono : rule.Mono) (p : Program S α) {f : α → Program S β}
    {Q : β → σ → Prop} (h : p.along rule g (fun a => (f a).along rule g Q) s) :
    (p >>= f).along rule g Q s := by
  induction p generalizing s with
  | done a => exact h
  | note line p ih => exact ⟨g.bind f (by simp) h.1, ih h.2⟩
  | now p ih => exact ⟨g.bind f (by simp) h.1, fun t => ih t (h.2 t)⟩
  | pause ms p ih => exact ⟨g.bind f (by simp) h.1, ih h.2⟩
  | call op p ih => exact ⟨g.bind f (by simp) h.1, hmono op (fun a s' => ih a) h.2⟩

/-- What holds of the end by itself holds of it along with the guard, if there is one answer to each
operation. -/
theorem along_and_wp {answer : (op : S.Op) → σ → S.Answer op × σ} (p : Program S α)
    (h : p.along (.ofAnswer answer) g Q s) (h' : p.wp (.ofAnswer answer) Q' s) :
    p.along (.ofAnswer answer) g (fun a s => Q a s ∧ Q' a s) s := by
  induction p generalizing s with
  | done a => exact ⟨h, h'⟩
  | note line p ih => exact ⟨h.1, ih h.2 h'⟩
  | now p ih => exact ⟨h.1, fun t => ih t (h.2 t) (h' t)⟩
  | pause ms p ih => exact ⟨h.1, ih h.2 h'⟩
  | call op p ih => exact ⟨h.1, ih _ h.2 h'⟩

/-! ## Programs that no guard is concerned with -/

/-- The guard holds all the way through the program, whatever the state and the answers. -/
def Quiet (g : Guard S σ) : Program S α → Prop
  | done _ => True
  | note line p => (∀ s, g.Holds (note line p) s) ∧ p.Quiet g
  | now p => (∀ s, g.Holds (now p) s) ∧ ∀ t, (p t).Quiet g
  | pause ms p => (∀ s, g.Holds (pause ms p) s) ∧ p.Quiet g
  | call op p => (∀ s, g.Holds (call op p) s) ∧ ∀ a, (p a).Quiet g

theorem Quiet.along {p : Program S α} (h : p.Quiet g) (hmono : rule.Mono) (hp : p.wp rule Q s) :
    p.along rule g Q s := by
  induction p generalizing s with
  | done a => exact hp
  | note line p ih => exact ⟨h.1 s, ih h.2 hp⟩
  | now p ih => exact ⟨h.1 s, fun t => ih t (h.2 t) (hp t)⟩
  | pause ms p ih => exact ⟨h.1 s, ih h.2 hp⟩
  | call op p ih => exact ⟨h.1 s, hmono op (fun a s' => ih a (h.2 a)) hp⟩

theorem Quiet.bind {p : Program S α} (h : p.Quiet g) {f : α → Program S β}
    (hf : ∀ a, (f a).Quiet g) : (p >>= f).Quiet g := by
  induction p with
  | done a => exact hf a
  | note line p ih => exact ⟨fun s => g.bind f (by simp) (h.1 s), ih h.2⟩
  | now p ih => exact ⟨fun s => g.bind f (by simp) (h.1 s), fun t => ih t (h.2 t)⟩
  | pause ms p ih => exact ⟨fun s => g.bind f (by simp) (h.1 s), ih h.2⟩
  | call op p ih => exact ⟨fun s => g.bind f (by simp) (h.1 s), fun a => ih a (h.2 a)⟩

/-- After its first operation the program is quiet, so the guard is needed there only. -/
theorem along_call (hmono : rule.Mono) {op : S.Op} {p : S.Answer op → Program S α}
    (hquiet : ∀ a, (p a).Quiet g) (hg : g.Holds (call op p) s) (hp : (call op p).wp rule Q s) :
    (call op p).along rule g Q s :=
  ⟨hg, hmono op (fun a _ h => (hquiet a).along hmono h) hp⟩

end Sequence

/-! ## Programs within programs -/

theorem expand_ask (f : (op : S.Op) → Program T (S.Answer op)) (op : S.Op) :
    (ask op).expand f = f op :=
  bind_done (f op)

theorem expand_bind (f : (op : S.Op) → Program T (S.Answer op)) (p : Program S α)
    (next : α → Program S β) :
    (p >>= next).expand f = p.expand f >>= fun a => (next a).expand f := by
  change (p.bind next).expand f = (p.expand f).bind _
  induction p with
  | done a => rfl
  | note line p ih => simp only [bind, expand, ih]
  | now p ih => simp only [bind, expand, ih]
  | pause ms p ih => simp only [bind, expand, ih]
  | call op p ih => simp only [bind, expand, ih, bind_assoc]

/-! ## Running a guarded program -/

theorem step_of_along {rule : Rule S τ} {g : Guard S τ} {h : Handler S (StateM σ)}
    {R : σ → τ → Prop} (hobeys : h.Obeys rule R) (p : Program S α) {Q : α → τ → Prop} {s : σ}
    {t : τ} (hR : R s t) (hp : p.along rule g Q t) :
    ∃ t', R ((p.step h).run s).2 t' ∧ ((p.step h).run s).1.along rule g Q t' := by
  cases p with
  | done a => exact ⟨t, hR, hp⟩
  | note line p => exact ⟨t, hobeys.note line s t hR, hp.2⟩
  | now p => exact ⟨t, hobeys.now s t hR, hp.2 _⟩
  | pause ms p => exact ⟨t, hobeys.pause ms s t hR, hp.2⟩
  | call op p => exact hobeys.answer op _ s t hR hp.2

/-! ## Guarded programs that may fail -/

section Failing

variable {ε ε' : Type} {rule : Rule S σ} {g : Guard S σ} {s : σ}

theorem along_run_bind (hmono : rule.Mono) (x : ExceptT ε (Program S) α)
    {f : α → ExceptT ε (Program S) β} {Q : Except ε β → σ → Prop}
    (h : x.run.along rule g (fun r s =>
      match r with
      | .ok a => (f a).run.along rule g Q s
      | .error e => Q (.error e) s) s) : (x >>= f).run.along rule g Q s := by
  rw [ExceptT.run_bind]
  refine along_bind hmono _ (along_mono hmono _ ?_ h)
  intro r s' hr
  cases r <;> exact hr

theorem along_run_adapt (hmono : rule.Mono) (f : ε → ε') (x : ExceptT ε (Program S) α)
    {Q : Except ε' α → σ → Prop} (h : x.run.along rule g (fun r => Q (r.mapError f)) s) :
    (ExceptT.adapt f x).run.along rule g Q s := by
  rw [ExceptT.run_adapt, map_eq_pure_bind]
  exact along_bind hmono _ h

theorem Quiet.run_bind {x : ExceptT ε (Program S) α} {f : α → ExceptT ε (Program S) β}
    (h : x.run.Quiet g) (hf : ∀ a, (f a).run.Quiet g) : (x >>= f).run.Quiet g := by
  rw [ExceptT.run_bind]
  refine h.bind fun r => ?_
  cases r with
  | error e => trivial
  | ok a => exact hf a

end Failing

end Program

end EventIndex
