import EventIndex.Program

/-! # Weakest preconditions of programs

A rule says of each operation what must hold of the state before it, so that a property holds of
the answer and of the state after it. A program inherits this from its operations, whatever the
clock shows. -/

namespace EventIndex

/-- What must hold before an operation for a property to hold of its answer and the state after. -/
abbrev Rule (S : Signature) (σ : Type) : Type :=
  (op : S.Op) → (S.Answer op → σ → Prop) → σ → Prop

namespace Rule

variable {S : Signature} {σ : Type}

/-- The rule of operations that are answered by a function. -/
def ofAnswer (answer : (op : S.Op) → σ → S.Answer op × σ) : Rule S σ :=
  fun op Q s => Q (answer op s).1 (answer op s).2

/-- A rule that a weaker property keeps. -/
def Mono (rule : Rule S σ) : Prop :=
  ∀ op {Q Q' : S.Answer op → σ → Prop} {s}, (∀ a s', Q a s' → Q' a s') → rule op Q s → rule op Q' s

theorem mono_ofAnswer (answer : (op : S.Op) → σ → S.Answer op × σ) : (ofAnswer answer).Mono :=
  fun _ _ _ _ h hQ => h _ _ hQ

end Rule

namespace Program

variable {S : Signature} {σ α β : Type}

/-- What must hold before a program for `Q` to hold of its result and the state at its end. -/
def wp (rule : Rule S σ) : Program S α → (α → σ → Prop) → σ → Prop
  | done a, Q, s => Q a s
  | note _ p, Q, s => p.wp rule Q s
  | now p, Q, s => ∀ t, (p t).wp rule Q s
  | pause _ p, Q, s => p.wp rule Q s
  | call op p, Q, s => rule op (fun a => (p a).wp rule Q) s

/-- Does the first step of a program and gives what is left of it. A program at its end stays. -/
def step {m : Type → Type} [Monad m] (h : Handler S m) : Program S α → m (Program S α)
  | done a => pure (done a)
  | note line p => do
    h.note line
    pure p
  | now p => do return p (← h.now)
  | pause ms p => do
    h.pause ms
    pure p
  | call op p => do return p (← h.answer op)

section Sequence

variable (rule : Rule S σ)

theorem wp_bind (p : Program S α) (f : α → Program S β) (Q : β → σ → Prop) (s : σ) :
    (p >>= f).wp rule Q s = p.wp rule (fun a => (f a).wp rule Q) s := by
  change (p.bind f).wp rule Q s = _
  induction p generalizing s with
  | done a => rfl
  | note line p ih => exact ih s
  | now p ih => exact forall_congr fun t => ih t s
  | pause ms p ih => exact ih s
  | call op p ih =>
    change rule op (fun a => ((p a).bind f).wp rule Q) s = _
    rw [show (fun a => ((p a).bind f).wp rule Q) =
      fun a => (p a).wp rule fun b => (f b).wp rule Q from funext fun a => funext (ih a)]
    rfl

@[simp] theorem wp_pure (a : α) (Q : α → σ → Prop) (s : σ) :
    (pure a : Program S α).wp rule Q s = Q a s := rfl

@[simp] theorem wp_map (f : α → β) (p : Program S α) (Q : β → σ → Prop) (s : σ) :
    (f <$> p).wp rule Q s = p.wp rule (fun a => Q (f a)) s := by
  rw [map_eq_pure_bind, wp_bind]
  rfl

@[simp] theorem wp_ask (op : S.Op) (Q : S.Answer op → σ → Prop) (s : σ) :
    (ask op).wp rule Q s = rule op Q s := rfl

@[simp] theorem wp_clock (Q : Timestamp → σ → Prop) (s : σ) :
    (clock : Program S Timestamp).wp rule Q s = ∀ t, Q t s := rfl

end Sequence

theorem wp_mono {rule : Rule S σ} (hmono : rule.Mono) (p : Program S α) {Q Q' : α → σ → Prop}
    {s : σ} (h : ∀ a s', Q a s' → Q' a s') (hp : p.wp rule Q s) : p.wp rule Q' s := by
  induction p generalizing s with
  | done a => exact h a s hp
  | note line p ih => exact ih hp
  | now p ih => exact fun time => ih time (hp time)
  | pause ms p ih => exact ih hp
  | call op p ih => exact hmono op (fun a s' => ih a) hp

/-- A program that is done by other programs inherits its rule from them. -/
theorem wp_expand {T : Signature} (rule : Rule T σ) (f : (op : S.Op) → Program T (S.Answer op))
    (p : Program S α) (Q : α → σ → Prop) (s : σ) :
    (p.expand f).wp rule Q s = p.wp (fun op Q s => (f op).wp rule Q s) Q s := by
  induction p generalizing s with
  | done a => rfl
  | note line p ih => exact ih s
  | now p ih => exact forall_congr fun t => ih t s
  | pause ms p ih => exact ih s
  | call op p ih =>
    change ((f op) >>= fun a => (p a).expand f).wp rule Q s = _
    rw [wp_bind]
    exact congrArg (fun Q => (f op).wp rule Q s) (funext fun a => funext (ih a))

/-- Every program ends, if its operations are answered. -/
theorem wp_true (answer : (op : S.Op) → σ → S.Answer op × σ) (p : Program S α) (s : σ) :
    p.wp (.ofAnswer answer) (fun _ _ => True) s := by
  induction p generalizing s with
  | done a => trivial
  | note line p ih => exact ih s
  | now p ih => exact fun time => ih time s
  | pause ms p ih => exact ih s
  | call op p ih => exact ih _ _

end Program

/-! ## Running a program -/

/-- The handler does what the rule says, as seen through `R`, and its journal, clock and pauses are
beside the point. -/
structure Handler.Obeys {S : Signature} {σ τ : Type} (h : Handler S (StateM σ)) (rule : Rule S τ)
    (R : σ → τ → Prop) : Prop where
  note : ∀ line s t, R s t → R ((h.note line).run s).2 t
  now : ∀ s t, R s t → R (h.now.run s).2 t
  pause : ∀ ms s t, R s t → R ((h.pause ms).run s).2 t
  answer : ∀ op Q s t, R s t → rule op Q t →
    ∃ t', R ((h.answer op).run s).2 t' ∧ Q ((h.answer op).run s).1 t'

namespace Program

variable {S : Signature} {σ τ α β : Type}

theorem run_bind_run (h : Handler S (StateM σ)) (p : Program S α) (f : α → Program S β) (s : σ) :
    ((p >>= f).run h).run s = ((f ((p.run h).run s).1).run h).run ((p.run h).run s).2 := by
  change ((p.bind f).run h).run s = _
  rw [run_bind]
  rfl

theorem run_of_wp {rule : Rule S τ} {h : Handler S (StateM σ)} {R : σ → τ → Prop}
    (hobeys : h.Obeys rule R) (p : Program S α) {Q : α → τ → Prop} {s : σ} {t : τ} (hR : R s t)
    (hp : p.wp rule Q t) :
    ∃ t', R ((p.run h).run s).2 t' ∧ Q ((p.run h).run s).1 t' := by
  induction p generalizing s t with
  | done a => exact ⟨t, hR, hp⟩
  | note line p ih => exact ih (hobeys.note line s t hR) hp
  | now p ih => exact ih _ (hobeys.now s t hR) (hp _)
  | pause ms p ih => exact ih (hobeys.pause ms s t hR) hp
  | call op p ih =>
    obtain ⟨t', hR', hp'⟩ := hobeys.answer op _ s t hR hp
    exact ih _ hR' hp'

theorem step_of_wp {rule : Rule S τ} {h : Handler S (StateM σ)} {R : σ → τ → Prop}
    (hobeys : h.Obeys rule R) (p : Program S α) {Q : α → τ → Prop} {s : σ} {t : τ} (hR : R s t)
    (hp : p.wp rule Q t) :
    ∃ t', R ((p.step h).run s).2 t' ∧ ((p.step h).run s).1.wp rule Q t' := by
  cases p with
  | done a => exact ⟨t, hR, hp⟩
  | note line p => exact ⟨t, hobeys.note line s t hR, hp⟩
  | now p => exact ⟨t, hobeys.now s t hR, hp _⟩
  | pause ms p => exact ⟨t, hobeys.pause ms s t hR, hp⟩
  | call op p => exact hobeys.answer op _ s t hR hp

/-! ## Programs that may fail -/

section Failing

variable {ε ε' : Type} (rule : Rule S σ)

theorem wp_run_bind (x : ExceptT ε (Program S) α) (f : α → ExceptT ε (Program S) β)
    (Q : Except ε β → σ → Prop) (s : σ) :
    (x >>= f).run.wp rule Q s = x.run.wp rule (fun r s =>
      match r with
      | .ok a => (f a).run.wp rule Q s
      | .error e => Q (.error e) s) s := by
  rw [ExceptT.run_bind, wp_bind]
  congr 1
  funext r
  cases r <;> rfl

@[simp] theorem wp_run_pure (a : α) (Q : Except ε α → σ → Prop) (s : σ) :
    (pure a : ExceptT ε (Program S) α).run.wp rule Q s = Q (.ok a) s := rfl

@[simp] theorem wp_run_lift (p : Program S α) (Q : Except ε α → σ → Prop) (s : σ) :
    (ExceptT.lift p : ExceptT ε (Program S) α).run.wp rule Q s =
      p.wp rule (fun a => Q (.ok a)) s := by
  rw [ExceptT.run_lift, wp_map]

@[simp] theorem wp_run_adapt (f : ε → ε') (x : ExceptT ε (Program S) α)
    (Q : Except ε' α → σ → Prop) (s : σ) :
    (ExceptT.adapt f x).run.wp rule Q s = x.run.wp rule (fun r => Q (r.mapError f)) s := by
  rw [ExceptT.run_adapt, wp_map]

end Failing

end Program

end EventIndex
