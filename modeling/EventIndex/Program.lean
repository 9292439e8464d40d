import EventIndex.Journal
import EventIndex.Time.Timestamp

/-!
# Programs

A program asks operations of its surroundings, one after the other, and goes on with their answers.
It may also write to the journal, look at the clock and pause. What the operations do is up to the
handler that runs the program, so the same program runs over every kind of store and source.
-/

namespace EventIndex

/-- The operations that a program may ask, and the type of the answer to each. -/
structure Signature where
  Op : Type
  Answer : Op → Type

inductive Program (S : Signature) (α : Type) where
  | done (a : α)
  | note (line : Line) (rest : Program S α)
  | now (rest : Timestamp → Program S α)
  /-- Goes on after so many milliseconds. -/
  | pause (ms : UInt64) (rest : Program S α)
  | call (op : S.Op) (rest : S.Answer op → Program S α)

/-- What is done when a program asks for something. -/
structure Handler (S : Signature) (m : Type → Type) where
  answer : (op : S.Op) → m (S.Answer op)
  note : Line → m Unit
  now : m Timestamp
  pause : UInt64 → m Unit

namespace Program

variable {S T : Signature} {α β : Type}

def bind : Program S α → (α → Program S β) → Program S β
  | done a, f => f a
  | note line p, f => note line (p.bind f)
  | now p, f => now fun t => (p t).bind f
  | pause ms p, f => pause ms (p.bind f)
  | call op p, f => call op fun a => (p a).bind f

instance : Monad (Program S) where
  pure := done
  bind := bind

theorem bind_done (p : Program S α) : p.bind done = p := by
  induction p with
  | done a => rfl
  | note line p ih => simp [bind, ih]
  | now p ih => simp [bind, ih]
  | pause ms p ih => simp [bind, ih]
  | call op p ih => simp [bind, ih]

theorem bind_assoc {γ : Type} (p : Program S α) (f : α → Program S β) (g : β → Program S γ) :
    (p.bind f).bind g = p.bind fun a => (f a).bind g := by
  induction p with
  | done a => rfl
  | note line p ih => simp [bind, ih]
  | now p ih => simp [bind, ih]
  | pause ms p ih => simp [bind, ih]
  | call op p ih => simp [bind, ih]

instance : LawfulMonad (Program S) :=
  LawfulMonad.mk' (Program S) bind_done (fun _ _ => rfl) bind_assoc

def ask (op : S.Op) : Program S (S.Answer op) :=
  call op done

def write (line : Line) : Program S Unit :=
  note line (done ())

def clock : Program S Timestamp :=
  now done

def wait (ms : UInt64) : Program S Unit :=
  pause ms (done ())

def run {m : Type → Type} [Monad m] (h : Handler S m) : Program S α → m α
  | done a => pure a
  | note line p => do
    h.note line
    p.run h
  | now p => do (p (← h.now)).run h
  | pause ms p => do
    h.pause ms
    p.run h
  | call op p => do (p (← h.answer op)).run h

/-- Runs the program until it pauses, and gives what is left of it, or its result. -/
def runTurn {m : Type → Type} [Monad m] (h : Handler S m) : Program S α → m (Program S α ⊕ α)
  | done a => pure (.inr a)
  | note line p => do
    h.note line
    p.runTurn h
  | now p => do (p (← h.now)).runTurn h
  | pause ms p => do
    h.pause ms
    pure (.inl p)
  | call op p => do (p (← h.answer op)).runTurn h

/-- The program with each operation done by another program. -/
def expand (f : (op : S.Op) → Program T (S.Answer op)) : Program S α → Program T α
  | done a => done a
  | note line p => note line (p.expand f)
  | now p => now fun t => (p t).expand f
  | pause ms p => pause ms (p.expand f)
  | call op p => (f op).bind fun a => (p a).expand f

variable {m : Type → Type} [Monad m] [LawfulMonad m]

theorem run_bind (h : Handler S m) (p : Program S α) (f : α → Program S β) :
    (p.bind f).run h = p.run h >>= fun a => (f a).run h := by
  induction p with
  | done a => simp [bind, run]
  | note line p ih => simp [bind, run, ih]
  | now p ih => simp [bind, run, ih]
  | pause ms p ih => simp [bind, run, ih]
  | call op p ih => simp [bind, run, ih]

theorem run_expand (h : Handler T m) (f : (op : S.Op) → Program T (S.Answer op))
    (p : Program S α) :
    (p.expand f).run h = p.run ⟨fun op => (f op).run h, h.note, h.now, h.pause⟩ := by
  induction p with
  | done a => rfl
  | note line p ih => simp [expand, run, ih]
  | now p ih => simp [expand, run, ih]
  | pause ms p ih => simp [expand, run, ih]
  | call op p ih => simp [expand, run, run_bind, ih]

end Program

end EventIndex
