import EventIndex.Retry
import EventIndex.Proofs.Program.Along

/-! # Trials of an operation

What a policy does with an operation, whatever its attempts come to. The operation is taken as a
black box that gives one outcome after the other, and all that happens is kept in order: attempts,
lines of the journal, what is told of the retries, and pauses. Attempts are made as long as they
fail with errors that may pass and retries are left, and the last one decides. An operation that is
a program of its own may be put in the place of the black box. -/

namespace EventIndex

/-! ## Trials -/

/-- What is asked when an operation is retried: another attempt, and to hear of a retry. -/
inductive Trial (ε : Type) where
  | attempt
  | hear (number : Nat) (e : ε)

namespace Trial

abbrev signature (ε α : Type) : Signature where
  Op := Trial ε
  Answer
    | attempt => Except ε α
    | hear .. => Unit

variable {S : Signature} {ε α : Type}

def perform (operation : Program S (Except ε α)) (onRetry : Nat → ε → Program S Unit) :
    (trial : Trial ε) → Program S ((signature ε α).Answer trial)
  | attempt => operation
  | hear number e => onRetry number e

end Trial

/-- What happens while an operation is retried. -/
inductive Act (ε : Type) where
  | tried (trial : Trial ε)
  | wrote (line : Line)
  | paused (ms : UInt64)

namespace Act

variable {ε α : Type}

def attempts : List (Act ε) → Nat
  | [] => 0
  | tried .attempt :: acts => attempts acts + 1
  | _ :: acts => attempts acts

def retries : List (Act ε) → List (Nat × ε)
  | [] => []
  | tried (.hear number e) :: acts => (number, e) :: retries acts
  | _ :: acts => retries acts

theorem attempts_append (acts more : List (Act ε)) :
    attempts (acts ++ more) = attempts acts + attempts more := by
  fun_induction attempts acts with
  | case1 => simp
  | case2 acts ih => simp only [List.cons_append, attempts, ih]; omega
  | case3 act acts hact ih => simp only [List.cons_append, attempts, ih]

/-- Gives one outcome after the other, and keeps what happens. -/
def keeping (outcomes : Nat → Except ε α) :
    Handler (Trial.signature ε α) (StateM (List (Act ε))) where
  answer
    | .attempt => fun acts => (outcomes (attempts acts), acts ++ [.tried .attempt])
    | .hear number e => fun acts => ((), acts ++ [.tried (.hear number e)])
  note line := fun acts => ((), acts ++ [.wrote line])
  now := pure .epoch
  pause ms := fun acts => ((), acts ++ [.paused ms])

theorem run_attempt (outcomes : Nat → Except ε α) (before : List (Act ε)) :
    ((Program.ask (S := Trial.signature ε α) .attempt).run (keeping outcomes)).run before =
      (outcomes (attempts before), before ++ [.tried .attempt]) := rfl

end Act

/-- The outcome is an error after which another attempt may succeed. -/
def MayPass {ε α : Type} [Retriable ε] (outcome : Except ε α) : Prop :=
  ∃ e, outcome = .error e ∧ Retriable.isRetriable e = true

namespace RetryPolicy

variable {ε α : Type} [Retriable ε] (p : RetryPolicy)

/-- The policy at work on a black box, after so many retries and with so many left. -/
def trialsFrom (retry left : Nat) :
    Program (Trial.signature ε α) (Except (RetryFailure ε) α) :=
  p.attempt (Program.ask (S := Trial.signature ε α) .attempt)
    (fun number e => Program.ask (S := Trial.signature ε α) (.hear number e)) retry left

/-- The policy at work on an operation that is a black box. -/
def trials : Program (Trial.signature ε α) (Except (RetryFailure ε) α) :=
  p.run (Program.ask (S := Trial.signature ε α) .attempt)
    fun number e => Program.ask (S := Trial.signature ε α) (.hear number e)

private theorem attempt_eq_expand {S : Signature} (operation : Program S (Except ε α))
    (onRetry : Nat → ε → Program S Unit) (retry left : Nat) :
    p.attempt operation onRetry retry left =
      (p.trialsFrom retry left).expand (Trial.perform operation onRetry) := by
  induction left generalizing retry with
  | zero =>
    rw [trialsFrom, attempt, attempt, Program.expand_bind, Program.expand_ask]
    rfl
  | succ left ih =>
    rw [trialsFrom, attempt, attempt, Program.expand_bind, Program.expand_ask]
    refine congrArg (operation.bind ·) (funext fun outcome => ?_)
    cases outcome with
    | ok a => rfl
    | error e =>
      dsimp only
      split
      · rw [ih, Program.expand_bind, Program.expand_bind, Program.expand_bind, Program.expand_ask]
        rfl
      · rfl

/-- Whatever the operation is, a run is the trials with the operation in place of the black box. -/
theorem run_eq_expand {S : Signature} (operation : Program S (Except ε α))
    (onRetry : Nat → ε → Program S Unit) :
    p.run operation onRetry = p.trials.expand (Trial.perform operation onRetry) :=
  p.attempt_eq_expand operation onRetry 0 p.maxRetries.toNat

/-! ## One attempt -/

section Run

variable {S : Signature} {σ : Type} {h : Handler S (StateM σ)}
  {operation : Program S (Except ε α)} {onRetry : Nat → ε → Program S Unit} {s s' : σ}

theorem run_attempt_again {e : ε} (hfails : (operation.run h).run s = (.error e, s'))
    (hpasses : Retriable.isRetriable e = true) (retry left : Nat) :
    ((p.attempt operation onRetry retry (left + 1)).run h).run s =
      ((do
        Program.write (p.retryLine retry e)
        onRetry (retry + 1) e
        Program.wait (p.backoff retry)
        p.attempt operation onRetry (retry + 1) left : Program S _).run h).run s' := by
  rw [attempt, Program.run_bind_run, hfails]
  dsimp only
  rw [if_pos hpasses]

/-- An attempt is the last one if no retries are left or it did not fail with an error that may
pass. -/
theorem run_attempt_last {outcome : Except ε α} {left : Nat}
    (hends : (operation.run h).run s = (outcome, s')) (hlast : MayPass outcome → left = 0)
    (retry : Nat) :
    ((p.attempt operation onRetry retry left).run h).run s =
      (outcome.mapError (⟨retry + 1, ·⟩), s') := by
  cases left with
  | zero =>
    rw [attempt, Program.run_bind_run, hends]
    rfl
  | succ left =>
    rw [attempt, Program.run_bind_run, hends]
    cases outcome with
    | ok a => rfl
    | error e =>
      have hpasses : ¬ Retriable.isRetriable e = true := fun hpasses =>
        absurd (hlast ⟨e, rfl, hpasses⟩) (Nat.succ_ne_zero left)
      dsimp only
      rw [if_neg hpasses]
      rfl

end Run

variable (outcomes : Nat → Except ε α)

/-- What happens from an attempt that failed up to the next one, after so many retries. -/
def round (retry : Nat) (e : ε) : List (Act ε) :=
  [.tried .attempt, .wrote (p.retryLine retry e), .tried (.hear (retry + 1) e),
    .paused (p.backoff retry)]

private theorem run_trialsFrom_again {e : ε} {before : List (Act ε)}
    (he : outcomes (Act.attempts before) = .error e) (hpasses : Retriable.isRetriable e = true)
    (retry left : Nat) :
    ((p.trialsFrom retry (left + 1)).run (Act.keeping outcomes)).run before =
      ((p.trialsFrom (retry + 1) left).run (Act.keeping outcomes)).run
        (before ++ p.round retry e) := by
  have hround : before ++ p.round retry e = before ++ [.tried .attempt] ++
      [.wrote (p.retryLine retry e)] ++ [.tried (.hear (retry + 1) e)] ++
      [.paused (p.backoff retry)] := by
    simp [round]
  have hfails := Act.run_attempt outcomes before
  rw [he] at hfails
  rw [trialsFrom, p.run_attempt_again hfails hpasses, Program.run_bind_run, Program.run_bind_run,
    Program.run_bind_run, hround]
  rfl

/-! ## All attempts -/

/-- What happens when attempts end with these errors and are made anew, and the one after them is
the last. The first of them comes after so many retries. -/
def course (retry : Nat) : List ε → List (Act ε)
  | [] => [.tried .attempt]
  | e :: errors => p.round retry e ++ course (retry + 1) errors

theorem attempts_course (retry : Nat) (errors : List ε) :
    Act.attempts (p.course retry errors) = errors.length + 1 := by
  induction errors generalizing retry with
  | nil => rfl
  | cons e errors ih =>
    simp only [course, Act.attempts_append, ih, round, Act.attempts, List.length_cons]
    omega

theorem retries_course (retry : Nat) (errors : List ε) :
    Act.retries (p.course retry errors) = (List.range' (retry + 1) errors.length).zip errors := by
  induction errors generalizing retry with
  | nil => rfl
  | cons e errors ih =>
    simp only [course, round, List.cons_append, List.nil_append, Act.retries, ih, List.length_cons,
      List.range'_succ, List.zip_cons_cons]

/-- The errors after which attempts were made anew, after so many retries and with so many left:
what the attempts came to, one after the other, each of them an error that may pass. -/
structure Overcome (retry left : Nat) (errors : List ε) : Prop where
  outcomes_eq : errors.map .error = (List.range' retry errors.length).map outcomes
  mayPass : ∀ e ∈ errors, Retriable.isRetriable e = true
  length_le : errors.length ≤ left
  exhausted : MayPass (outcomes (retry + errors.length)) → errors.length = left

namespace Overcome

variable {outcomes} {retry left : Nat} {e : ε} {errors : List ε}

theorem nil (h : MayPass (outcomes retry) → left = 0) : Overcome outcomes retry left [] where
  outcomes_eq := rfl
  mayPass := by simp
  length_le := Nat.zero_le left
  exhausted hpasses := (h hpasses).symm

theorem cons (he : outcomes retry = .error e) (hpasses : Retriable.isRetriable e = true)
    (h : Overcome outcomes (retry + 1) left errors) :
    Overcome outcomes retry (left + 1) (e :: errors) where
  outcomes_eq := by
    rw [List.map_cons, h.outcomes_eq, List.length_cons, List.range'_succ, List.map_cons, he]
  mayPass := List.forall_mem_cons.mpr ⟨hpasses, h.mayPass⟩
  length_le := Nat.succ_le_succ h.length_le
  exhausted hlast := by
    have hindex : retry + (e :: errors).length = retry + 1 + errors.length := by
      rw [List.length_cons, Nat.add_assoc, Nat.add_comm 1]
    rw [hindex] at hlast
    exact congrArg (· + 1) (h.exhausted hlast)

theorem mayPass_of_lt (h : Overcome outcomes retry left errors) {i : Nat}
    (hi : i < errors.length) : MayPass (outcomes (retry + i)) := by
  have hsame := congrArg (·[i]?) h.outcomes_eq
  have houtcome : .error errors[i] = outcomes (retry + i) := by simpa [hi] using hsame
  exact ⟨errors[i], houtcome.symm, h.mayPass _ (List.getElem_mem hi)⟩

/-- The last attempt is that of the first outcome that is no error that may pass, unless the retries
do not reach so far. -/
theorem length_eq_min (h : Overcome outcomes 0 left errors) {n : Nat}
    (hbefore : ∀ i < n, MayPass (outcomes i)) (hn : ¬ MayPass (outcomes n)) :
    errors.length = min n left := by
  have hle : errors.length ≤ n :=
    Nat.le_of_not_lt fun hlt => hn (Nat.zero_add n ▸ h.mayPass_of_lt hlt)
  have hleft := h.length_le
  rcases Nat.lt_or_eq_of_le hle with hlt | heq
  · have hpasses : MayPass (outcomes (0 + errors.length)) :=
      (Nat.zero_add _).symm ▸ hbefore _ hlt
    have hexhausted := h.exhausted hpasses
    omega
  · omega

end Overcome

private theorem run_trialsFrom (left : Nat) (before : List (Act ε)) :
    let retry := Act.attempts before
    ∃ errors : List ε, Overcome outcomes retry left errors ∧
      ((p.trialsFrom retry left).run (Act.keeping outcomes)).run before =
        ((outcomes (retry + errors.length)).mapError (⟨retry + errors.length + 1, ·⟩),
          before ++ p.course retry errors) := by
  induction left generalizing before with
  | zero =>
    exact ⟨[], .nil fun _ => rfl, p.run_attempt_last (Act.run_attempt ..) (fun _ => rfl) _⟩
  | succ left ih =>
    intro retry
    by_cases hpasses : MayPass (outcomes retry)
    · obtain ⟨e, he, hretriable⟩ := hpasses
      have hattempts : Act.attempts (before ++ p.round retry e) = retry + 1 := by
        simp [Act.attempts_append, round, Act.attempts, retry]
      obtain ⟨errors, hovercome, hrun⟩ := ih (before ++ p.round retry e)
      rw [hattempts] at hovercome hrun
      refine ⟨e :: errors, hovercome.cons he hretriable, ?_⟩
      rw [p.run_trialsFrom_again outcomes he hretriable, hrun]
      simp only [course, List.append_assoc, List.length_cons, Nat.add_assoc, Nat.add_comm 1]
    · exact ⟨[], .nil fun h => absurd h hpasses,
        p.run_attempt_last (Act.run_attempt ..) (fun h => absurd h hpasses) _⟩

/-! ## The course of a run -/

/-- The result of the trials, and what happens in their course. -/
def ended : Except (RetryFailure ε) α × List (Act ε) :=
  (p.trials.run (Act.keeping outcomes)).run []

private theorem exists_overcome :
    ∃ errors : List ε, Overcome outcomes 0 p.maxRetries.toNat errors ∧
      p.ended outcomes = ((outcomes errors.length).mapError (⟨errors.length + 1, ·⟩),
        p.course 0 errors) := by
  obtain ⟨errors, hovercome, hrun⟩ := p.run_trialsFrom outcomes p.maxRetries.toNat []
  refine ⟨errors, hovercome, hrun.trans ?_⟩
  simp only [Act.attempts, Nat.zero_add, List.nil_append]

/-- So many retries were made, which were numbered from 1 on. Each of them was heard of between the
attempt whose error was told and the next one, before the pause. -/
structure Course (acts : List (Act ε)) (retries : Nat) : Prop where
  attempts_eq : Act.attempts acts = retries + 1
  numbers_eq : (Act.retries acts).map Prod.fst = List.range' 1 retries
  errors_eq : (Act.retries acts).map (fun r => .error r.2) = (List.range retries).map outcomes
  acts_eq : acts = p.course 0 ((Act.retries acts).map Prod.snd)

private theorem Overcome.course {outcomes : Nat → Except ε α} {left : Nat} {errors : List ε}
    (h : Overcome outcomes 0 left errors) :
    p.Course outcomes (p.course 0 errors) errors.length := by
  have hnumbers : (Act.retries (p.course 0 errors)).map Prod.fst = List.range' 1 errors.length := by
    rw [retries_course, List.map_fst_zip (by simp)]
  have herrors : (Act.retries (p.course 0 errors)).map Prod.snd = errors := by
    rw [retries_course, List.map_snd_zip (by simp)]
  refine ⟨p.attempts_course 0 errors, hnumbers, ?_, ?_⟩
  · rw [List.range_eq_range', ← h.outcomes_eq]
    exact (List.map_map ..).symm.trans (congrArg (List.map Except.error) herrors)
  · rw [herrors]

variable {outcomes} {n limit : Nat}

theorem Course.number_le {p : RetryPolicy} {acts : List (Act ε)} {retries : Nat}
    (h : p.Course outcomes acts retries) {r : Nat × ε} (hr : r ∈ Act.retries acts) :
    r.1 ≤ retries := by
  have hnumber := List.mem_map_of_mem (f := Prod.fst) hr
  rw [h.numbers_eq, List.mem_range'_1] at hnumber
  omega

private theorem exists_error_of_last (hbefore : ∀ i < n, MayPass (outcomes i))
    (h : ¬ (n ≤ limit ∧ ∃ a, outcomes n = .ok a)) : ∃ e, outcomes (min n limit) = .error e := by
  rcases Nat.lt_or_ge limit n with hlt | hle
  · obtain ⟨e, he, -⟩ := hbefore limit hlt
    exact ⟨e, by rw [Nat.min_eq_right (Nat.le_of_lt hlt), he]⟩
  · rw [Nat.min_eq_left hle]
    cases houtcome : outcomes n with
    | ok a => exact absurd ⟨hle, a, houtcome⟩ h
    | error e => exact ⟨e, rfl⟩

/-- An operation is attempted until an attempt succeeds or fails for good, or all retries are used
up, and the last attempt decides. -/
theorem run_course (outcomes : Nat → Except ε α) (hp : p.maxRetries.toNat < UInt32.size - 1) :
    let limit := p.maxRetries.toNat
    let ended := p.ended outcomes
    (∀ n, (∀ i < n, MayPass (outcomes i)) → ¬ MayPass (outcomes n) →
      p.Course outcomes ended.2 (min n limit) ∧
      (∀ a, n ≤ limit → outcomes n = .ok a → ended.1 = .ok a) ∧
      (¬ (n ≤ limit ∧ ∃ a, outcomes n = .ok a) →
        ∃ e, outcomes (min n limit) = .error e ∧
          ended.1 = .error ⟨Act.attempts ended.2, e⟩)) ∧
    ((∀ i, MayPass (outcomes i)) →
      p.Course outcomes ended.2 limit ∧
      ∃ e, outcomes limit = .error e ∧ Retriable.isRetriable e = true ∧
        ended.1 = .error ⟨limit + 1, e⟩) ∧
    (∀ f, ended.1 = .error f → f.attempts < UInt32.size) ∧
    (∀ r ∈ Act.retries ended.2, r.1 < UInt32.size) ∧
    ∀ {S : Signature} (operation : Program S (Except ε α)) (onRetry : Nat → ε → Program S Unit),
      p.run operation onRetry = p.trials.expand (Trial.perform operation onRetry) := by
  intro limit ended
  obtain ⟨errors, hovercome, hended⟩ := p.exists_overcome outcomes
  have hcourse : p.Course outcomes ended.2 errors.length := by
    rw [show ended = _ from hended]
    exact hovercome.course p
  have hresult : ended.1 = (outcomes errors.length).mapError (⟨errors.length + 1, ·⟩) :=
    congrArg Prod.fst hended
  have hlength : errors.length ≤ limit := hovercome.length_le
  refine ⟨fun n hbefore hn => ?_, fun hall => ?_, fun f hf => ?_, fun r hr => ?_, p.run_eq_expand⟩
  · rw [hovercome.length_eq_min hbefore hn] at hcourse hresult
    refine ⟨hcourse, fun a hle ha => ?_, fun hnot => ?_⟩
    · rw [hresult, Nat.min_eq_left hle, ha]
      rfl
    · obtain ⟨e, he⟩ := exists_error_of_last hbefore hnot
      refine ⟨e, he, ?_⟩
      rw [hresult, he, hcourse.attempts_eq]
      rfl
  · obtain ⟨e, he, hpasses⟩ := hall limit
    rw [show errors.length = limit from hovercome.exhausted (hall _)] at hcourse hresult
    refine ⟨hcourse, e, he, hpasses, ?_⟩
    rw [hresult, he]
    rfl
  · rw [hresult] at hf
    cases houtcome : outcomes errors.length with
    | ok a =>
      rw [houtcome] at hf
      cases hf
    | error e =>
      rw [houtcome] at hf
      obtain rfl := Except.error.inj hf
      dsimp only
      omega
  · have hnumber := hcourse.number_le hr
    omega

/-- With one retry: an operation that recovers, one that then fails for good, and one that goes on
failing. -/
theorem run_course_of_one_retry :
    let p : RetryPolicy := ⟨1, 100, 2.0, 1000⟩
    let busy : Except StorageError Nat := .error (.transient "busy")
    let recovers (i : Nat) := if i = 1 then .ok 7 else busy
    let refuses (i : Nat) := if i = 1 then .error (.permanent "gone") else busy
    (p.ended recovers).1 = .ok 7 ∧ Act.attempts (p.ended recovers).2 = 2 ∧
      (p.ended refuses).1 = .error ⟨2, .permanent "gone"⟩ ∧
      (p.ended fun _ => busy).1 = .error ⟨2, .transient "busy"⟩ ∧
      (Act.retries (p.ended fun _ => busy).2).map Prod.fst = [1] := by
  intro p busy recovers refuses
  have hp : p.maxRetries.toNat < UInt32.size - 1 := by decide
  have hbusy : MayPass busy := ⟨_, rfl, rfl⟩
  have hbefore (outcomes : Nat → Except StorageError Nat) (h : outcomes 0 = busy) :
      ∀ i < 1, MayPass (outcomes i) := by
    intro i hi
    obtain rfl : i = 0 := by omega
    rwa [h]
  obtain ⟨hrecovers, -⟩ := p.run_course recovers hp
  obtain ⟨hcourse, hvalue, -⟩ := hrecovers 1 (hbefore recovers rfl) (by rintro ⟨e, ⟨⟩, -⟩)
  obtain ⟨hrefuses, -⟩ := p.run_course refuses hp
  obtain ⟨hcourse', -, herror⟩ := hrefuses 1 (hbefore refuses rfl) (by rintro ⟨e, ⟨⟩, ⟨⟩⟩)
  obtain ⟨e, he, hgone⟩ := herror (by rintro ⟨-, a, ⟨⟩⟩)
  obtain rfl := Except.error.inj he
  rw [hcourse'.attempts_eq] at hgone
  obtain ⟨-, hstays, -⟩ := p.run_course (fun _ => busy) hp
  obtain ⟨hcourse'', e', he', -, hstopped⟩ := hstays fun _ => hbusy
  obtain rfl := Except.error.inj he'
  exact ⟨hvalue 7 (by decide) rfl, hcourse.attempts_eq, hgone, hstopped, hcourse''.numbers_eq⟩

end RetryPolicy

end EventIndex
