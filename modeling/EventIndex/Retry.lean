import EventIndex.Json.Record
import EventIndex.Program
import EventIndex.Store.Error

/-!
# Retries

An operation that fails with an error that may pass is tried again, a bounded number of times, with
pauses that grow by a factor up to a greatest pause.
-/

namespace EventIndex

/-- The power of `a` by repeated squaring, from the lowest bit of the exponent on. -/
def floatPower (a : Float) (n : Nat) : Float :=
  go 1 a n
where
  /-- `acc` times the power of `a`. -/
  go (acc a : Float) (n : Nat) : Float :=
    let acc := if n % 2 = 1 then acc * a else acc
    if n / 2 = 0 then acc else go acc (a * a) (n / 2)
  termination_by n
  decreasing_by omega

structure RetryPolicy where
  maxRetries : UInt32
  initialBackoff : UInt64
  multiplier : Float
  maxBackoff : UInt64

/-- An error that the last attempt ended with. -/
structure RetryFailure (ε : Type) where
  /-- Counted without bound. Of a policy with fewer than `UInt32.size - 1` retries a count of 32 bits
  says the same; with more of them that count would overflow. -/
  attempts : Nat
  error : ε
deriving DecidableEq

/-- What retrying must know of an error. -/
class Retriable (ε : Type) where
  isRetriable : ε → Bool
  message : ε → String

namespace RetryPolicy

open Json

def form : RecordForm where
  name := "RetryPolicy"
  strict := false
  fields := [Codec.word32.field "max_retries", Codec.word64.field "initial_backoff_ms",
    Codec.float.field "backoff_multiplier", Codec.word64.field "max_backoff_ms"]

def codec : Codec RetryPolicy :=
  form.codec
    (fun (retries, initialBackoff, multiplier, maxBackoff, ()) =>
      ⟨retries, initialBackoff, multiplier, maxBackoff⟩)
    fun p => (p.maxRetries, p.initialBackoff, p.multiplier, p.maxBackoff, ())

/-- The milliseconds to pause when so many retries have been made. The exponent stays at the
greatest signed word, and a pause that is no finite number is the greatest pause. -/
def backoff (p : RetryPolicy) (retry : Nat) : UInt64 :=
  let ms := p.initialBackoff.toFloat * floatPower p.multiplier (min retry 0x7fffffff)
  if ms.isFinite then min ms.toUInt64 p.maxBackoff else p.maxBackoff

variable {S : Signature} {ε α : Type} [Retriable ε]

def retryLine (p : RetryPolicy) (retry : Nat) (e : ε) : Line :=
  .warn "transient error, retrying"
    [("attempt", toString (retry + 1)), ("max_retries", toString p.maxRetries.toNat),
      ("delay_ms", toString (p.backoff retry).toNat), ("error", Retriable.message e)]

def attempt (p : RetryPolicy) (operation : Program S (Except ε α))
    (onRetry : Nat → ε → Program S Unit) (retry : Nat) :
    (left : Nat) → Program S (Except (RetryFailure ε) α)
  | 0 => do return (← operation).mapError fun e => ⟨retry + 1, e⟩
  | left + 1 => do
    match (← operation) with
    | .ok a => pure (.ok a)
    | .error e =>
      if Retriable.isRetriable e then
        Program.write (p.retryLine retry e)
        onRetry (retry + 1) e
        Program.wait (p.backoff retry)
        p.attempt operation onRetry (retry + 1) left
      else pure (.error ⟨retry + 1, e⟩)

/-- Runs the operation until it succeeds, fails for good, or has used up its retries. Before each
pause `onRetry` hears the number of the retry and the error. -/
def run (p : RetryPolicy) (operation : Program S (Except ε α))
    (onRetry : Nat → ε → Program S Unit) : Program S (Except (RetryFailure ε) α) :=
  p.attempt operation onRetry 0 p.maxRetries.toNat

end RetryPolicy

instance : Retriable StorageError where
  isRetriable := StorageError.isTransient
  message := StorageError.message

end EventIndex
