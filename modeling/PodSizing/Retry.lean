import PodSizing.Metrics
import PodSizing.Program

/-!
# Retries

An operation that fails for a reason that may pass is tried again after a delay, up to a number of
attempts. The first attempt is always made, and there is no delay behind the last.
-/
namespace PodSizing

structure RetryPolicy where
  attempts : Nat
  delayMillis : Nat
  deriving DecidableEq, Repr

namespace RetryPolicy

def once : RetryPolicy := ⟨1, 0⟩

def standard : RetryPolicy := ⟨3, 1000⟩

end RetryPolicy

namespace Retry
variable {ε α : Type}

inductive Request where
  | attempt (n : Nat)
  | pause (millis : Nat)
  | count (reason : RetryReason)
  deriving DecidableEq, Repr

/-- An attempt is answered with its result. -/
abbrev signature (ε α : Type) : Signature where
  Request := Request
  Answer
    | .attempt _ => Except ε α
    | .pause _ | .count _ => Unit

/-- Counts the retry and waits for it, unless there is no delay. -/
def beforeNext (delayMillis : Nat) (reason : RetryReason) : Program (signature ε α) Unit :=
  .call (.count reason) fun _ =>
    if delayMillis = 0 then .done () else .call (.pause delayMillis) fun _ => .done ()

/-- Attempts from the `n`-th on, with `left` more after it. -/
def attemptsFrom (reason : ε → Option RetryReason) (delayMillis : Nat) :
    (left n : Nat) → Program (signature ε α) (Except ε α)
  | 0, n => .call (.attempt n) .done
  | left + 1, n =>
    .call (.attempt n) fun
      | .ok a => .done (.ok a)
      | .error e =>
        match reason e with
        | none => .done (.error e)
        | some r =>
          (beforeNext delayMillis r).bind fun _ => attemptsFrom reason delayMillis left (n + 1)

/-- The attempts that a policy allows. -/
def attempts (policy : RetryPolicy) (reason : ε → Option RetryReason) :
    Program (signature ε α) (Except ε α) :=
  attemptsFrom reason policy.delayMillis (policy.attempts - 1) 1

end Retry
end PodSizing
