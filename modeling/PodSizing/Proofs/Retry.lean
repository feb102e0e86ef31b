import Mathlib.Order.Bounds.Basic
import PodSizing.Proofs.Program
import PodSizing.Retry

/-!
# How often something is tried

An operation is tried up to its first result that is final, or as often as the policy allows. Between
two attempts the delay passes and the reason for the next one is counted, and nowhere else.
-/
namespace PodSizing

theorem RetryReason.text_injective {a b : RetryReason} (h : a.text = b.text) : a = b := by
  cases a <;> cases b <;> first | rfl | exact absurd h (by decide)

namespace Retry
variable {ε α : Type}

/-- What an operation results in each time that it is carried out, and how long that takes. -/
structure Operation (ε α : Type) where
  result : Nat → Except ε α
  took : Nat → Nat

/-- What has passed: the attempts by their numbers, with the times at which they were begun, and what
was recorded. -/
structure Course where
  now : Nat
  attempts : List (Nat × Nat) := []
  events : List Event := []
  deriving DecidableEq

/-- An operation does not know the number of the attempt, and pauses take just their time. -/
def Operation.handle (o : Operation ε α) :
    (request : Request) → Course → (signature ε α).Answer request × Course
  | .attempt n, c =>
    (o.result c.attempts.length,
      { c with
        now := c.now + o.took c.attempts.length
        attempts := c.attempts ++ [(n, c.now)] })
  | .pause millis, c => ((), { c with now := c.now + millis })
  | .count reason, c => ((), { c with events := c.events ++ [.retried reason] })

/-- Why a result may be followed by another attempt. -/
def retryReason? (reason : ε → Option RetryReason) : Except ε α → Option RetryReason
  | .ok _ => none
  | .error e => reason e

/-- The counter of the retries for a reason, as metrics show it. -/
def retryCount (events : List Event) (r : RetryReason) : Nat :=
  (events.filterMap Metrics.retryLabels).count [("reason", r.text)]

theorem retryCount_append (events later : List Event) (r : RetryReason) :
    retryCount (events ++ later) r = retryCount events r + retryCount later r := by
  simp [retryCount, List.filterMap_append]

theorem retryCount_retried (reasons : List RetryReason) (r : RetryReason) :
    retryCount (reasons.map .retried) r = reasons.count r := by
  induction reasons with
  | nil => rfl
  | cons a rest ih =>
    have htext : a.text = r.text ↔ a = r := ⟨RetryReason.text_injective, congrArg RetryReason.text⟩
    simpa [retryCount, Metrics.retryLabels, List.count_cons, htext] using ih

section Attempts
variable (o : Operation ε α) (reason : ε → Option RetryReason) (delayMillis start : Nat)
  (events : List Event)

/-- How long the first so many attempts take. -/
def Operation.busy : Nat → Nat
  | 0 => 0
  | n + 1 => busy n + o.took n

def Operation.begun (n : Nat) : List (Nat × Nat) :=
  (List.range n).map fun k => (k + 1, start + o.busy k + k * delayMillis)

def Operation.reasons (n : Nat) : List RetryReason :=
  (List.range n).filterMap fun k => retryReason? reason (o.result k)

def Operation.due (n : Nat) : Course where
  now := start + o.busy n + n * delayMillis
  attempts := o.begun delayMillis start n
  events := events ++ (o.reasons reason n).map .retried

def Operation.made (n : Nat) : Course where
  now := start + o.busy (n + 1) + n * delayMillis
  attempts := o.begun delayMillis start (n + 1)
  events := events ++ (o.reasons reason n).map .retried

theorem Operation.handle_attempt (n : Nat) :
    o.handle (.attempt (n + 1)) (o.due reason delayMillis start events n) =
      (o.result n, o.made reason delayMillis start events n) := by
  have hcount : (o.begun delayMillis start n).length = n := by simp [Operation.begun]
  simp only [Operation.handle, Operation.due, Operation.made, hcount]
  congr 2
  · simp only [Operation.busy]
    omega
  · simp [Operation.begun, List.range_succ]

/-- Between two attempts the reason is counted, and the delay passes. -/
theorem run_beforeNext (n : Nat) {r : RetryReason} (hr : retryReason? reason (o.result n) = some r) :
    (beforeNext delayMillis r).run o.handle (o.made reason delayMillis start events n) =
      (.ok (), o.due reason delayMillis start events (n + 1)) := by
  have hevents : events ++ (o.reasons reason n).map .retried ++ [Event.retried r] =
      events ++ (o.reasons reason (n + 1)).map .retried := by
    simp [Operation.reasons, List.range_succ, hr]
  have hnow : start + o.busy (n + 1) + n * delayMillis + delayMillis =
      start + o.busy (n + 1) + (n + 1) * delayMillis := by
    rw [Nat.add_mul]
    omega
  simp only [beforeNext, Program.run_call, Operation.handle, Operation.made, hevents]
  by_cases hdelay : delayMillis = 0
  · simp [hdelay, Operation.due]
  · simp [hdelay, Operation.handle, Operation.due, hnow]

/-- From the next attempt on, with `left` more after it, the attempts go on up to the first result that
is final, or to the last one. -/
theorem run_attemptsFrom (left n : Nat) :
    ∃ last, n ≤ last ∧ last ≤ n + left ∧
      (∀ k, n ≤ k → k < last → retryReason? reason (o.result k) ≠ none) ∧
      (last = n + left ∨ retryReason? reason (o.result last) = none) ∧
      (attemptsFrom reason delayMillis left (n + 1)).run o.handle
          (o.due reason delayMillis start events n) =
        (.ok (o.result last), o.made reason delayMillis start events last) := by
  induction left generalizing n with
  | zero =>
    refine ⟨n, Nat.le_refl n, Nat.le_refl n, fun k hk hlt => by omega, .inl rfl, ?_⟩
    simp [attemptsFrom, o.handle_attempt]
  | succ left ih =>
    cases hreason : retryReason? reason (o.result n) with
    | none =>
      refine ⟨n, Nat.le_refl n, Nat.le_add_right n _, fun k hk hlt => by omega, .inr hreason, ?_⟩
      simp only [attemptsFrom, Program.run_call, o.handle_attempt]
      cases hresult : o.result n with
      | ok a => rfl
      | error e =>
        have he : reason e = none := by simpa [retryReason?, hresult] using hreason
        simp [he]
    | some r =>
      obtain ⟨last, hlow, hhigh, hretried, hend, hrun⟩ := ih (n + 1)
      refine ⟨last, by omega, by omega, fun k hk hlt => ?_, hend.imp (fun h => by omega) id, ?_⟩
      · by_cases hkn : k = n
        · simp [hkn, hreason]
        · exact hretried k (by omega) hlt
      · simp only [attemptsFrom, Program.run_call, o.handle_attempt]
        cases hresult : o.result n with
        | ok a => simp [retryReason?, hresult] at hreason
        | error e =>
          have he : reason e = some r := by simpa [retryReason?, hresult] using hreason
          simp only [he, Program.run_bind, run_beforeNext o reason delayMillis start events n hreason]
          exact hrun

end Attempts

/-- As many attempts are made as the policy allows, and at least one, but none after a result that is
final. They are numbered from one, each begins when the delay has passed after the one before, and the
result of the last is returned as soon as it is there. The counter of each reason goes up by the number
of the results before the last that give it. -/
theorem attempts_exact (policy : RetryPolicy) (reason : ε → Option RetryReason)
    (o : Operation ε α) (start : Nat) (events : List Event) :
    ∃ n, IsLeast {k | k = max policy.attempts 1 ∨
          ∃ j, k = j + 1 ∧ retryReason? reason (o.result j) = none} n ∧
      ∃ c, (attempts policy reason).run o.handle { now := start, events } =
          (.ok (o.result (n - 1)), c) ∧
        c.attempts =
          (List.range n).map (fun k => (k + 1, start + o.busy k + k * policy.delayMillis)) ∧
        c.now = start + o.busy n + (n - 1) * policy.delayMillis ∧
        ∀ r, retryCount c.events r = retryCount events r +
          (List.range (n - 1)).countP fun k => retryReason? reason (o.result k) = some r := by
  obtain ⟨last, -, hlast, hretried, hend, hrun⟩ :=
    run_attemptsFrom o reason policy.delayMillis start events (policy.attempts - 1) 0
  refine ⟨last + 1, ⟨?_, ?_⟩, o.made reason policy.delayMillis start events last, ?_, rfl, rfl,
    fun r => ?_⟩
  · exact hend.imp (fun h => by omega) fun h => ⟨last, rfl, h⟩
  · rintro k (rfl | ⟨j, rfl, hj⟩)
    · omega
    · by_contra hlt
      exact hretried j (Nat.zero_le j) (by omega) hj
  · simpa [attempts, Operation.due, Operation.busy, Operation.begun, Operation.reasons] using hrun
  · simp only [Operation.made, retryCount_append, retryCount_retried, Operation.reasons]
    rw [List.count_filterMap, Nat.add_left_cancel_iff]
    exact List.countP_congr fun k _ => by simp

end Retry
end PodSizing
