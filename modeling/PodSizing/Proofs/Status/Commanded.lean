import PodSizing.Proofs.Mutation.Resources
import PodSizing.Proofs.Status.Again

/-!
# When the last command was given

A pod bears the history that the last update asked for, whether or not there was anything to write.
So a status update that commands stamps the time of the command, and any other update keeps the stamp
that it finds.
-/
namespace PodSizing
open Time (Instant)

/-- The stamp of the last command, by the status of a pod; the empty text if there is none. -/
def Pod.lastCommanded (p : Pod) : String :=
  ((p.statusRecord?.map StatusRecord.scale).getD {}).lastCommanded

def ScaleState.stampOver (state : ScaleState) (now : Instant) (stamp : String) : String :=
  if state.isCommand then Time.stamp now else stamp

theorem Scale.advance_lastCommanded (s : Scale) (state : ScaleState) (now : Instant) :
    (s.advance state now).1.lastCommanded = state.stampOver now s.lastCommanded := by
  cases state with
  | notApplicable => rfl
  | commanded direction => rfl
  | unknownCommanded => rfl
  | enacted direction =>
    by_cases hdue : (s.lastEnacted.isEmpty && !s.lastCommanded.isEmpty) = true
    · simp [advance, hdue, ScaleState.stampOver, ScaleState.isCommand]
    · simp [advance, hdue, ScaleState.stampOver, ScaleState.isCommand]
  | failed direction reason =>
    by_cases hdue : s.lastFailed.isEmpty = true
    · simp [advance, hdue, ScaleState.stampOver, ScaleState.isCommand]
    · simp [advance, hdue, ScaleState.stampOver, ScaleState.isCommand]

theorem Pod.lastCommanded_withVersion (p : Pod) (version : Option String) :
    (p.withVersion version).lastCommanded = p.lastCommanded := rfl

namespace StatusUpdate

/-- Whether or not there is anything to write, the pod bears the history that the update asks for. -/
theorem apply_history (u : StatusUpdate) (now : Instant) (p : Pod) :
    (u.apply now p).pod.history =
      { (p.history.advance u.scaleState now).1 with enabledForResources := u.enabled } :=
  Pod.history_of_agrees (u.apply_agrees now p)

theorem apply_observed (u : StatusUpdate) (now : Instant) (p : Pod) :
    (u.apply now p).observations =
      if (u.apply now p).changed then (u.next p.history now).2 else [] := by
  rw [apply_eq]
  by_cases hagrees : p.statusRecord?.any (·.agrees (u.next p.history now).1) = true
  · simp [hagrees]
  · simp [hagrees]

theorem apply_observations (u : StatusUpdate) (now : Instant) (p : Pod) :
    (u.apply now p).observations = [] ∨
      (u.apply now p).observations = (p.history.advance u.scaleState now).2 := by
  rw [apply_observed]
  split
  · exact .inr rfl
  · exact .inl rfl

theorem apply_lastCommanded (u : StatusUpdate) (now : Instant) (p : Pod) :
    (u.apply now p).pod.lastCommanded = u.scaleState.stampOver now p.lastCommanded := by
  have hstamp : (u.apply now p).pod.history.lastCommanded =
      u.scaleState.stampOver now p.history.lastCommanded := by
    rw [apply_history]
    exact p.history.advance_lastCommanded u.scaleState now
  exact hstamp

end StatusUpdate
end PodSizing
