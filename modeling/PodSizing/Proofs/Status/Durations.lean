import PodSizing.Proofs.Status.Moves
import PodSizing.Proofs.Time.Stamp

/-!
# How long a scale took

The stamp of a command is read back as the time of the command, whatever has been told of the pod since.
So the first success or failure that is recorded after it shows the milliseconds between the two, unless
the clock has been set back before the command.
-/
namespace PodSizing
open Time (Instant)

theorem durationSince_stamp {commanded now : Instant}
    (h : Time.supportsDay commanded.moment.day = true) (direction : Direction)
    (outcome : ScaleOutcome) :
    durationSince (Time.stamp commanded) now direction outcome =
      if commanded.unixMillis ≤ now.unixMillis then
        [.duration direction outcome (now.unixMillis - commanded.unixMillis).toNat]
      else [] := by
  by_cases hle : commanded.unixMillis ≤ now.unixMillis
  · simp [durationSince, Time.elapsed?_stamp h hle, hle]
  · have hlt : now.unixMillis < commanded.unixMillis := by omega
    simp [durationSince, Time.elapsed?_stamp_of_lt h hlt, hle]

namespace StatusUpdate
variable {u : StatusUpdate} {now : Instant} {p : Pod} {direction : Direction}

/-- An update that moves the history of its pod is written, and what it sees counts. -/
theorem apply_moved (h : (u.next p.history now).1.scale ≠ p.history) :
    (u.apply now p).changed = true ∧
      (u.apply now p).observations = (p.history.advance u.scaleState now).2 := by
  have hdiffers : ¬ p.statusRecord?.any (·.agrees (u.next p.history now).1) = true :=
    fun hagrees => h (Pod.history_of_agrees hagrees).symm
  rw [apply_eq, if_neg hdiffers]
  exact ⟨rfl, rfl⟩

theorem apply_enacted (u : StatusUpdate) (now : Instant)
    (hstate : u.scaleState = .enacted direction) (hroom : p.history.lastEnacted = "")
    (hcommanded : p.history.lastCommanded ≠ "") :
    (u.apply now p).changed = true ∧
      (u.apply now p).observations =
        durationSince p.history.lastCommanded now direction .success ∧
      (u.apply now p).pod.history =
        ⟨u.enabled, p.history.lastCommanded, Time.stamp now, p.history.lastFailed⟩ := by
  have hadvance : p.history.advance u.scaleState now =
      ({ p.history with lastEnacted := Time.stamp now },
        durationSince p.history.lastCommanded now direction .success) := by
    simp [hstate, Scale.advance, hroom, hcommanded]
  have hmoved : (u.next p.history now).1.scale ≠ p.history := by
    intro hsame
    rw [← hsame] at hroom
    simp only [next, hadvance] at hroom
    exact Time.stamp_ne now hroom
  obtain ⟨hchanged, hseen⟩ := apply_moved hmoved
  rw [hadvance] at hseen
  refine ⟨hchanged, hseen, ?_⟩
  rw [apply_history, hadvance]

end StatusUpdate

/-- The last command was given at a time, and neither success nor failure has been recorded since. -/
structure Scale.Awaits (s : Scale) (commanded : Instant) : Prop where
  stamp : s.lastCommanded = Time.stamp commanded
  notEnacted : s.lastEnacted = ""
  notFailed : s.lastFailed = ""

section Run
variable {commanded : Instant} {p : Pod} {u : StatusUpdate}

end Run

end PodSizing
