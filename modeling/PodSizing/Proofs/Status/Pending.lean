import PodSizing.Proofs.Status.Moves

/-!
# Updates that are applied more than once

An update is applied anew to each pod that it is to be written to. To the pod that it has written it has
nothing to add, unless it commands, and what metrics record of it is what its last application let be
seen.
-/
namespace PodSizing
open Time (Instant)

namespace StatusUpdate
variable {u : StatusUpdate} {t : Instant} {p : Pod}

theorem apply_changed_iff :
    (u.apply t p).changed = false ↔
      p.statusRecord?.any (·.agrees (u.next p.history t).1) = true := by
  rw [apply_eq]
  by_cases hagrees : p.statusRecord?.any (·.agrees (u.next p.history t).1) = true
  · simp [hagrees]
  · simp [hagrees]

@[simp] theorem next_status (u : StatusUpdate) (s : Scale) (t : Instant) :
    (u.next s t).1.status = Text.capitalize u.status := rfl

@[simp] theorem next_states (u : StatusUpdate) (s : Scale) (t : Instant) :
    (u.next s t).1.states = u.states := rfl

theorem next_command (h : u.scaleState.isCommand = true) (s : Scale) (t : Instant) :
    (u.next s t).1.scale = ⟨u.enabled, Time.stamp t, "", ""⟩ := by
  cases hstate : u.scaleState with
  | commanded direction => simp [next, Scale.advance, hstate]
  | unknownCommanded => simp [next, Scale.advance, hstate]
  | notApplicable => simp [hstate, ScaleState.isCommand] at h
  | enacted direction => simp [hstate, ScaleState.isCommand] at h
  | failed direction reason => simp [hstate, ScaleState.isCommand] at h

/-- The records of two applications in a row say the same, unless a command is stamped differently. -/
theorem next_agrees_iff (u : StatusUpdate) (s : Scale) (t₁ t₂ : Instant) :
    (u.next s t₁).1.agrees (u.next (u.next s t₁).1.scale t₂).1 = true ↔
      u.scaleState.isCommand = false ∨ Time.stamp t₁ = Time.stamp t₂ := by
  by_cases hcommand : u.scaleState.isCommand = true
  · rw [StatusRecord.agrees_iff, next_command hcommand, next_command hcommand]
    simp [hcommand]
  · have hquiet : u.scaleState.isCommand = false := by simpa using hcommand
    simp [hquiet, (next_again hquiet s t₁ t₂).1]

/-- Applied again to the pod that it has written, an update has nothing to change exactly if it commands
nothing or both times have the same stamp. -/
theorem apply_twice_changed_iff (u : StatusUpdate) (t₁ t₂ : Instant) (p : Pod) :
    (u.apply t₂ (u.apply t₁ p).pod).changed = false ↔
      u.scaleState.isCommand = false ∨ Time.stamp t₁ = Time.stamp t₂ := by
  have hagrees := u.apply_agrees t₁ p
  rw [apply_changed_iff, Pod.history_of_agrees hagrees, any_agrees_iff hagrees, next_agrees_iff]

end StatusUpdate

namespace PendingStatus

/-- The update when it has been applied to one pod after another, each at its own time. -/
def applyEach (s : PendingStatus) (applications : List (Instant × Pod)) : PendingStatus :=
  applications.foldl (fun s a => (s.apply a.1 a.2).2) s

/-- What is applied stays the same update. -/
@[simp] theorem applyEach_update (s : PendingStatus) (applications : List (Instant × Pod)) :
    (s.applyEach applications).update = s.update := by
  induction applications generalizing s with
  | nil => rfl
  | cons a rest ih => exact ih (s.apply a.1 a.2).2

theorem applyEach_append (s : PendingStatus) (earlier later : List (Instant × Pod)) :
    s.applyEach (earlier ++ later) = (s.applyEach earlier).applyEach later := by
  simp [applyEach]

end PendingStatus

/-- What the last of several applications lets be seen, if it changes its pod. -/
def StatusUpdate.lastSeen (u : StatusUpdate) (applications : List (Instant × Pod)) :
    List Observation :=
  match applications.getLast? with
  | none => []
  | some (t, p) => if (u.apply t p).changed then (u.next p.history t).2 else []

/-- What is committed is what the last application lets be seen, whatever those before it did. -/
theorem PendingStatus.commit_applyEach (u : StatusUpdate) (applications : List (Instant × Pod)) :
    (applyEach ⟨u, []⟩ applications).commit = (u.lastSeen applications).map .scale := by
  rcases List.eq_nil_or_concat applications with rfl | ⟨earlier, ⟨t, p⟩, rfl⟩
  · rfl
  · have hlast : (applyEach ⟨u, []⟩ (earlier ++ [(t, p)])).commit =
        ((applyEach ⟨u, []⟩ earlier).update.apply t p).observations.map .scale := by
      rw [applyEach_append]
      rfl
    rw [List.concat_eq_append, hlast, applyEach_update, StatusUpdate.apply_observed,
      StatusUpdate.lastSeen, List.getLast?_concat]

/-- Applied again to the pod that it has written, the mutator of an update reports no change exactly if
the update commands nothing or both times have the same stamp. The pod then stays as it is, and there is
nothing to commit. -/
theorem StatusUpdate.reapplied_unchanged_iff (u : StatusUpdate) (t₁ t₂ : Instant) (p : Pod) :
    ∃ first again, u.mutator t₁ p = .ok first ∧ u.mutator t₂ first.pod = .ok again ∧
      (again.changed = false ↔
        u.scaleState.isCommand = false ∨ Time.stamp t₁ = Time.stamp t₂) ∧
      (again.changed = false → again.pod = first.pod ∧
        (PendingStatus.applyEach ⟨u, []⟩ [(t₁, p), (t₂, first.pod)]).commit = []) := by
  refine ⟨_, _, rfl, rfl, u.apply_twice_changed_iff t₁ t₂ p, fun hsame => ?_⟩
  constructor
  · exact apply_unchanged hsame
  · rw [PendingStatus.commit_applyEach]
    simp [lastSeen, hsame]

theorem Scale.advance_seen (s : Scale) (state : ScaleState) (t : Instant) :
    ∃ direction reason outcome millis, (s.advance state t).2.Sublist
      [.commandedUnknown, .failure direction reason, .duration direction outcome millis] := by
  cases state with
  | notApplicable => exact ⟨.up, .error, .success, 0, List.nil_sublist _⟩
  | commanded direction => exact ⟨.up, .error, .success, 0, List.nil_sublist _⟩
  | unknownCommanded => exact ⟨.up, .error, .success, 0, by simp [advance]⟩
  | enacted direction =>
    by_cases hdue : (s.lastEnacted.isEmpty && !s.lastCommanded.isEmpty) = true
    · simp only [advance, if_pos hdue]
      rcases durationSince_cases s.lastCommanded t direction .success with h | ⟨millis, h⟩
      · exact ⟨direction, .error, .success, 0, by simp [h]⟩
      · exact ⟨direction, .error, .success, millis, by simp [h]⟩
    · simp only [advance, if_neg hdue]
      exact ⟨direction, .error, .success, 0, List.nil_sublist _⟩
  | failed direction reason =>
    by_cases hdue : s.lastFailed.isEmpty = true
    · simp only [advance, if_pos hdue]
      rcases durationSince_cases s.lastCommanded t direction .failure with h | ⟨millis, h⟩
      · exact ⟨direction, reason, .failure, 0, by simp [h]⟩
      · exact ⟨direction, reason, .failure, millis, by simp [h]⟩
    · simp only [advance, if_neg hdue]
      exact ⟨direction, reason, .failure, 0, List.nil_sublist _⟩

/-- No scale metric goes up by more than one. -/
structure CountsOnce (events : List Event) : Prop where
  failures : (events.filterMap Metrics.failureLabels).length ≤ 1
  durations : (events.filterMap Metrics.durationOf).length ≤ 1
  unknowns : events.countP (· == .scale .commandedUnknown) ≤ 1

theorem CountsOnce.of_sublist {events more : List Event} (h : events.Sublist more)
    (hmore : CountsOnce more) : CountsOnce events where
  failures := Nat.le_trans (h.filterMap _).length_le hmore.failures
  durations := Nat.le_trans (h.filterMap _).length_le hmore.durations
  unknowns := Nat.le_trans h.countP_le hmore.unknowns

theorem CountsOnce.step (direction : Direction) (reason : FailureReason) (outcome : ScaleOutcome)
    (millis : Nat) :
    CountsOnce ([.commandedUnknown, .failure direction reason,
      .duration direction outcome millis].map .scale) :=
  ⟨Nat.le_refl 1, Nat.le_refl 1, Nat.le_refl 1⟩

theorem StatusUpdate.lastSeen_countsOnce (u : StatusUpdate) (applications : List (Instant × Pod)) :
    CountsOnce ((u.lastSeen applications).map .scale) := by
  unfold lastSeen
  cases applications.getLast? with
  | none => exact ⟨Nat.zero_le 1, Nat.zero_le 1, Nat.zero_le 1⟩
  | some last =>
    by_cases hchanged : (u.apply last.1 last.2).changed = true
    · obtain ⟨direction, reason, outcome, millis, hseen⟩ :=
        last.2.history.advance_seen u.scaleState last.1
      simp only [hchanged, if_true]
      exact .of_sublist (hseen.map Event.scale) (.step direction reason outcome millis)
    · simp only [hchanged]
      exact ⟨Nat.zero_le 1, Nat.zero_le 1, Nat.zero_le 1⟩

end PodSizing
