import PodSizing.Proofs.Status.Commanded

/-!
# Moves of a scale history

What one status update can do to the history that it finds. A command starts a history that has room
for one success and one failure, and each of them takes its room when it is stamped: what is observed
of a move, with the room that is left, is no more than the room that was there, and one more for a
command.
-/
namespace PodSizing
open Time (Instant)

namespace Observation

def isDuration (outcome : ScaleOutcome) : Observation → Bool
  | .duration _ ended _ => ended = outcome
  | .commandedUnknown | .failure _ _ => false

def isFailure : Observation → Bool
  | .failure _ _ => true
  | .commandedUnknown | .duration _ _ _ => false

end Observation

theorem Time.stamp_ne (t : Instant) : Time.stamp t ≠ "" :=
  String.isEmpty_eq_false_iff.1 (Time.stamp_ne_empty t)

section DurationSince
variable {kind : Observation → Bool} {commanded : String} {now : Instant} {direction : Direction}
  {outcome : ScaleOutcome}

theorem durationSince_cases (commanded : String) (now : Instant) (direction : Direction)
    (outcome : ScaleOutcome) :
    durationSince commanded now direction outcome = [] ∨
      ∃ millis, durationSince commanded now direction outcome =
        [.duration direction outcome millis] := by
  unfold durationSince
  split
  · exact .inr ⟨_, rfl⟩
  · exact .inl rfl

theorem countP_durationSince_le :
    (durationSince commanded now direction outcome).countP kind ≤ 1 := by
  rcases durationSince_cases commanded now direction outcome with h | ⟨millis, h⟩
  · rw [h]
    exact Nat.zero_le 1
  · rw [h]
    exact List.countP_le_length

theorem countP_durationSince_eq_zero
    (hkind : ∀ millis, kind (.duration direction outcome millis) = false) :
    (durationSince commanded now direction outcome).countP kind = 0 := by
  rcases durationSince_cases commanded now direction outcome with h | ⟨millis, h⟩
  · rw [h]
    rfl
  · rw [h, List.countP_singleton, hkind millis]
    rfl

end DurationSince

namespace Scale

/-- From one history to the next, by an update that commands or not, and what is observed of it. -/
inductive Moves (s : Scale) (now : Instant) : Bool → Scale → List Observation → Prop
  | keep (names : List ResourceName) : Moves s now false { s with enabledForResources := names } []
  | command (names : List ResourceName) {seen : List Observation}
      (hseen : seen.Sublist [.commandedUnknown]) :
      Moves s now true ⟨names, Time.stamp now, "", ""⟩ seen
  | enact (names : List ResourceName) {seen : List Observation} (direction : Direction)
      (hroom : s.lastEnacted = "") (hcommanded : s.lastCommanded ≠ "")
      (hseen : seen.Sublist (durationSince s.lastCommanded now direction .success)) :
      Moves s now false ⟨names, s.lastCommanded, Time.stamp now, s.lastFailed⟩ seen
  | fail (names : List ResourceName) {seen : List Observation} (direction : Direction)
      (reason : FailureReason) (hroom : s.lastFailed = "")
      (hseen : seen.Sublist
        (.failure direction reason :: durationSince s.lastCommanded now direction .failure)) :
      Moves s now false ⟨names, s.lastCommanded, s.lastEnacted, Time.stamp now⟩ seen

/-- Every update makes one of the moves, whether or not what it lets be seen counts. -/
theorem advance_moves (s : Scale) (state : ScaleState) (now : Instant) (names : List ResourceName)
    {seen : List Observation} (hseen : seen.Sublist (s.advance state now).2) :
    s.Moves now state.isCommand { (s.advance state now).1 with enabledForResources := names }
      seen := by
  cases state with
  | notApplicable =>
    obtain rfl : seen = [] := List.sublist_nil.1 hseen
    exact .keep names
  | commanded direction => exact .command names (hseen.trans (List.nil_sublist _))
  | unknownCommanded => exact .command names hseen
  | enacted direction =>
    by_cases hdue : (s.lastEnacted.isEmpty && !s.lastCommanded.isEmpty) = true
    · simp only [advance, if_pos hdue] at hseen ⊢
      simp only [Bool.and_eq_true, Bool.not_eq_true', String.isEmpty_iff,
        String.isEmpty_eq_false_iff] at hdue
      exact .enact names direction hdue.1 hdue.2 hseen
    · simp only [advance, if_neg hdue] at hseen ⊢
      obtain rfl : seen = [] := List.sublist_nil.1 hseen
      exact .keep names
  | failed direction reason =>
    by_cases hdue : s.lastFailed.isEmpty = true
    · simp only [advance, if_pos hdue] at hseen ⊢
      exact .fail names direction reason (String.isEmpty_iff.1 hdue) hseen
    · simp only [advance, if_neg hdue] at hseen ⊢
      obtain rfl : seen = [] := List.sublist_nil.1 hseen
      exact .keep names

def ended (s : Scale) : ScaleOutcome → String
  | .success => s.lastEnacted
  | .failure => s.lastFailed

def durationRoom (outcome : ScaleOutcome) (s : Scale) : Nat :=
  if s.ended outcome = "" ∧ s.lastCommanded ≠ "" then 1 else 0

def stampRoom (outcome : ScaleOutcome) (s : Scale) : Nat := if s.ended outcome = "" then 1 else 0

theorem durationRoom_le_one (outcome : ScaleOutcome) (s : Scale) : s.durationRoom outcome ≤ 1 := by
  unfold durationRoom
  split <;> omega

theorem stampRoom_le_one (outcome : ScaleOutcome) (s : Scale) : s.stampRoom outcome ≤ 1 := by
  unfold stampRoom
  split <;> omega

namespace Moves
variable {s t : Scale} {now : Instant} {command : Bool} {seen : List Observation}

theorem of_command (h : s.Moves now true t seen) :
    t.lastCommanded = Time.stamp now ∧ t.lastEnacted = "" ∧ seen.Sublist [.commandedUnknown] := by
  cases h with
  | command names hseen => exact ⟨rfl, rfl, hseen⟩

/-- A duration is seen where there was room for it, which is then taken. -/
theorem durations_le (h : s.Moves now command t seen) (outcome : ScaleOutcome) :
    seen.countP (·.isDuration outcome) + t.durationRoom outcome ≤
      s.durationRoom outcome + command.toNat := by
  cases h with
  | keep names =>
    have hsame : durationRoom outcome { s with enabledForResources := names } =
        s.durationRoom outcome := by cases outcome <;> rfl
    rw [hsame, List.countP_nil]
    omega
  | command names hseen =>
    have hcount : seen.countP (·.isDuration outcome) ≤ 0 := hseen.countP_le
    have hroom := durationRoom_le_one outcome ⟨names, Time.stamp now, "", ""⟩
    rw [Bool.toNat_true]
    omega
  | enact names direction hroom hcommanded hseen =>
    cases outcome with
    | success =>
      have hcount : seen.countP (·.isDuration .success) ≤ 1 :=
        Nat.le_trans hseen.countP_le countP_durationSince_le
      have hbefore : s.durationRoom .success = 1 := if_pos ⟨hroom, hcommanded⟩
      have hafter : durationRoom .success
          ⟨names, s.lastCommanded, Time.stamp now, s.lastFailed⟩ = 0 :=
        if_neg fun h => Time.stamp_ne now h.1
      omega
    | failure =>
      have hcount : seen.countP (·.isDuration .failure) ≤ 0 :=
        Nat.le_trans hseen.countP_le
          (Nat.le_of_eq (countP_durationSince_eq_zero fun millis => rfl))
      have hsame : durationRoom .failure ⟨names, s.lastCommanded, Time.stamp now, s.lastFailed⟩ =
        s.durationRoom .failure := rfl
      omega
  | fail names direction reason hroom hseen =>
    have hcount := hseen.countP_le (p := (·.isDuration outcome))
    rw [List.countP_cons_of_neg (by simp [Observation.isDuration])] at hcount
    cases outcome with
    | success =>
      rw [countP_durationSince_eq_zero fun millis => rfl] at hcount
      have hsame : durationRoom .success ⟨names, s.lastCommanded, s.lastEnacted, Time.stamp now⟩ =
        s.durationRoom .success := rfl
      omega
    | failure =>
      have hafter : durationRoom .failure
          ⟨names, s.lastCommanded, s.lastEnacted, Time.stamp now⟩ = 0 :=
        if_neg fun h => Time.stamp_ne now h.1
      by_cases hcommanded : s.lastCommanded = ""
      · rw [hcommanded] at hcount
        have hnone : seen.countP (·.isDuration .failure) ≤ 0 := hcount
        omega
      · have hbefore : s.durationRoom .failure = 1 := if_pos ⟨hroom, hcommanded⟩
        have hone := Nat.le_trans hcount countP_durationSince_le
        omega

theorem failures_le (h : s.Moves now command t seen) :
    seen.countP (·.isFailure) + t.stampRoom .failure ≤ s.stampRoom .failure + command.toNat := by
  cases h with
  | keep names =>
    have hsame : stampRoom .failure { s with enabledForResources := names } = s.stampRoom .failure := rfl
    rw [hsame, List.countP_nil]
    omega
  | command names hseen =>
    have hcount : seen.countP (·.isFailure) ≤ 0 := hseen.countP_le
    have hroom := stampRoom_le_one .failure ⟨names, Time.stamp now, "", ""⟩
    rw [Bool.toNat_true]
    omega
  | enact names direction hroom hcommanded hseen =>
    have hcount : seen.countP (·.isFailure) ≤ 0 :=
      Nat.le_trans hseen.countP_le
        (Nat.le_of_eq (countP_durationSince_eq_zero fun millis => rfl))
    have hsame : stampRoom .failure ⟨names, s.lastCommanded, Time.stamp now, s.lastFailed⟩ =
      s.stampRoom .failure := rfl
    omega
  | fail names direction reason hroom hseen =>
    have hcount : seen.countP (·.isFailure) ≤ 1 := by
      refine Nat.le_trans hseen.countP_le (Nat.le_of_eq ?_)
      rw [List.countP_cons, countP_durationSince_eq_zero fun millis => rfl]
      rfl
    have hbefore : s.stampRoom .failure = 1 := if_pos hroom
    have hafter : stampRoom .failure ⟨names, s.lastCommanded, s.lastEnacted, Time.stamp now⟩ = 0 :=
      if_neg (Time.stamp_ne now)
    omega

/-- Without a command, a stamp of how a scale ended stays as it is or is set where there was none. -/
theorem ended_cases (h : s.Moves now false t seen) (outcome : ScaleOutcome) :
    t.ended outcome = s.ended outcome ∨
      s.ended outcome = "" ∧ t.ended outcome = Time.stamp now := by
  cases h with
  | keep names => exact .inl (by cases outcome <;> rfl)
  | enact names direction hroom hcommanded hseen =>
    cases outcome with
    | success => exact .inr ⟨hroom, rfl⟩
    | failure => exact .inl rfl
  | fail names direction reason hroom hseen =>
    cases outcome with
    | success => exact .inl rfl
    | failure => exact .inr ⟨hroom, rfl⟩

theorem command_cleared (h : s.Moves now true t seen) :
    t.lastEnacted = "" ∧ t.lastFailed = "" := by
  cases h with
  | command names hseen => exact ⟨rfl, rfl⟩

theorem lastCommanded_eq (h : s.Moves now false t seen) : t.lastCommanded = s.lastCommanded := by
  cases h <;> rfl

theorem enacted_commanded (h : s.Moves now command t seen)
    (hs : s.lastEnacted ≠ "" → s.lastCommanded ≠ "") :
    t.lastEnacted ≠ "" → t.lastCommanded ≠ "" := by
  cases h with
  | keep names => exact hs
  | command names hseen => exact fun _ => Time.stamp_ne now
  | enact names direction hroom hcommanded hseen => exact fun _ => hcommanded
  | fail names direction reason hroom hseen => exact hs

theorem command_quiet (h : s.Moves now true t seen) {kind : Observation → Bool}
    (hkind : kind .commandedUnknown = false) : seen.countP kind = 0 := by
  cases h with
  | command names hseen =>
    refine Nat.le_zero.1 (Nat.le_trans hseen.countP_le (Nat.le_of_eq ?_))
    rw [List.countP_singleton, hkind]
    rfl

end Moves
end Scale

end PodSizing
