import PodSizing.Proofs.Status.RoundTrip

/-!
# Applying a status update again

An update that commands nothing is written once: applied to the pod that it has written, at any
later time, it reports no change. Successes and failures are stamped only where no stamp stands, and
a record is read back as it was written.
-/
namespace PodSizing
open Time (Instant)

theorem Time.stamp_ne_empty (t : Instant) : (Time.stamp t).isEmpty = false := by
  simp [Time.stamp, ← String.toList_inj]

namespace ScaleState

def isCommand : ScaleState → Bool
  | .commanded _ | .unknownCommanded => true
  | .notApplicable | .enacted _ | .failed _ _ => false

end ScaleState

/-- A history that has taken a step takes the same step no further. -/
theorem Scale.advance_again (s : Scale) {state : ScaleState} (h : state.isCommand = false)
    (names : List ResourceName) (t₁ t₂ : Instant) :
    ({ (s.advance state t₁).1 with enabledForResources := names } : Scale).advance state t₂ =
      ({ (s.advance state t₁).1 with enabledForResources := names }, []) := by
  cases state with
  | notApplicable => rfl
  | commanded direction => cases h
  | unknownCommanded => cases h
  | enacted direction =>
    by_cases hdue : (s.lastEnacted.isEmpty && !s.lastCommanded.isEmpty) = true
    · simp [advance, hdue, Time.stamp_ne_empty]
    · simp [advance, hdue]
  | failed direction reason =>
    by_cases hdue : s.lastFailed.isEmpty = true
    · simp [advance, hdue, Time.stamp_ne_empty]
    · simp [advance, hdue]

/-- The history of a pod's scales, by its status; an empty one if it has none that can be read. -/
def Pod.history (p : Pod) : Scale := (p.statusRecord?.map StatusRecord.scale).getD {}

theorem StatusRecord.agrees_iff {a b : StatusRecord} :
    a.agrees b = true ↔ a.status = b.status ∧ a.states = b.states ∧ a.scale = b.scale := by
  simp only [agrees, Bool.and_eq_true, decide_eq_true_eq, and_assoc]

theorem Pod.history_of_agrees {p : Pod} {record : StatusRecord}
    (h : p.statusRecord?.any (·.agrees record) = true) : p.history = record.scale := by
  obtain ⟨r, hr, hsame⟩ := (Option.any_eq_true _ _).1 h
  have hhistory : p.history = r.scale := by simp [Pod.history, hr]
  exact hhistory.trans (StatusRecord.agrees_iff.1 hsame).2.2

namespace StatusUpdate

variable {u : StatusUpdate}

theorem apply_eq (u : StatusUpdate) (t : Instant) (p : Pod) :
    u.apply t p =
      if p.statusRecord?.any (·.agrees (u.next p.history t).1) then { changed := false, pod := p }
      else
        { changed := true
          pod := p.setAnnotation Key.status (u.next p.history t).1.write
          observations := (u.next p.history t).2 } := rfl

theorem next_again (h : u.scaleState.isCommand = false) (s : Scale) (t₁ t₂ : Instant) :
    (u.next s t₁).1.agrees (u.next (u.next s t₁).1.scale t₂).1 = true ∧
      (u.next (u.next s t₁).1.scale t₂).2 = [] := by
  have hagain := s.advance_again h u.enabled t₁ t₂
  simp only [next, StatusRecord.agrees, hagain]
  simp

/-- After an update the pod says what the update says, whether or not it had to be written. -/
theorem apply_agrees (u : StatusUpdate) (t : Instant) (p : Pod) :
    (u.apply t p).pod.statusRecord?.any (·.agrees (u.next p.history t).1) = true := by
  by_cases hagrees : p.statusRecord?.any (·.agrees (u.next p.history t).1) = true
  · rw [apply_eq, if_pos hagrees]
    exact hagrees
  · rw [apply_eq, if_neg hagrees, StatusRecord.statusRecord?_afterWrite]
    simp [StatusRecord.agrees]

theorem any_agrees_iff {p : Pod} {a b : StatusRecord}
    (h : p.statusRecord?.any (·.agrees a) = true) :
    p.statusRecord?.any (·.agrees b) = true ↔ a.agrees b = true := by
  obtain ⟨r, hr, hra⟩ := (Option.any_eq_true _ _).1 h
  have hra := StatusRecord.agrees_iff.1 hra
  simp only [hr, Option.any_some, StatusRecord.agrees_iff, hra]

/-- Applied once more, an update that commands nothing finds its own record and changes nothing. -/
theorem apply_again (h : u.scaleState.isCommand = false) (t₁ t₂ : Instant) (p : Pod) :
    u.apply t₂ (u.apply t₁ p).pod = { changed := false, pod := (u.apply t₁ p).pod } := by
  have hagrees := u.apply_agrees t₁ p
  have hnext := (next_again h p.history t₁ t₂).1
  rw [apply_eq, Pod.history_of_agrees hagrees, if_pos ((any_agrees_iff hagrees).2 hnext)]

theorem apply_pod (u : StatusUpdate) (t : Instant) (p : Pod) :
    (u.apply t p).pod = p ∨ ∃ value, (u.apply t p).pod = p.setAnnotation Key.status value := by
  rw [apply_eq]
  split
  · exact .inl rfl
  · exact .inr ⟨_, rfl⟩

theorem applyAll_mutator (u : StatusUpdate) (t : Instant) (p : Pod) :
    Mutator.applyAll [u.mutator] t p = .ok (u.apply t p) := by
  simp [Mutator.applyAll, Mutator.andThen, mutator, Except.map, bind, Except.bind, pure, Except.pure]

/-- Whatever an update does to a pod, the pod stays the same but for the status. -/
theorem apply_same (u : StatusUpdate) (t : Instant) (p : Pod) :
    SameButStatus p (u.apply t p).pod := by
  rcases u.apply_pod t p with hpod | ⟨value, hpod⟩
  · rw [hpod]
    exact SameButStatus.refl p
  · rw [hpod]
    exact p.setAnnotation_status_same value

theorem apply_version (u : StatusUpdate) (t : Instant) (p : Pod) :
    (u.apply t p).pod.resourceVersion = p.resourceVersion := by
  rcases u.apply_pod t p with hpod | ⟨value, hpod⟩ <;> rw [hpod]
  rfl

theorem apply_unchanged {t : Instant} {p : Pod} (h : (u.apply t p).changed = false) :
    (u.apply t p).pod = p := by
  rw [apply_eq] at h ⊢
  split
  · rfl
  · next hdiffers => simp [hdiffers] at h

theorem apply_withVersion (u : StatusUpdate) (t : Instant) (p : Pod) (version : Option String) :
    (u.apply t (p.withVersion version)).changed = (u.apply t p).changed := by
  have hrecord : (p.withVersion version).statusRecord? = p.statusRecord? := rfl
  have hhistory : (p.withVersion version).history = p.history := rfl
  rw [apply_eq, apply_eq, hrecord, hhistory]
  split <;> rfl

end StatusUpdate
end PodSizing
