import Mathlib.Algebra.Ring.Nat
import PodSizing.Proofs.Status.Moves

/-!
# The history between commands

A run of status updates, each through its mutator on the pod that the one before has left. Every step
moves the history that it finds, so whatever is counted of a run is paid for by the commands in it.
-/
namespace PodSizing
open Time (Instant)

structure StatusStep where
  update : StatusUpdate
  now : Instant
  found : Pod

namespace StatusStep

def edit (s : StatusStep) : Edit := s.update.apply s.now s.found

def left (s : StatusStep) : Pod := s.edit.pod

def isCommand (s : StatusStep) : Bool := s.update.scaleState.isCommand

def observed (kind : Observation → Bool) (s : StatusStep) : Nat := s.edit.observations.countP kind

/-- The steps of updates that are made one after the other. -/
def run : Pod → List (StatusUpdate × Instant) → List StatusStep
  | _, [] => []
  | p, (u, now) :: rest => ⟨u, now, p⟩ :: run (u.apply now p).pod rest

theorem moves (s : StatusStep) :
    s.found.history.Moves s.now s.isCommand s.left.history s.edit.observations := by
  have hseen : s.edit.observations.Sublist
      (s.found.history.advance s.update.scaleState s.now).2 := by
    rcases s.update.apply_observations s.now s.found with h | h
    · exact h ▸ List.nil_sublist _
    · exact h ▸ List.Sublist.refl _
  rw [left, edit, StatusUpdate.apply_history]
  exact s.found.history.advance_moves s.update.scaleState s.now s.update.enabled hseen

theorem moves_of {s : StatusStep} {command : Bool} (h : s.isCommand = command) :
    s.found.history.Moves s.now command s.left.history s.edit.observations :=
  h ▸ s.moves

/-- What holds of the first history and is kept by every step holds of every history. -/
theorem run_invariant (Kept : Scale → Prop)
    (hstep : ∀ s : StatusStep, Kept s.found.history → Kept s.left.history) {p : Pod}
    (hp : Kept p.history) (updates : List (StatusUpdate × Instant)) :
    ∀ s ∈ run p updates, Kept s.left.history := by
  induction updates generalizing p with
  | nil => exact fun s hs => by cases hs
  | cons u rest ih =>
    intro s hs
    rcases List.mem_cons.1 hs with rfl | hs
    · exact hstep ⟨u.1, u.2, p⟩ hp
    · exact ih (hstep ⟨u.1, u.2, p⟩ hp) s hs

theorem sum_map_toNat (test : StatusStep → Bool) (steps : List StatusStep) :
    (steps.map fun s => (test s).toNat).sum = steps.countP test := by
  induction steps with
  | nil => rfl
  | cons s rest ih =>
    rw [List.map_cons, List.sum_cons, ih, List.countP_cons]
    cases test s <;> simp [Nat.add_comm]

/-- What is counted of a step, with the room that it leaves, is no more than the room that it finds,
and one more for a command. -/
def PaidBy (count : StatusStep → Nat) (room : Scale → Nat) : Prop :=
  ∀ s : StatusStep,
    count s + room s.left.history ≤ room s.found.history + s.isCommand.toNat

theorem run_sum_le {count : StatusStep → Nat} {room : Scale → Nat} (h : PaidBy count room)
    (p : Pod) (updates : List (StatusUpdate × Instant)) :
    ((run p updates).map count).sum ≤ room p.history + (run p updates).countP (·.isCommand) := by
  induction updates generalizing p with
  | nil => exact Nat.zero_le _
  | cons u rest ih =>
    have hstep : count ⟨u.1, u.2, p⟩ + room (left ⟨u.1, u.2, p⟩).history ≤
      room p.history + (isCommand ⟨u.1, u.2, p⟩).toNat := h ⟨u.1, u.2, p⟩
    have hrest := ih (left ⟨u.1, u.2, p⟩)
    have hrun : run p (u :: rest) = ⟨u.1, u.2, p⟩ :: run (left ⟨u.1, u.2, p⟩) rest := rfl
    rw [hrun, List.map_cons, List.sum_cons, List.countP_cons]
    cases hcommand : isCommand ⟨u.1, u.2, p⟩ with
    | true =>
      rw [hcommand, Bool.toNat_true] at hstep
      simp only [if_true]
      omega
    | false =>
      rw [hcommand, Bool.toNat_false] at hstep
      simp only [Bool.false_eq_true, if_false]
      omega

theorem durations_paid (outcome : ScaleOutcome) :
    PaidBy (observed (·.isDuration outcome)) (·.durationRoom outcome) :=
  fun s => s.moves.durations_le outcome

theorem failures_paid : PaidBy (observed (·.isFailure)) (·.stampRoom .failure) :=
  fun s => s.moves.failures_le

def restamps (outcome : ScaleOutcome) (s : StatusStep) : Bool :=
  s.left.history.ended outcome ≠ s.found.history.ended outcome

theorem restamps_cases {outcome : ScaleOutcome} {s : StatusStep} (hcommand : s.isCommand = false)
    (h : s.restamps outcome = true) :
    s.found.history.ended outcome = "" ∧ s.left.history.ended outcome = Time.stamp s.now := by
  rcases (moves_of hcommand).ended_cases outcome with hsame | hset
  · simp [restamps, hsame] at h
  · exact hset

theorem restamps_paid (outcome : ScaleOutcome) :
    PaidBy (fun s => (!s.isCommand && s.restamps outcome).toNat) (·.stampRoom outcome) := by
  intro s
  dsimp only
  cases hcommand : s.isCommand with
  | true =>
    have hroom := Scale.stampRoom_le_one outcome s.left.history
    simp only [Bool.not_true, Bool.false_and, Bool.toNat_false, Bool.toNat_true]
    omega
  | false =>
    cases hstamps : s.restamps outcome with
    | true =>
      obtain ⟨hempty, hstamp⟩ := restamps_cases hcommand hstamps
      have hbefore : s.found.history.stampRoom outcome = 1 := if_pos hempty
      have hafter : s.left.history.stampRoom outcome = 0 :=
        if_neg (hstamp ▸ Time.stamp_ne s.now)
      simp [hbefore, hafter]
    | false =>
      have hsame : s.left.history.ended outcome = s.found.history.ended outcome := by
        simpa [restamps] using hstamps
      simp [Scale.stampRoom, hsame]

theorem run_of_suffix {earlier stretch : List StatusStep} {p : Pod}
    {updates : List (StatusUpdate × Instant)} (h : earlier ++ stretch = run p updates) :
    ∃ q rest, stretch = run q rest := by
  induction earlier generalizing p updates with
  | nil => exact ⟨p, updates, h⟩
  | cons s earlier ih =>
    cases updates with
    | nil => cases h
    | cons u rest => exact ih (List.cons.inj h).2

theorem run_of_prefix {stretch later : List StatusStep} {p : Pod}
    {updates : List (StatusUpdate × Instant)} (h : stretch ++ later = run p updates) :
    ∃ rest, stretch = run p rest := by
  induction stretch generalizing p updates with
  | nil => exact ⟨[], rfl⟩
  | cons s stretch ih =>
    cases updates with
    | nil => cases h
    | cons u rest =>
      obtain ⟨hhead, htail⟩ := List.cons.inj h
      obtain ⟨us, hus⟩ := ih htail
      exact ⟨u :: us, by rw [hhead, hus]; rfl⟩

theorem run_of_infix {stretch : List StatusStep} {p : Pod}
    {updates : List (StatusUpdate × Instant)} (h : stretch <:+: run p updates) :
    ∃ q rest, stretch = run q rest := by
  obtain ⟨earlier, later, h⟩ := h
  rw [List.append_assoc] at h
  obtain ⟨q, rest, hsuffix⟩ := run_of_suffix h
  obtain ⟨us, hus⟩ := run_of_prefix hsuffix
  exact ⟨q, us, hus⟩

/-- Between commands the stamp changes at most once, from the empty text to the time of the change. -/
def StampedOnce (outcome : ScaleOutcome) (steps : List StatusStep) : Prop :=
  ∀ stretch, stretch <:+: steps → (∀ s ∈ stretch, s.isCommand = false) →
    stretch.countP (·.restamps outcome) ≤ 1 ∧
      ∀ s ∈ stretch, s.restamps outcome = true →
        s.found.history.ended outcome = "" ∧ s.left.history.ended outcome = Time.stamp s.now

/-- No step makes two observations of the kind, and between two steps with one there is a command. -/
structure Apart (kind : Observation → Bool) (steps : List StatusStep) : Prop where
  single : ∀ s ∈ steps, s.observed kind ≤ 1
  between : ∀ a rest b, a :: (rest ++ [b]) <:+: steps → 0 < a.observed kind →
    0 < b.observed kind → ∃ s ∈ rest, s.isCommand = true

theorem run_stampedOnce (outcome : ScaleOutcome) (p : Pod)
    (updates : List (StatusUpdate × Instant)) : StampedOnce outcome (run p updates) := by
  intro stretch hstretch hquiet
  refine ⟨?_, fun s hs hstamps => restamps_cases (hquiet s hs) hstamps⟩
  obtain ⟨q, rest, rfl⟩ := run_of_infix hstretch
  have hsum := run_sum_le (restamps_paid outcome) q rest
  have hroom := Scale.stampRoom_le_one outcome q.history
  have hcommands : (run q rest).countP (·.isCommand) = 0 :=
    List.countP_eq_zero.2 fun s hs => by simp [hquiet s hs]
  have hcount : (run q rest).countP (fun s => !s.isCommand && s.restamps outcome) =
      (run q rest).countP (·.restamps outcome) :=
    List.countP_congr fun s hs => by simp [hquiet s hs]
  rw [sum_map_toNat, hcount] at hsum
  omega

theorem run_apart {kind : Observation → Bool} {room : Scale → Nat}
    (hpaid : PaidBy (observed kind) room) (hroom : ∀ s, room s ≤ 1)
    (hkind : kind .commandedUnknown = false) (p : Pod)
    (updates : List (StatusUpdate × Instant)) : Apart kind (run p updates) where
  single s hs := by
    have hstep := hpaid s
    have hfound := hroom s.found.history
    cases hcommand : s.isCommand with
    | true =>
      have hnone : s.observed kind = 0 := (moves_of hcommand).command_quiet hkind
      omega
    | false =>
      rw [hcommand, Bool.toNat_false] at hstep
      omega
  between a rest b hinfix ha hb := by
    obtain ⟨q, us, hrun⟩ := run_of_infix hinfix
    have hsum := run_sum_le hpaid q us
    have hq := hroom q.history
    rw [← hrun, List.map_cons, List.map_append, List.sum_cons, List.sum_append, List.map_singleton,
      List.sum_singleton] at hsum
    have hpos : 0 < (a :: (rest ++ [b])).countP (·.isCommand) := by omega
    obtain ⟨s, hs, hcommand⟩ := List.countP_pos_iff.1 hpos
    -- what commands observes nothing of the kind, so it is neither of the two
    have hnone : s.observed kind = 0 := (moves_of hcommand).command_quiet hkind
    rcases List.mem_cons.1 hs with rfl | hs
    · omega
    · rcases List.mem_append.1 hs with hs | hs
      · exact ⟨s, hs, hcommand⟩
      · obtain rfl := List.mem_singleton.1 hs
        omega

def observations (steps : List StatusStep) : List Observation := steps.flatMap (·.edit.observations)

theorem countP_observations (kind : Observation → Bool) (steps : List StatusStep) :
    (observations steps).countP kind = (steps.map (observed kind)).sum :=
  List.countP_flatMap

/-- How the history of a pod's scales goes along a run of updates. -/
structure MonotoneHistory (steps : List StatusStep) : Prop where
  enacted_commanded : ∀ s ∈ steps,
    s.left.history.lastEnacted ≠ "" → s.left.history.lastCommanded ≠ ""
  commanded_by : ∀ s ∈ steps,
    s.left.history.lastCommanded ≠ s.found.history.lastCommanded → s.isCommand = true
  command_clears : ∀ s ∈ steps, s.isCommand = true →
    s.left.history.lastEnacted = "" ∧ s.left.history.lastFailed = ""
  stamped_once : ∀ outcome, StampedOnce outcome steps
  durations : ∀ outcome,
    (observations steps).countP (·.isDuration outcome) ≤ steps.countP (·.isCommand)
  failures : (observations steps).countP (·.isFailure) ≤ steps.countP (·.isCommand) + 1
  durations_apart : ∀ outcome, Apart (·.isDuration outcome) steps
  failures_apart : Apart (·.isFailure) steps

end StatusStep

theorem Pod.history_of_unannotated {p : Pod} (h : p.hasAnnotation Key.status = false) :
    p.history = {} := by
  have hnone : p.annotation? Key.status = none := by simpa [Pod.hasAnnotation] using h
  simp [Pod.history, Pod.statusRecord?, hnone]

open StatusStep

/-- Along every run of updates of a pod that had no status, a success is recorded only of what was
commanded, commands alone change the stamp of the last command and clear the others, and each command
makes room for one success and one failure at most. -/
theorem history_monotone {p : Pod} (h : p.hasAnnotation Key.status = false)
    (updates : List (StatusUpdate × Instant)) : MonotoneHistory (run p updates) := by
  have hhistory := Pod.history_of_unannotated h
  constructor
  case enacted_commanded =>
    refine run_invariant (fun s => s.lastEnacted ≠ "" → s.lastCommanded ≠ "")
      (fun s => s.moves.enacted_commanded) ?_ updates
    rw [hhistory]
    exact fun hne => absurd rfl hne
  case commanded_by =>
    intro s _ hchanged
    cases hcommand : s.isCommand with
    | true => rfl
    | false => exact absurd (moves_of hcommand).lastCommanded_eq hchanged
  case command_clears =>
    intro s _ hcommand
    exact (moves_of hcommand).command_cleared
  case stamped_once => exact fun outcome => run_stampedOnce outcome p updates
  case durations =>
    intro outcome
    have hsum := run_sum_le (durations_paid outcome) p updates
    have hroom : p.history.durationRoom outcome = 0 := by
      rw [hhistory]
      exact if_neg fun h => h.2 rfl
    rw [countP_observations]
    omega
  case failures =>
    have hsum := run_sum_le failures_paid p updates
    have hroom := p.history.stampRoom_le_one .failure
    rw [countP_observations]
    omega
  case durations_apart =>
    intro outcome
    exact run_apart (durations_paid outcome) (Scale.durationRoom_le_one outcome) rfl p updates
  case failures_apart =>
    exact run_apart failures_paid (Scale.stampRoom_le_one .failure) rfl p updates

/-- A scale that failed before any command, one that failed and then was enacted, and one that was
enacted twice. -/
def eventfulUpdates : List (StatusUpdate × Instant) :=
  [(⟨"failed", {}, .failed .up .error, [.cpu]⟩, ⟨0⟩),
    (⟨"commanded", {}, .commanded .down, [.cpu]⟩, ⟨1000⟩),
    (⟨"failed", {}, .failed .down .infeasible, [.cpu]⟩, ⟨2000⟩),
    (⟨"enacted", {}, .enacted .down, [.cpu]⟩, ⟨3500⟩),
    (⟨"commanded", {}, .unknownCommanded, [.cpu, .memory]⟩, ⟨4000⟩),
    (⟨"enacted", {}, .enacted .up, [.cpu, .memory]⟩, ⟨5000⟩),
    (⟨"still enacted", {}, .enacted .up, [.cpu, .memory]⟩, ⟨4500⟩)]

def StatusUpdate.follow (u : StatusUpdate) (now : Instant) (found : Option StatusRecord) :
    Option StatusRecord × List Observation :=
  let step := u.next ((found.map (·.scale)).getD {}) now
  if found.any (·.agrees step.1) then (found, []) else (some step.1, step.2)

theorem StatusUpdate.apply_follow (u : StatusUpdate) (now : Instant) (p : Pod) :
    ((u.apply now p).pod.statusRecord?, (u.apply now p).observations) =
      u.follow now p.statusRecord? := by
  have hfollow : u.follow now p.statusRecord? =
      if p.statusRecord?.any (·.agrees (u.next p.history now).1) then (p.statusRecord?, [])
      else (some (u.next p.history now).1, (u.next p.history now).2) := rfl
  rw [apply_eq, hfollow]
  split
  · rfl
  · rw [StatusRecord.statusRecord?_afterWrite]

def StatusStep.trail : Option StatusRecord → List (StatusUpdate × Instant) →
    List (Scale × List Observation)
  | _, [] => []
  | found, (u, now) :: rest =>
    let step := u.follow now found
    ((step.1.map (·.scale)).getD {}, step.2) :: trail step.1 rest

/-- Of the pod a run needs the record alone. -/
theorem StatusStep.run_trail (p : Pod) (updates : List (StatusUpdate × Instant)) :
    (run p updates).map (fun s => (s.left.history, s.edit.observations)) =
      trail p.statusRecord? updates := by
  induction updates generalizing p with
  | nil => rfl
  | cons u rest ih =>
    have hfollow := u.1.apply_follow u.2 p
    rw [trail, ← hfollow, ← ih]
    rfl

/-- The first command has a failure and then a success, the second a success. The failure before them has
no duration, and what is told once more leaves no mark. -/
theorem eventfulUpdates_monotone :
    Pod.hasAnnotation {} Key.status = false ∧ MonotoneHistory (run {} eventfulUpdates) ∧
      (run {} eventfulUpdates).countP (·.isCommand) = 2 ∧
      (run {} eventfulUpdates).map (fun s => (s.left.history, s.edit.observations)) =
        let first := Time.stamp ⟨1000⟩
        let second := Time.stamp ⟨4000⟩
        [(⟨[.cpu], "", "", Time.stamp ⟨0⟩⟩, [.failure .up .error]),
          (⟨[.cpu], first, "", ""⟩, []),
          (⟨[.cpu], first, "", Time.stamp ⟨2000⟩⟩,
            [.failure .down .infeasible, .duration .down .failure 1000]),
          (⟨[.cpu], first, Time.stamp ⟨3500⟩, Time.stamp ⟨2000⟩⟩, [.duration .down .success 2500]),
          (⟨[.cpu, .memory], second, "", ""⟩, [.commandedUnknown]),
          (⟨[.cpu, .memory], second, Time.stamp ⟨5000⟩, ""⟩, [.duration .up .success 1000]),
          (⟨[.cpu, .memory], second, Time.stamp ⟨5000⟩, ""⟩, [])] := by
  have hnone : Pod.hasAnnotation {} Key.status = false := rfl
  have hmonotone : MonotoneHistory (run {} eventfulUpdates) :=
    history_monotone hnone eventfulUpdates
  refine ⟨hnone, hmonotone, rfl, ?_⟩
  rw [run_trail]
  decide +kernel

end PodSizing
