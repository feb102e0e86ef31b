import PodSizing.Proofs.Reconcile.Sessions
import PodSizing.Proofs.Reconcile.Settling
import PodSizing.Proofs.Store

/-!
# Repeated reconciles come to rest

A pod that nobody else changes is visited again and again, while every write is accepted. A command is
followed by one status and then by nothing, unless it is the command that changes nothing: the pod is
then commanded down at every visit.
-/
namespace PodSizing.Reconcile
open Time (Instant)
open Routing

section Visit
variable (config : ReconcileConfig) (id : PodId)

def visit (now : Instant) (s : Store) : Store :=
  ((reconcile config id).run Store.handle { s with now, calls := [] }).2

/-- A visit is what a session makes of the pod when nothing else runs. -/
theorem visit_eq_reconcileAll {s : Store} (hfaults : s.faults = {}) (now : Instant) :
    (Session.reconcileAll config [id] { store := { s with now, calls := [] } }).2.store =
      visit config id now s := by
  have hcalm : s.faults.panicsOnGet = false := by rw [hfaults]
  have hstart : Session.start config id { store := { s with now, calls := [] } } = _ :=
    Session.start_admitted (by simp) hcalm
  simp [Session.reconcileAll, Session.startAll, Session.completeAll, Session.complete, hstart, visit]
  rfl

end Visit

variable {config : ReconcileConfig} {id : PodId} {s : Store} {p : Pod}

def readAt (config : ReconcileConfig) (id : PodId) (now : Instant) (s : Store) : Store :=
  { s with now, calls := [(s.uptime, .get ⟨id, config.retry⟩)] }

def outcomeEvents : Outcome → List Event
  | .terminal e => [.reconcileFailed e.failure]
  | .done | .requeue _ => []

theorem countTerminal_run (outcome : Outcome) (s : Store) :
    (countTerminal outcome).run Store.handle s = (.ok outcome, s.record (outcomeEvents outcome)) := by
  have hnone : s.record [] = s := by simp [Store.record]
  cases outcome with
  | done => exact congrArg (Prod.mk _) hnone.symm
  | requeue millis => exact congrArg (Prod.mk _) hnone.symm
  | terminal e => rfl

/-- A reconcile carries out the plan for the stored pod, and counts the outcome. -/
theorem reconcile_run (config : ReconcileConfig) (hs : s.Holds id p) (now : Instant) :
    (reconcile config id).run Store.handle { s with now, calls := [] } =
      match ((plan config p).program ⟨id, config.retry⟩ p).run Store.handle
        (readAt config id now s) with
      | (.ok outcome, t) => (.ok outcome, t.record (outcomeEvents outcome))
      | (.error message, t) => (.error message, t) := by
  have hanswer : Store.answerGet { s with now, calls := [] } id = .ok (some p) := by
    simp only [Store.answerGet, hs.faults]
    exact congrArg Except.ok hs.found
  have hread : (reconcile config id).run Store.handle { s with now, calls := [] } =
      ((reconcilePod config ⟨id, config.retry⟩ p).bind countTerminal).run Store.handle
        (readAt config id now s) := by
    show ((afterGet config ⟨id, config.retry⟩
      (Store.answerGet { s with now, calls := [] } id)).bind countTerminal).run Store.handle
        (readAt config id now s) = _
    rw [hanswer]
    rfl
  rw [hread, reconcilePod_eq, Program.run_bind]
  cases hrun : ((plan config p).program ⟨id, config.retry⟩ p).run Store.handle
      (readAt config id now s) with
  | mk result after =>
    cases result with
    | error message => rfl
    | ok outcome => exact countTerminal_run outcome after

theorem visit_rest (hs : s.Holds id p) (now : Instant)
    {result : Except String Outcome} (hplan : plan config p = .rest result) :
    ∃ events, visit config id now s = (readAt config id now s).record events := by
  rw [visit, reconcile_run config hs now, hplan]
  cases result with
  | ok outcome => exact ⟨outcomeEvents outcome, rfl⟩
  | error message => exact ⟨[], by simp [Plan.program, Store.record]⟩

theorem reconcile_tell (hs : s.Holds id p) (now : Instant)
    {u : StatusUpdate} {outcome : Outcome} (hplan : plan config p = .tell u outcome) :
    (reconcile config id).run Store.handle { s with now, calls := [] } =
      (.ok outcome, (((readAt config id now s).applied (u.apply now p)).log
        (.patch ⟨id, .once⟩ 1 false true (.ok (u.apply now p).changed))).record
          ((u.apply now p).observations.map .scale ++ outcomeEvents outcome)) := by
  have hedit := u.applyAll_mutator now p
  have hreads : (readAt config id now s).faults = {} := hs.faults
  obtain ⟨q, hpatch⟩ := Store.patch_eq hreads ⟨id, .once⟩ hedit false true
  have hwrite : (writeStatus ⟨id, config.retry⟩ p u).run Store.handle (readAt config id now s) =
      (.ok (), (((readAt config id now s).applied (u.apply now p)).log
        (.patch ⟨id, .once⟩ 1 false true (.ok (u.apply now p).changed))).record
          ((u.apply now p).observations.map .scale)) := by
    simp only [writeStatus, bind, Program.run_bind, Store.run_patch, hpatch]
    rfl
  rw [reconcile_run config hs now, hplan]
  simp only [Plan.program, bind, Program.run_bind, hwrite]
  simp [pure, Store.record]

theorem visit_tell (hs : s.Holds id p) (now : Instant)
    {u : StatusUpdate} {outcome : Outcome} (hplan : plan config p = .tell u outcome) :
    ∃ events, visit config id now s =
      (((readAt config id now s).applied (u.apply now p)).log
        (.patch ⟨id, .once⟩ 1 false true (.ok (u.apply now p).changed))).record events :=
  ⟨_, congrArg Prod.snd (reconcile_tell hs now hplan)⟩

def commandStatus (configs : ScaleConfigs) (states : States) (direction : Direction)
    (state : ScaleState) : StatusUpdate :=
  ⟨direction.phase ++ " resources commanded", states, state, configs.enabledNames⟩

def commandEdit (name : String) (configs : ScaleConfigs) (states : States) (direction : Direction)
    (state : ScaleState) (now : Instant) (p : Pod) : Edit :=
  { (commandStatus configs states direction state).apply now
      (p.withResources name (configs.updates direction)) with changed := true }

theorem visit_command (hs : s.Holds id p) (now : Instant)
    {name : String} {configs : ScaleConfigs} {states : States} {direction : Direction}
    {state : ScaleState} (hplan : plan config p = .command name configs states direction state) :
    visit config id now s =
      (((readAt config id now s).applied (commandEdit name configs states direction state now p)).log
        (.patch ⟨id, config.retry⟩ 2 true true (.ok true))).record
          ((commandEdit name configs states direction state now p).observations.map .scale) := by
  obtain ⟨c, -, hcontainer, -⟩ := classify_withResources (plan_command hplan).2.1 []
  have hpresent : p.isContainerInSpec name = true := by simp [Pod.isContainerInSpec, hcontainer]
  have hreads : (readAt config id now s).faults = {} := hs.faults
  have hedit : Mutator.applyAll [.resources name (configs.updates direction),
      (commandStatus configs states direction state).mutator] now p =
        .ok (commandEdit name configs states direction state now p) :=
    Mutator.applyAll_resources hpresent _ _ now
  obtain ⟨q, hpatch⟩ := Store.patch_eq hreads ⟨id, config.retry⟩ hedit true true
  have hupdates := Target.updates_eq ⟨p, name, configs, states⟩ direction
  have hcommand : (Routing.command ⟨id, config.retry⟩ ⟨p, name, configs, states⟩ direction
      state).run Store.handle (readAt config id now s) =
      (.ok (.ok ()), (((readAt config id now s).applied
        (commandEdit name configs states direction state now p)).log
        (.patch ⟨id, config.retry⟩ 2 true true (.ok true))).record
          ((commandEdit name configs states direction state now p).observations.map .scale)) := by
    have hstatus : (Target.mk p name configs states).statusUpdate
        (direction.phase ++ " resources commanded") state =
          commandStatus configs states direction state := rfl
    simp only [Routing.command, hupdates, hstatus, bind, Program.run_bind, Store.run_resize, hpatch]
    rfl
  rw [visit, reconcile_run config hs now, hplan]
  simp only [Plan.program, bind, Program.run_bind, hcommand]
  simp [pure, Store.record, outcomeEvents, actionOutcome]

/-- The pod is left alone: there is nothing to do, or nothing to tell that it does not say already. -/
def AtRest (config : ReconcileConfig) (p : Pod) : Prop :=
  match plan config p with
  | .rest _ => True
  | .tell u _ => ∀ now, (u.apply now p).changed = false
  | .command .. => False

theorem atRest_of_tell {u : StatusUpdate} {outcome : Outcome}
    (hplan : plan config p = .tell u outcome) (now : Instant) (version : Option String) :
    AtRest config (((u.apply now p).pod).withVersion version) := by
  have hsame : SameButStatus p (((u.apply now p).pod).withVersion version) :=
    (u.apply_same now p).trans (Pod.withVersion_same _ version)
  simp only [AtRest, ← plan_congr hsame, hplan]
  intro later
  rw [StatusUpdate.apply_withVersion, StatusUpdate.apply_again (plan_tell_isCommand hplan)]

structure Quiet (id : PodId) (before after : Store) : Prop where
  pod : after.find? id = before.find? id
  calls : ∀ call ∈ after.calls, call.2.isWrite = false ∧ call.2.isCommand = false

/-- A pod at rest is left alone by a visit. -/
theorem visit_atRest (hs : s.Holds id p) (h : AtRest config p) (now : Instant) :
    (visit config id now s).Holds id p ∧ Quiet id s (visit config id now s) := by
  cases hplan : plan config p with
  | rest result =>
    obtain ⟨events, hvisit⟩ := visit_rest hs now hplan
    rw [hvisit]
    exact ⟨⟨hs.faults, hs.found⟩,
      rfl, by simp [Store.record, readAt, Call.isWrite, Call.isCommand]⟩
  | tell u outcome =>
    obtain ⟨events, hvisit⟩ := visit_tell hs now hplan
    have hquiet : (u.apply now p).changed = false := by
      simp only [AtRest, hplan] at h
      exact h now
    rw [hvisit, Store.applied_unchanged hquiet, hquiet]
    exact ⟨⟨hs.faults, hs.found⟩,
      rfl, by simp [Store.record, Store.log, readAt, Call.isWrite, Call.isCommand]⟩
  | command name configs states direction state => simp [AtRest, hplan] at h

theorem visit_tell_stored (hs : s.Holds id p) (now : Instant) {u : StatusUpdate} {outcome : Outcome}
    (hplan : plan config p = .tell u outcome) (hchanged : (u.apply now p).changed = true) :
    ∃ version, (visit config id now s).Holds id (((u.apply now p).pod).withVersion version) := by
  obtain ⟨events, hvisit⟩ := visit_tell hs now hplan
  have hid : (u.apply now p).pod.id = id := (u.apply_same now p).id_eq.symm.trans hs.id_eq
  have hput := Store.find?_applied (s := readAt config id now s) hchanged
  rw [hid] at hput
  rw [hvisit]
  exact ⟨_, (Store.applied_faults _ _).trans hs.faults, hput⟩

theorem visit_tell_atRest (hs : s.Holds id p) (now : Instant) {u : StatusUpdate}
    {outcome : Outcome} (hplan : plan config p = .tell u outcome) :
    ∃ q, (visit config id now s).Holds id q ∧ AtRest config q := by
  cases hchanged : (u.apply now p).changed with
  | false =>
    obtain ⟨events, hvisit⟩ := visit_tell hs now hplan
    have hrest := atRest_of_tell hplan now p.resourceVersion
    rw [StatusUpdate.apply_unchanged hchanged] at hrest
    rw [hvisit, Store.applied_unchanged hchanged]
    exact ⟨p, ⟨hs.faults, hs.found⟩, hrest⟩
  | true =>
    obtain ⟨version, hq⟩ := visit_tell_stored hs now hplan hchanged
    exact ⟨_, hq, atRest_of_tell hplan now version⟩

theorem commandEdit_same (p : Pod) (name : String) (configs : ScaleConfigs) (states : States)
    (direction : Direction) (state : ScaleState) (now : Instant) (version : Option String) :
    SameButStatus (p.withResources name (configs.updates direction))
      ((commandEdit name configs states direction state now p).pod.withVersion version) :=
  (StatusUpdate.apply_same _ now _).trans (Pod.withVersion_same _ version)

theorem visit_command_stored (hs : s.Holds id p) (now : Instant) {name : String}
    {configs : ScaleConfigs} {states : States} {direction : Direction} {state : ScaleState}
    (hplan : plan config p = .command name configs states direction state) :
    ∃ version, (visit config id now s).Holds id
        ((commandEdit name configs states direction state now p).pod.withVersion version) ∧
      (visit config id now s).calls.any (·.2.isWrite) = true := by
  have hid : (commandEdit name configs states direction state now p).pod.id = id :=
    (commandEdit_same p name configs states direction state now none).id_eq.symm.trans hs.id_eq
  have hput : ((readAt config id now s).applied
      (commandEdit name configs states direction state now p)).find? id = some
        ((commandEdit name configs states direction state now p).pod.withVersion
          (some (toString s.nextVersion))) := by
    rw [← hid]
    exact Store.find?_applied rfl
  rw [visit_command hs now hplan]
  exact ⟨_, ⟨(Store.applied_faults _ _).trans hs.faults, hput⟩,
    by simp [Store.record, Store.log, Call.isWrite]⟩

theorem visit_holds (hs : s.Holds id p) (now : Instant) :
    ∃ q, (visit config id now s).Holds id q := by
  cases hplan : plan config p with
  | rest result => exact ⟨p, (visit_atRest hs (by simp [AtRest, hplan]) now).1⟩
  | tell u outcome =>
    obtain ⟨q, hq, -⟩ := visit_tell_atRest hs now hplan
    exact ⟨q, hq⟩
  | command name configs states direction state =>
    obtain ⟨version, hq, -⟩ := visit_command_stored hs now hplan
    exact ⟨_, hq⟩

def visits (config : ReconcileConfig) (id : PodId) (times : Nat → Instant) (s : Store) :
    Nat → Store
  | 0 => s
  | n + 1 => visit config id (times n) (visits config id times s n)

def writes (config : ReconcileConfig) (id : PodId) (times : Nat → Instant) (s : Store)
    (n : Nat) : Bool :=
  (visits config id times s (n + 1)).calls.any (·.2.isWrite)

/-- At most two visits write, and from the third on each leaves the pod alone. -/
structure ComesToRest (config : ReconcileConfig) (id : PodId) (times : Nat → Instant)
    (s : Store) : Prop where
  few : ∀ i j k, i < j → j < k → writes config id times s i = true →
    writes config id times s j = true → writes config id times s k = false
  quiet : ∀ n, 2 ≤ n → Quiet id (visits config id times s n) (visits config id times s (n + 1))

variable {times : Nat → Instant}

theorem visits_holds (config : ReconcileConfig) (times : Nat → Instant) (hs : s.Holds id p) (n : Nat) :
    ∃ q, (visits config id times s n).Holds id q := by
  induction n with
  | zero => exact ⟨p, hs⟩
  | succ n ih =>
    obtain ⟨q, hq⟩ := ih
    exact visit_holds hq (times n)

theorem writes_of_quiet {n : Nat}
    (h : Quiet id (visits config id times s n) (visits config id times s (n + 1))) :
    writes config id times s n = false := by
  rw [writes, List.any_eq_false]
  intro call hcall
  simp [(h.calls call hcall).1]

theorem visits_quiet {m : Nat} (hs : (visits config id times s m).Holds id p)
    (h : AtRest config p) (n : Nat) : (visits config id times s (m + n)).Holds id p ∧
      Quiet id (visits config id times s (m + n)) (visits config id times s (m + n + 1)) := by
  induction n with
  | zero => exact ⟨hs, (visit_atRest hs h _).2⟩
  | succ n ih =>
    have hnext := (visit_atRest ih.1 h (times (m + n))).1
    exact ⟨hnext, (visit_atRest hnext h _).2⟩

/-- Unless the pod is commanded down for nothing, it is at rest after two visits. -/
theorem visits_two_atRest (times : Nat → Instant) (hs : s.Holds id p) (hends : commandsForever config p = false) :
    ∃ q, (visits config id times s 2).Holds id q ∧ AtRest config q := by
  cases hplan : plan config p with
  | rest result =>
    have hrest : AtRest config p := by simp [AtRest, hplan]
    exact ⟨p, (visits_quiet (m := 0) hs hrest 2).1, hrest⟩
  | tell u outcome =>
    obtain ⟨q, hq, hrest⟩ := visit_tell_atRest hs (times 0) hplan
    exact ⟨q, (visits_quiet (m := 1) hq hrest 1).1, hrest⟩
  | command name configs states direction state =>
    obtain ⟨version, hq, -⟩ := visit_command_stored hs (times 0) hplan
    obtain ⟨u, outcome, htell⟩ := plan_settles hplan hends
    rw [plan_congr (commandEdit_same p name configs states direction state (times 0) version)] at htell
    exact visit_tell_atRest hq (times 1) htell

/-- A pod that is commanded down for nothing is written by the visit, and due for the same again. -/
theorem visit_commandsForever (hs : s.Holds id p) (hforever : commandsForever config p = true)
    (now : Instant) :
    ∃ q, (visit config id now s).Holds id q ∧ commandsForever config q = true ∧
      (visit config id now s).calls.any (·.2.isWrite) = true := by
  obtain ⟨name, configs, states, state, hplan, hagain⟩ := commandsForever_again hforever
  obtain ⟨version, hq, hwrites⟩ := visit_command_stored hs now hplan
  have hsame := commandEdit_same p name configs states .down state now version
  exact ⟨_, hq, (commandsForever_congr hsame config).symm.trans hagain, hwrites⟩

theorem writes_of_commandsForever (times : Nat → Instant) (hs : s.Holds id p)
    (hforever : commandsForever config p = true) (n : Nat) : writes config id times s n = true := by
  have hstored : ∃ q, (visits config id times s n).Holds id q ∧
      commandsForever config q = true := by
    induction n with
    | zero => exact ⟨p, hs, hforever⟩
    | succ n ih =>
      obtain ⟨q, hq, hqforever⟩ := ih
      obtain ⟨q', hq', hqforever', -⟩ := visit_commandsForever hq hqforever (times n)
      exact ⟨q', hq', hqforever'⟩
  obtain ⟨q, hq, hqforever⟩ := hstored
  obtain ⟨-, -, -, hwrites⟩ := visit_commandsForever hq hqforever (times n)
  exact hwrites

def startedPod (startup post : String) : Pod where
  metadata :=
    { namespaceName := some "ns"
      name := some "pod"
      labels := some (.ofList [(Key.enabled, "true")])
      annotations := some (.ofList
        [(Key.targetContainerName, "app"), (ResourceName.cpu.startupKey, startup),
          (ResourceName.cpu.postStartupRequestsKey, post),
          (ResourceName.cpu.postStartupLimitsKey, post)]) }
  spec := some
    { containers :=
        [{ name := "app"
           startupProbe := some (.obj [])
           resources := some
            { requests := some (.ofList [("cpu", startup)])
              limits := some (.ofList [("cpu", startup)]) }
           resizePolicy := some [⟨"cpu", "NotRequired"⟩] }] }
  status := some
    { qosClass := some "Guaranteed"
      containerStatuses := some
        [{ name := "app"
           state := some { running := some (.obj []) }
           started := some true
           ready := true
           resources := some
            { requests := some (.ofList [("cpu", startup)])
              limits := some (.ofList [("cpu", startup)]) } }] }

def storeOf (p : Pod) : Store := { pods := [p], now := ⟨0⟩ }

def everySecond (n : Nat) : Instant := ⟨1000 * n⟩

/-- Repeated reconciles of a stored pod, each of which a session takes by itself, come to rest, whatever
the clock shows, unless the pod is one that has started and is to have the same amounts after startup as
before. -/
theorem comesToRest_iff (hs : s.Holds id p) :
    (ComesToRest config id times s ↔ commandsForever config p = false) ∧
      ∀ n, (Session.reconcileAll config [id]
        { store := { visits config id times s n with now := times n, calls := [] } }).2.store =
          visits config id times s (n + 1) := by
  refine ⟨⟨?_, ?_⟩, fun n => ?_⟩
  · intro hrest
    cases hforever : commandsForever config p with
    | false => rfl
    | true =>
      have hwrites := writes_of_commandsForever times hs hforever 2
      rw [writes_of_quiet (hrest.quiet 2 (by decide))] at hwrites
      cases hwrites
  · intro hends
    obtain ⟨q, hq, hrest⟩ := visits_two_atRest times hs hends
    have hquiet : ∀ n, 2 ≤ n →
        Quiet id (visits config id times s n) (visits config id times s (n + 1)) := by
      intro n hn
      obtain ⟨m, rfl⟩ := Nat.exists_eq_add_of_le hn
      exact (visits_quiet hq hrest m).2
    refine ⟨fun i j k hij hjk _ _ => ?_, hquiet⟩
    exact writes_of_quiet (hquiet k (by omega))
  · obtain ⟨q, hq⟩ := visits_holds config times hs n
    exact visit_eq_reconcileAll config id hq.faults (times n)

/-- A pod that is to have less after startup is commanded down, told so, and left alone. -/
theorem smallerAfterStartup_comesToRest :
    (storeOf (startedPod "3m" "1m")).Holds ⟨"ns", "pod"⟩ (startedPod "3m" "1m") ∧
      ComesToRest { enabled := [.cpu] } ⟨"ns", "pod"⟩ everySecond
        (storeOf (startedPod "3m" "1m")) := by
  have hs : (storeOf (startedPod "3m" "1m")).Holds ⟨"ns", "pod"⟩ (startedPod "3m" "1m") :=
    ⟨by decide +kernel, by decide +kernel⟩
  exact ⟨hs, (comesToRest_iff hs).1.2 (by decide +kernel)⟩

/-- A pod that is to have the same after startup is commanded down at every visit. -/
theorem equalAmounts_neverRest :
    (∀ m n, m < n → (everySecond m).unixMillis < (everySecond n).unixMillis) ∧
      ¬ ComesToRest { enabled := [.cpu] } ⟨"ns", "pod"⟩ everySecond
        (storeOf (startedPod "3m" "3m")) := by
  have hs : (storeOf (startedPod "3m" "3m")).Holds ⟨"ns", "pod"⟩ (startedPod "3m" "3m") :=
    ⟨by decide +kernel, by decide +kernel⟩
  have hforever : commandsForever { enabled := [.cpu] } (startedPod "3m" "3m") = true := by
    decide +kernel
  refine ⟨fun m n h => ?_, fun hrest => ?_⟩
  · simp only [everySecond]
    omega
  · have hwrites := writes_of_commandsForever everySecond hs hforever 2
    rw [writes_of_quiet (hrest.quiet 2 (by decide))] at hwrites
    cases hwrites

end PodSizing.Reconcile
