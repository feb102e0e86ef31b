import PodSizing.Proofs.Classification.Table
import PodSizing.Proofs.Eligibility.Guarantee
import PodSizing.Proofs.Status.Durations
import PodSizing.Proofs.Status.History

/-!
# Commands that are enacted

A command sets resources and stamps its time. Once the kubelet reports those resources and no resize any
more, the next reconcile finds the scale enacted: it stamps that time, and counts the time between the
two stamps.
-/
namespace PodSizing
open Time (Instant)

namespace Pod
variable {r : Pod} {c : Container} {reported : Resources}

theorem Reports.not_lacks {resource : ResourceName} (h : r.Reports c reported resource)
    (hguaranteed : c.isGuaranteed resource = true) : ¬ Lacks reported resource := by
  obtain ⟨amount, hpositive, hamounts⟩ := Container.isGuaranteed_iff.1 hguaranteed
  simp only [Container.hasAmounts, Bool.and_eq_true, decide_eq_true_eq] at hamounts
  have hzero : amount.isZero = false := beq_eq_false_iff_ne.2 (by omega)
  rintro ⟨side, hlacks⟩
  have hlacks := lacksAmount_iff.1 hlacks amount
  cases side with
  | request => simp [hlacks (h.request.trans hamounts.1)] at hzero
  | limit => simp [hlacks (h.limit.trans hamounts.2)] at hzero

/-- A container that is guaranteed what is reported for it is found to have it. -/
theorem statusResourcesState_match {configs : ScaleConfigs}
    (hreported : r.reportedResources c.name = .ok reported)
    (h : ∀ resource ∈ configs.enabledNames, r.Reports c reported resource)
    (hguaranteed : c.Guaranteed configs.enabledNames) :
    r.statusResourcesState c configs = .containerResourcesMatch := by
  by_cases hnames : configs.enabledNames = []
  · simp [statusResourcesState, hnames]
  · have hamounts : ∀ resource ∈ configs.enabledNames, ¬ Lacks reported resource :=
      fun resource hresource => (h resource hresource).not_lacks (hguaranteed resource hresource)
    exact (statusResourcesState_eq_iff hnames).2 (.agrees hreported hamounts h)

end Pod

/-- From a pod that has been written to one for which the kubelet has applied a container's resources.
Amounts and conditions are reported anew, and the phase of the container is as it was. -/
structure Enacts (name : String) (resources : List ResourceName) (q r : Pod) : Prop where
  labels : r.metadata.labels = q.metadata.labels
  annotations : r.metadata.annotations = q.metadata.annotations
  spec : r.spec = q.spec
  quality : r.qosClass? = q.qosClass?
  state : r.containerState name = q.containerState name
  started : r.started name = q.started name
  ready : r.ready name = q.ready name
  pending : r.resizePending? = none
  inProgress : r.resizeInProgress? = none
  reports : ∀ c, q.container? name = some c → ∃ reported,
    r.reportedResources name = .ok reported ∧ ∀ resource ∈ resources, r.Reports c reported resource

namespace Enacts
variable {name : String} {resources : List ResourceName} {q r : Pod}

theorem history_eq (h : Enacts name resources q r) : r.history = q.history := by
  simp only [Pod.history, Pod.statusRecord?, Pod.annotation?, h.annotations]

theorem sameSetup (h : Enacts name resources q r) : Reconcile.SameSetup r q where
  labels := h.labels
  annotations key _ := by simp only [Pod.annotation?, h.annotations]
  spec := h.spec
  quality := h.quality

theorem phase_eq {p : Pod} (h : Enacts name resources q r) (hstatus : p.status = q.status) :
    r.containerState name = p.containerState name ∧ r.started name = p.started name ∧
      r.ready name = p.ready name := by
  have hsame : p.containerStatus name = q.containerStatus name := by
    simp only [Pod.containerStatus, hstatus]
  rw [h.state, h.started, h.ready]
  simp only [Pod.containerState, Pod.started, Pod.ready, hsame, and_self]

theorem resizeState_eq (h : Enacts name resources q r) (awaited : String) :
    r.resizeState awaited = .ok ⟨.notStartedOrCompleted, ""⟩ := by
  simp only [Pod.resizeState, h.pending, h.inProgress]

end Enacts

namespace Reconcile
open Routing

variable {config : ReconcileConfig} {id : PodId} {s : Store} {p : Pod} {name : String}
  {configs : ScaleConfigs} {states : States} {direction : Direction} {state : ScaleState}

theorem appliedDirection?_commanded (hdiffers : ∃ c ∈ configs.enabled, c.ties = false)
    (direction : Direction) :
    appliedDirection? (commandedState configs direction) = some direction := by
  cases direction with
  | up => rfl
  | down =>
    obtain ⟨c, hc, hties⟩ := hdiffers
    have hall : configs.enabled.all (·.ties) = false := List.all_eq_false.2 ⟨c, hc, by simp [hties]⟩
    simp only [commandedState, hall, Bool.false_eq_true, if_false, appliedDirection?]

theorem actPlan_applied {resources : ResourcesState}
    (h : appliedDirection? resources = some direction) :
    actPlan configs states name resources (decide (direction = .down)) =
      progressPlan configs states := by
  cases resources with
  | startup =>
    cases h
    rfl
  | postStartup =>
    cases h
    rfl
  | unknown => cases h

/-- What is found of the container once the kubelet has applied the resources of a direction. -/
theorem classify_enacted {q r : Pod} {awaited : String}
    (hclassify : p.classify name configs awaited = .ok states)
    (hsound : configs.Sound) (hvalid : p.validate name configs = .ok ())
    (hpositive : configs.Positive direction)
    (hsame : SameButStatus (p.withResources name (configs.updates direction)) q)
    (henacts : Enacts name configs.enabledNames q r) :
    ∃ after, r.classify name configs awaited = .ok after ∧ SamePhase after states ∧
      after.resources = commandedState configs direction ∧
      after.statusResources = .containerResourcesMatch ∧
      after.resize.state = .notStartedOrCompleted := by
  obtain ⟨c, hfound, hagainst⟩ := Pod.validate_against hvalid
  simp only [Pod.classify, Except.bind_eq_ok, Except.mapError_eq_ok, Pod.container_eq_ok] at hclassify
  obtain ⟨c', hfound', resize, -, hstates⟩ := hclassify
  obtain rfl : c = c' := Option.some.inj (hfound.symm.trans hfound')
  cases hstates
  have happlied : q.container? name = some (c.withUpdates (configs.updates direction)) :=
    (Pod.container?_congr hsame.spec name).symm.trans
      (Pod.container?_withResources_of_some hfound _)
  have hafter := (Pod.container?_congr henacts.spec name).trans happlied
  obtain ⟨hstate, hstarted, hready⟩ := henacts.phase_eq (p := p) hsame.status
  have hmatch : r.statusResourcesState (c.withUpdates (configs.updates direction)) configs =
      .containerResourcesMatch := by
    obtain ⟨reported, hreported, hreports⟩ := henacts.reports _ happlied
    rw [← Pod.container?_name happlied] at hreported
    exact Pod.statusResourcesState_match hreported hreports
      ((hsound.guaranteed_withUpdates hagainst direction c).2.2 hpositive)
  refine ⟨_, by simp only [Pod.classify, Pod.container, hafter, henacts.resizeState_eq]; rfl,
    ⟨?startup, ?readiness, ?container, ?started, ?ready⟩,
    resourcesState_commanded hsound c direction, hmatch, rfl⟩
  case startup => simp only [Container.withUpdates_hasStartupProbe]
  case readiness => simp only [Container.withUpdates_hasReadinessProbe]
  case container => simp only [hstate]
  case started => simp only [hstarted]
  case ready => simp only [hready]

/-- Once the kubelet has applied the resources of a command, the plan is to tell that they are. -/
theorem plan_enacted {q r : Pod}
    (hplan : plan config p = .command name configs states direction state)
    (hpositive : configs.Positive direction) (hdiffers : ∃ c ∈ configs.enabled, c.ties = false)
    (hsame : SameButStatus (p.withResources name (configs.updates direction)) q)
    (henacts : Enacts name configs.enabledNames q r) :
    ∃ after, plan config r = .tell ⟨direction.phase ++ " resources enacted", after,
      .enacted direction, configs.enabledNames⟩ .done := by
  obtain ⟨hexamine, hclassify, hroute⟩ := plan_command hplan
  obtain ⟨hconfigs, -, hvalid⟩ := examine_eq_ok.1 hexamine
  have hsound := ScaleConfigs.ofPod_sound hconfigs
  have hexamine' : examine config r = .ok (configs, name) := by
    rw [examine_congr henacts.sameSetup, ← examine_congr (.of_sameButStatus hsame)]
    exact examine_withResources hexamine direction
  obtain ⟨after, hclassify', hphase, hresources, hmatch, hresize⟩ :=
    classify_enacted hclassify hsound hvalid hpositive hsame henacts
  have happlied := appliedDirection?_commanded hdiffers direction
  have hknown : after.resources ≠ .unknown := hresources ▸ commandedState_known configs direction
  refine ⟨after, ?_⟩
  simp only [plan, hexamine', hclassify', routePlan_afterCommand hroute hphase hknown, hresources,
    actPlan_applied happlied, progressPlan, happlied, progress, hresize, hmatch]

/-- What a visit that commands a direction for a pod leaves behind. -/
structure RecordsCommand (config : ReconcileConfig) (id : PodId) (name : String)
    (configs : ScaleConfigs) (direction : Direction) (now : Instant) (s : Store) (p q : Pod) :
    Prop where
  stored : (visit config id now s).Holds id q
  resources : SameButStatus (p.withResources name (configs.updates direction)) q
  commanded : q.history.lastCommanded = Time.stamp now
  pending : q.history.lastEnacted = ""
  calls : (visit config id now s).calls.any (·.2.isCommand) = true
  events : ∃ seen : List Observation, seen.Sublist [.commandedUnknown] ∧
    (visit config id now s).events = s.events ++ seen.map .scale

theorem visit_commanded (hs : s.Holds id p)
    (hplan : plan config p = .command name configs states direction state) (now : Instant) :
    ∃ q, RecordsCommand config id name configs direction now s p q := by
  obtain ⟨version, hq, -⟩ := visit_command_stored hs now hplan
  obtain ⟨hcommanded, hpending, hseen⟩ := (StatusStep.moves_of
    (s := ⟨commandStatus configs states direction state, now,
      p.withResources name (configs.updates direction)⟩) (plan_command_isCommand hplan)).of_command
  refine ⟨_, hq, commandEdit_same p name configs states direction state now version, hcommanded,
    hpending, ?_, _, hseen, ?_⟩
  · rw [visit_command hs now hplan]
    simp [Store.record, Store.log, Call.isCommand]
  · rw [visit_command hs now hplan]
    simp [Store.record, Store.log, readAt, StatusStep.edit, commandEdit]

/-- What a visit that finds a command enacted leaves behind. -/
structure RecordsEnacted (config : ReconcileConfig) (id : PodId) (direction : Direction)
    (commanded now : Instant) (s : Store) : Prop where
  done : ((reconcile config id).run Store.handle { s with now, calls := [] }).1 = .ok .done
  calls : ∀ call ∈ (visit config id now s).calls, call.2.isCommand = false
  history : ∃ p, (visit config id now s).Holds id p ∧
    p.history.lastCommanded = Time.stamp commanded ∧ p.history.lastEnacted = Time.stamp now
  events : (visit config id now s).events = s.events ++
    [.scale (.duration direction .success (now.unixMillis - commanded.unixMillis).toNat)]

theorem visit_enacted {t₁ t₂ : Instant} {r : Pod} {u : StatusUpdate} (hs : s.Holds id r)
    (hplan : plan config r = .tell u .done) (hstate : u.scaleState = .enacted direction)
    (hcommanded : r.history.lastCommanded = Time.stamp t₁) (hpending : r.history.lastEnacted = "")
    (hclock : Time.supportsDay t₁.moment.day = true) (hle : t₁.unixMillis ≤ t₂.unixMillis) :
    RecordsEnacted config id direction t₁ t₂ s := by
  have hstamp : r.history.lastCommanded ≠ "" := hcommanded ▸ Time.stamp_ne t₁
  obtain ⟨hchanged, hseen, hhistory⟩ := u.apply_enacted t₂ hstate hpending hstamp
  have hduration : durationSince r.history.lastCommanded t₂ direction .success =
      [.duration direction .success (t₂.unixMillis - t₁.unixMillis).toNat] := by
    rw [hcommanded, durationSince_stamp hclock, if_pos hle]
  have hrun := reconcile_tell hs t₂ hplan
  obtain ⟨version, hstored⟩ := visit_tell_stored hs t₂ hplan hchanged
  refine ⟨congrArg Prod.fst hrun, ?_, ⟨_, hstored, ?_, ?_⟩, ?_⟩
  · rw [visit, hrun]
    simp [Store.record, Store.log, readAt, Call.isCommand]
  · exact (congrArg Scale.lastCommanded hhistory).trans hcommanded
  · exact congrArg Scale.lastEnacted hhistory
  · rw [visit, hrun, hseen, hduration]
    simp [Store.record, Store.log, readAt, outcomeEvents]

/-- A command that the kubelet applies is recorded as enacted. Where the amounts of its direction are
positive, and not all amounts are the same before and after startup, a reconcile of any store that then
holds what the kubelet reports commands nothing, puts its own stamp next to the command's, and counts the
time between them. The command is given on a day that stamps can hold. -/
theorem command_enacted (hs : s.Holds id p)
    (hplan : plan config p = .command name configs states direction state)
    (hpositive : configs.Positive direction) (hdiffers : ∃ c ∈ configs.enabled, c.ties = false)
    {t₁ t₂ : Instant} (hclock : Time.supportsDay t₁.moment.day = true)
    (hle : t₁.unixMillis ≤ t₂.unixMillis) :
    ∃ q, RecordsCommand config id name configs direction t₁ s p q ∧
      ∀ r (later : Store), Enacts name configs.enabledNames q r → later.Holds id r →
        RecordsEnacted config id direction t₁ t₂ later := by
  obtain ⟨q, hcommand⟩ := visit_commanded hs hplan t₁
  refine ⟨q, hcommand, fun r later henacts hr => ?_⟩
  obtain ⟨after, htell⟩ := plan_enacted hplan hpositive hdiffers hcommand.resources henacts
  have hhistory := henacts.history_eq
  exact visit_enacted hr htell rfl (hhistory ▸ hcommand.commanded) (hhistory ▸ hcommand.pending)
    hclock hle

def reportOf (amount : String) (q : Pod) : Pod :=
  { q with status := (startedPod amount amount).status }

theorem reportOf_enacts {q : Pod} (hq : SameButStatus ((startedPod "3m" "1m").withResources "app"
    (startedTarget.configs.updates .down)) q) : Enacts "app" [.cpu] q (reportOf "0.001" q) where
  labels := rfl
  annotations := rfl
  spec := rfl
  quality := by
    simp only [Pod.qosClass?, ← hq.status]
    rfl
  state := by
    simp only [Pod.containerState, Pod.containerStatus, ← hq.status]
    rfl
  started := by
    simp only [Pod.started, Pod.containerStatus, ← hq.status]
    rfl
  ready := by
    simp only [Pod.ready, Pod.containerStatus, ← hq.status]
    rfl
  pending := rfl
  inProgress := rfl
  reports := by
    intro c hc
    have hamounts : (((startedPod "3m" "1m").withResources "app"
        (startedTarget.configs.updates .down)).container? "app").any
          (·.hasAmounts .cpu ⟨1⟩ ⟨1⟩) = true := by decide +kernel
    rw [Pod.container?_congr hq.spec, hc, Option.any_some, Container.hasAmounts, Bool.and_eq_true, decide_eq_true_eq,
      decide_eq_true_eq] at hamounts
    have hreported : amount? (some "0.001") = some ⟨1⟩ := by decide +kernel
    refine ⟨_, rfl, fun resource hresource => ?_⟩
    rw [List.mem_singleton.1 hresource]
    refine ⟨hreported.trans hamounts.1.symm, hreported.trans hamounts.2.symm,
      fun allocated hallocated => ?_⟩
    rw [Pod.container?_name hc] at hallocated
    have hnone : (reportOf "0.001" q).allocated "app" ResourceName.cpu.text =
        .error .allocatedResourcesNotPresent := rfl
    rw [hnone] at hallocated
    cases hallocated

def startedStates : States where
  startupProbe := .true
  readinessProbe := .false
  container := .running
  started := .true
  ready := .true
  resources := .startup
  statusResources := .containerResourcesMatch
  resize := ⟨.notStartedOrCompleted, ""⟩

/-- A pod that is to have less after startup is commanded down, and found to have less once that is
reported, in whatever way the amount is written. -/
theorem smallerAfterStartup_enacted :
    (storeOf (startedPod "3m" "1m")).Holds ⟨"ns", "pod"⟩ (startedPod "3m" "1m") ∧
      plan { enabled := [.cpu] } (startedPod "3m" "1m") =
        .command "app" startedTarget.configs startedStates .down (.commanded .down) ∧
      startedTarget.configs.Positive .down ∧
      (∃ c ∈ startedTarget.configs.enabled, c.ties = false) ∧
      Time.supportsDay (⟨1000⟩ : Instant).moment.day = true ∧
      ∃ q, RecordsCommand { enabled := [.cpu] } ⟨"ns", "pod"⟩ "app" startedTarget.configs .down
          ⟨1000⟩ (storeOf (startedPod "3m" "1m")) (startedPod "3m" "1m") q ∧
        Enacts "app" [.cpu] q (reportOf "0.001" q) ∧
        RecordsEnacted { enabled := [.cpu] } ⟨"ns", "pod"⟩ .down ⟨1000⟩ ⟨2500⟩
          (storeOf (reportOf "0.001" q)) := by
  have hs : (storeOf (startedPod "3m" "1m")).Holds ⟨"ns", "pod"⟩ (startedPod "3m" "1m") :=
    ⟨by decide +kernel, by decide +kernel⟩
  have hexamine : examine { enabled := [.cpu] } (startedPod "3m" "1m") =
      .ok (startedTarget.configs, "app") := Except.toOption_eq_some.1 (by decide +kernel)
  have hclassify : (startedPod "3m" "1m").classify "app" startedTarget.configs
      ({ enabled := [.cpu] } : ReconcileConfig).awaitedMessage = .ok startedStates :=
    Except.toOption_eq_some.1 (by decide +kernel)
  have hplan : plan { enabled := [.cpu] } (startedPod "3m" "1m") =
      .command "app" startedTarget.configs startedStates .down (.commanded .down) := by
    simp only [plan, hexamine, hclassify]
    rfl
  have hpositive : startedTarget.configs.Positive .down := by
    obtain ⟨hconfigs, -, hvalid⟩ := examine_eq_ok.1 hexamine
    obtain ⟨c, -, hagainst⟩ := Pod.validate_against hvalid
    have hguaranteed : (({ name := "app" } : Container).withUpdates
        (startedTarget.configs.updates .down)).Guaranteed startedTarget.configs.enabledNames := by
      decide +kernel
    exact ((ScaleConfigs.ofPod_sound hconfigs).guaranteed_withUpdates hagainst .down _).2.1
      hguaranteed
  have hdiffers : ∃ c ∈ startedTarget.configs.enabled, c.ties = false :=
    ⟨_, List.mem_singleton_self _, by decide +kernel⟩
  have hclock : Time.supportsDay (⟨1000⟩ : Instant).moment.day = true := by decide +kernel
  have hle : (⟨1000⟩ : Instant).unixMillis ≤ (⟨2500⟩ : Instant).unixMillis := by decide
  obtain ⟨q, hcommand, hrecords⟩ :=
    command_enacted hs hplan hpositive hdiffers hclock hle
  have henacts := reportOf_enacts hcommand.resources
  have hlater : (storeOf (reportOf "0.001" q)).Holds ⟨"ns", "pod"⟩ (reportOf "0.001" q) := by
    have hid : (reportOf "0.001" q).id = ⟨"ns", "pod"⟩ := hcommand.stored.id_eq
    exact ⟨rfl, by simp [Store.find?, storeOf, hid]⟩
  exact ⟨hs, hplan, hpositive, hdiffers, hclock, q, hcommand, henacts,
    hrecords _ _ henacts hlater⟩

end Reconcile
end PodSizing
