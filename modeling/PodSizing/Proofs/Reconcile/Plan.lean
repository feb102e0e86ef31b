import PodSizing.Proofs.PodEvent
import PodSizing.Proofs.Program
import PodSizing.Proofs.ScaleConfig.Reading
import PodSizing.Reconcile

/-!
# Plans

What a reconcile does about the pod that it has read, as a value: nothing, one status, or one
command. The plan names no pod, so that pods which are the same but for the status have one plan.
-/
namespace PodSizing.Reconcile
open Routing

inductive Plan where
  /-- Nothing is asked of the server any more. -/
  | rest (result : Except String Outcome)
  /-- A status is written, and the outcome is the same whether or not that succeeds. -/
  | tell (update : StatusUpdate) (outcome : Outcome)
  /-- Resources are commanded for a direction, together with a status. -/
  | command (name : String) (configs : ScaleConfigs) (states : States) (direction : Direction)
      (state : ScaleState)

def actionOutcome : Except ActionError Unit → Outcome
  | .ok _ => .done
  | .error e => .terminal (.statesAction e)

def Plan.program (context : Context) (p : Pod) : Plan → PodProgram Outcome
  | .rest (.ok outcome) => .done outcome
  | .rest (.error message) => .fault message
  | .tell u outcome => do
    writeStatus context p u
    return outcome
  | .command name configs states direction state => do
    return actionOutcome (← Routing.command context ⟨p, name, configs, states⟩ direction state)

section Target
variable (configs : ScaleConfigs) (states : States)

def progressPlan : Plan :=
  match appliedDirection? states.resources with
  | none => .rest (.error "unknown resources are commanded, never processed as enacted")
  | some direction =>
    let p := progress states direction
    .tell ⟨p.status, states, p.scaleState, configs.enabledNames⟩
      (match p.failure with
        | some reason =>
          .terminal (.statesAction (.scaleFailed direction reason states.resize.message))
        | none => .done)

def actPlan (name : String) : ResourcesState → Bool → Plan
  | .startup, false | .postStartup, true => progressPlan configs states
  | .startup, true => .command name configs states .down (.commanded .down)
  | .postStartup, false => .command name configs states .up (.commanded .up)
  | .unknown, false => .command name configs states .up .unknownCommanded
  | .unknown, true => .command name configs states .down .unknownCommanded

def routePlan (scaleUnknown : Bool) (name : String) : Plan :=
  if states.startupProbe = .unknown || states.readinessProbe = .unknown then
    .rest (.error ("probe states must be known once classified: " ++ states.display))
  else if states.container ≠ .running then
    .tell ⟨"target container currently not running", states, .notApplicable, configs.enabledNames⟩
      .done
  else if states.started = .unknown || states.ready = .unknown then .rest (.ok .done)
  else if states.resources = .unknown && !scaleUnknown then
    .tell ⟨"unknown resources applied", states, .notApplicable, configs.enabledNames⟩
      (.terminal (.statesAction .unknownResources))
  else
    match isStarted? states with
    | none => .rest (.error "pods without a startup or readiness probe must not be routed")
    | some started => actPlan configs states name states.resources started

end Target

/-- What is to be done about a pod. -/
def plan (config : ReconcileConfig) (p : Pod) : Plan :=
  match examine config p with
  | .error e => .tell (refusal config e) (.terminal e)
  | .ok (configs, name) =>
    match p.classify name configs config.awaitedMessage with
    | .error e => .rest (.ok (.terminal (.statesDetermination e)))
    | .ok states => routePlan configs states config.scaleUnknown name

theorem recordProgress_eq (context : Context) (t : Target) :
    (recordProgress context t).bind (fun r => .done (actionOutcome r)) =
      (progressPlan t.configs t.states).program context t.pod := by
  unfold recordProgress progressPlan
  cases appliedDirection? t.states.resources with
  | none => rfl
  | some direction =>
    simp only [Plan.program, bind, pure, Target.statusUpdate]
    rw [Program.bind_assoc]
    congr 1
    funext _
    cases (progress t.states direction).failure <;> rfl

theorem act_eq (context : Context) (t : Target) (resources : ResourcesState) (started : Bool) :
    (act context t resources started).bind (fun r => .done (actionOutcome r)) =
      (actPlan t.configs t.states t.containerName resources started).program context t.pod := by
  cases resources with
  | startup =>
    cases started with
    | false => exact recordProgress_eq context t
    | true => rfl
  | postStartup =>
    cases started with
    | false => rfl
    | true => exact recordProgress_eq context t
  | unknown => cases started <;> rfl

theorem route_eq (scaleUnknown : Bool) (context : Context) (t : Target) :
    (route scaleUnknown context t).bind (fun r => .done (actionOutcome r)) =
      (routePlan t.configs t.states scaleUnknown t.containerName).program context t.pod := by
  simp only [route, routePlan]
  split
  · rfl
  · split
    · exact Program.bind_assoc _ _ _
    · split
      · rfl
      · split
        · exact Program.bind_assoc _ _ _
        · cases isStarted? t.states with
          | none => rfl
          | some started => exact act_eq context t _ started

/-- A reconcile carries out the plan for the pod that it has read. -/
theorem reconcilePod_eq (config : ReconcileConfig) (context : Context) (p : Pod) :
    reconcilePod config context p = (plan config p).program context p := by
  cases hexamine : examine config p with
  | error e => simp only [reconcilePod, plan, hexamine, Plan.program]
  | ok found =>
    obtain ⟨configs, name⟩ := found
    cases hclassify : p.classify name configs config.awaitedMessage with
    | error e => simp only [reconcilePod, plan, hexamine, hclassify, Plan.program, pure]
    | ok states =>
      have hroute := route_eq config.scaleUnknown context ⟨p, name, configs, states⟩
      simp only [reconcilePod, plan, hexamine, hclassify, ← hroute, bind, pure]
      congr 1
      funext r
      cases r <;> rfl

section Congruence
variable {a b : Pod}

theorem ofPod_congr (h : ∀ key, key ≠ Key.status → a.annotation? key = b.annotation? key)
    (enabled : List ResourceName) : ScaleConfigs.ofPod a enabled = ScaleConfigs.ofPod b enabled := by
  have hscale : ∀ key ∈ Key.scale, key ≠ Key.status := by decide
  exact ScaleConfigs.ofPod_agree (fun key hkey => h key (hscale key hkey)) fun _ => Iff.rfl

structure SameSetup (a b : Pod) : Prop where
  labels : a.metadata.labels = b.metadata.labels
  annotations : ∀ key, key ≠ Key.status → a.annotation? key = b.annotation? key
  spec : a.spec = b.spec
  quality : a.qosClass? = b.qosClass?

theorem SameSetup.of_sameButStatus (h : SameButStatus a b) : SameSetup a b :=
  ⟨h.labels, h.annotations, h.spec, by simp only [Pod.qosClass?, h.status]⟩

theorem validate_congr (h : SameSetup a b) (name : String) (configs : ScaleConfigs) :
    a.validate name configs = b.validate name configs := by
  have hoptIn : a.checkOptIn = b.checkOptIn := by
    simp only [Pod.checkOptIn, Pod.label?, h.labels]
  have hmarks : Key.autoscalerMarks.find? a.hasAnnotation =
      Key.autoscalerMarks.find? b.hasAnnotation := by
    have hkeys : ∀ key ∈ Key.autoscalerMarks, key ≠ Key.status := by decide
    simp only [Key.autoscalerMarks, List.find?, Pod.hasAnnotation,
      h.annotations "vpaObservedContainers" (by decide), h.annotations "vpaUpdates" (by decide)]
  have hcontainer : a.targetContainer name = b.targetContainer name := by
    simp only [Pod.targetContainer, Pod.container, Pod.container?, Pod.containers, h.spec]
  simp only [Pod.validate, Pod.checkAutoscaler, Pod.isGuaranteed, hoptIn, hmarks, hcontainer,
    h.quality]

theorem examine_congr (h : SameSetup a b) (config : ReconcileConfig) :
    examine config a = examine config b := by
  simp only [examine, ofPod_congr h.annotations, validate_congr h]

theorem classify_congr (hspec : a.spec = b.spec) (hstatus : a.status = b.status) (name : String)
    (configs : ScaleConfigs) (awaited : String) :
    a.classify name configs awaited = b.classify name configs awaited := by
  obtain ⟨metadata, spec, status⟩ := a
  cases hspec
  cases hstatus
  rfl

/-- Pods that are the same but for the status have the same plan. -/
theorem plan_congr (h : SameButStatus a b) (config : ReconcileConfig) :
    plan config a = plan config b := by
  simp only [plan, examine_congr (.of_sameButStatus h), classify_congr h.spec h.status]

end Congruence
end PodSizing.Reconcile
