import PodSizing.Proofs.Eligibility
import PodSizing.Proofs.Reconcile.Plan
import PodSizing.Proofs.Status.Again

/-!
# What is planned after a command

Once the resources of a direction are applied, the container is classified by them, and all else that
a plan depends on is as before. So the next plan is to tell how far the scale has come. The exception
is a container whose two sets of amounts are one: it is taken to be at startup for good, and where it
has started it is commanded down again.
-/
namespace PodSizing.Reconcile
open Routing

theorem progress_isCommand (states : States) (direction : Direction) :
    (progress states direction).scaleState.isCommand = false := by
  unfold progress
  cases states.resize.state with
  | notStartedOrCompleted => cases states.statusResources <;> rfl
  | inProgress => rfl
  | deferred => rfl
  | infeasible => rfl
  | error => rfl
  | unknown => rfl

theorem progressPlan_tell {configs : ScaleConfigs} {states : States}
    (h : states.resources ≠ .unknown) :
    ∃ u outcome, progressPlan configs states = .tell u outcome := by
  unfold progressPlan
  cases hresources : states.resources with
  | startup => exact ⟨_, _, rfl⟩
  | postStartup => exact ⟨_, _, rfl⟩
  | unknown => exact absurd hresources h

theorem progressPlan_isCommand {configs : ScaleConfigs} {states : States} {u : StatusUpdate}
    {outcome : Outcome} (h : progressPlan configs states = .tell u outcome) :
    u.scaleState.isCommand = false := by
  unfold progressPlan at h
  cases hdirection : appliedDirection? states.resources with
  | none => simp [hdirection] at h
  | some direction =>
    simp only [hdirection, Plan.tell.injEq] at h
    rw [← h.1]
    exact progress_isCommand states direction

theorem actPlan_isCommand {configs : ScaleConfigs} {states : States} {name : String}
    {resources : ResourcesState} {started : Bool} {u : StatusUpdate} {outcome : Outcome}
    (h : actPlan configs states name resources started = .tell u outcome) :
    u.scaleState.isCommand = false := by
  cases resources with
  | startup =>
    cases started with
    | false => exact progressPlan_isCommand h
    | true => cases h
  | postStartup =>
    cases started with
    | false => cases h
    | true => exact progressPlan_isCommand h
  | unknown => cases started <;> cases h

theorem routePlan_isCommand {configs : ScaleConfigs} {states : States} {scaleUnknown : Bool}
    {name : String} {u : StatusUpdate} {outcome : Outcome}
    (h : routePlan configs states scaleUnknown name = .tell u outcome) :
    u.scaleState.isCommand = false := by
  unfold routePlan at h
  split at h
  · cases h
  · split at h
    · cases h
      rfl
    · split at h
      · cases h
      · split at h
        · cases h
          rfl
        · split at h
          · cases h
          · exact actPlan_isCommand h

theorem plan_tell_isCommand {config : ReconcileConfig} {p : Pod} {u : StatusUpdate}
    {outcome : Outcome} (h : plan config p = .tell u outcome) : u.scaleState.isCommand = false := by
  unfold plan at h
  split at h
  · cases h
    rfl
  · split at h
    · cases h
    · exact routePlan_isCommand h

theorem progressPlan_not_command {configs c : ScaleConfigs} {states s : States} {name : String}
    {direction : Direction} {state : ScaleState} :
    progressPlan configs states ≠ .command name c s direction state := by
  unfold progressPlan
  cases appliedDirection? states.resources <;> simp

theorem actPlan_command {configs c : ScaleConfigs} {states s : States} {name n : String}
    {resources : ResourcesState} {started : Bool} {direction : Direction} {state : ScaleState}
    (h : actPlan configs states name resources started = .command n c s direction state) :
    n = name ∧ c = configs ∧ s = states ∧ started = decide (direction = .down) := by
  cases resources with
  | startup =>
    cases started with
    | false => exact absurd h progressPlan_not_command
    | true =>
      cases h
      exact ⟨rfl, rfl, rfl, rfl⟩
  | postStartup =>
    cases started with
    | false =>
      cases h
      exact ⟨rfl, rfl, rfl, rfl⟩
    | true => exact absurd h progressPlan_not_command
  | unknown =>
    cases started with
    | false =>
      cases h
      exact ⟨rfl, rfl, rfl, rfl⟩
    | true =>
      cases h
      exact ⟨rfl, rfl, rfl, rfl⟩

theorem actPlan_commands {configs c : ScaleConfigs} {states s : States} {name n : String}
    {resources : ResourcesState} {started : Bool} {direction : Direction} {state : ScaleState}
    (h : actPlan configs states name resources started = .command n c s direction state) :
    state.isCommand = true := by
  cases resources with
  | startup =>
    cases started with
    | false => exact absurd h progressPlan_not_command
    | true =>
      cases h
      rfl
  | postStartup =>
    cases started with
    | false =>
      cases h
      rfl
    | true => exact absurd h progressPlan_not_command
  | unknown =>
    cases started with
    | false =>
      cases h
      rfl
    | true =>
      cases h
      rfl

theorem routePlan_act {configs c : ScaleConfigs} {states s : States} {scaleUnknown : Bool}
    {name n : String} {direction : Direction} {state : ScaleState}
    (h : routePlan configs states scaleUnknown name = .command n c s direction state) :
    states.startupProbe ≠ .unknown ∧ states.readinessProbe ≠ .unknown ∧
      states.container = .running ∧ states.started ≠ .unknown ∧ states.ready ≠ .unknown ∧
      (states.resources = .unknown → scaleUnknown = true) ∧
      ∃ started, isStarted? states = some started ∧
        actPlan configs states name states.resources started = .command n c s direction state := by
  unfold routePlan at h
  split at h
  · cases h
  · next hprobes =>
    split at h
    · cases h
    · next hrunning =>
      split at h
      · cases h
      · next hreports =>
        split at h
        · cases h
        · next hallowed =>
          split at h
          · cases h
          · next started hstarted =>
            simp only [Bool.or_eq_true, decide_eq_true_eq, not_or] at hprobes hreports
            exact ⟨hprobes.1, hprobes.2, by simpa using hrunning, hreports.1, hreports.2,
              by simpa using hallowed, started, hstarted, h⟩

/-- A command is for the container that has been classified, once it runs and all that decides the
direction is known. -/
theorem routePlan_command {configs c : ScaleConfigs} {states s : States} {scaleUnknown : Bool}
    {name n : String} {direction : Direction} {state : ScaleState}
    (h : routePlan configs states scaleUnknown name = .command n c s direction state) :
    n = name ∧ c = configs ∧ s = states ∧ states.startupProbe ≠ .unknown ∧
      states.readinessProbe ≠ .unknown ∧ states.container = .running ∧ states.started ≠ .unknown ∧
      states.ready ≠ .unknown ∧ isStarted? states = some (decide (direction = .down)) := by
  obtain ⟨hstartup, hreadiness, hrunning, hstarted, hready, -, started, hphase, hact⟩ :=
    routePlan_act h
  obtain ⟨hn, hc, hs, hdirection⟩ := actPlan_command hact
  exact ⟨hn, hc, hs, hstartup, hreadiness, hrunning, hstarted, hready, by rw [hphase, hdirection]⟩

structure SamePhase (a b : States) : Prop where
  startupProbe : a.startupProbe = b.startupProbe
  readinessProbe : a.readinessProbe = b.readinessProbe
  container : a.container = b.container
  started : a.started = b.started
  ready : a.ready = b.ready

theorem routePlan_afterCommand {configs c : ScaleConfigs} {states s after : States}
    {scaleUnknown : Bool} {name n : String} {direction : Direction} {state : ScaleState}
    (h : routePlan configs states scaleUnknown name = .command n c s direction state)
    (hsame : SamePhase after states) (hknown : after.resources ≠ .unknown) :
    routePlan configs after scaleUnknown name =
      actPlan configs after name after.resources (decide (direction = .down)) := by
  obtain ⟨-, -, -, hstartup, hreadiness, hrunning, hstarted, hready, hphase⟩ := routePlan_command h
  have hphase' : isStarted? after = some (decide (direction = .down)) := by
    simpa only [isStarted?, hsame.startupProbe, hsame.readinessProbe, hsame.started, hsame.ready]
      using hphase
  simp [routePlan, hsame.startupProbe, hsame.readinessProbe, hsame.container, hsame.started,
    hsame.ready, hstartup, hreadiness, hrunning, hstarted, hready, hknown, hphase']

theorem plan_command {config : ReconcileConfig} {p : Pod} {name : String} {configs : ScaleConfigs}
    {states : States} {direction : Direction} {state : ScaleState}
    (h : plan config p = .command name configs states direction state) :
    examine config p = .ok (configs, name) ∧
      p.classify name configs config.awaitedMessage = .ok states ∧
      routePlan configs states config.scaleUnknown name =
        .command name configs states direction state := by
  unfold plan at h
  split at h
  · cases h
  · next cs n hexamine =>
    split at h
    · cases h
    · next s hclassify =>
      obtain ⟨rfl, rfl, rfl, -⟩ := routePlan_command h
      exact ⟨hexamine, hclassify, h⟩

theorem plan_command_isCommand {config : ReconcileConfig} {p : Pod} {name : String}
    {configs : ScaleConfigs} {states : States} {direction : Direction} {state : ScaleState}
    (h : plan config p = .command name configs states direction state) : state.isCommand = true := by
  obtain ⟨-, -, hroute⟩ := plan_command h
  obtain ⟨-, -, -, -, -, -, started, -, hact⟩ := routePlan_act hroute
  exact actPlan_commands hact

theorem examine_eq_ok {config : ReconcileConfig} {p : Pod} {configs : ScaleConfigs}
    {name : String} :
    examine config p = .ok (configs, name) ↔
      ScaleConfigs.ofPod p config.enabled = .ok configs ∧ configs.targetName = .ok name ∧
        p.validate name configs = .ok () := by
  simp only [examine, Except.bind_eq_ok, Except.mapError_eq_ok]
  constructor
  · rintro ⟨cs, hconfigs, n, hname, _, hvalid, heq⟩
    cases heq
    exact ⟨hconfigs, hname, hvalid⟩
  · rintro ⟨hconfigs, hname, hvalid⟩
    exact ⟨configs, hconfigs, name, hname, (), hvalid, rfl⟩

/-- A pod that may be managed still may be when the resources of a direction are applied. -/
theorem examine_withResources {config : ReconcileConfig} {p : Pod} {configs : ScaleConfigs}
    {name : String} (h : examine config p = .ok (configs, name)) (direction : Direction) :
    examine config (p.withResources name (configs.updates direction)) = .ok (configs, name) := by
  obtain ⟨hconfigs, hname, hvalid⟩ := examine_eq_ok.1 h
  have hsame : ScaleConfigs.ofPod (p.withResources name (configs.updates direction))
      config.enabled = ScaleConfigs.ofPod p config.enabled := ofPod_congr (fun _ _ => rfl) _
  exact examine_eq_ok.2 ⟨hsame.trans hconfigs, hname,
    Pod.validate_withResources (ScaleConfigs.ofPod_sound hconfigs) hvalid direction⟩

theorem classify_withResources {p : Pod} {name awaited : String} {configs : ScaleConfigs}
    {states : States} (h : p.classify name configs awaited = .ok states)
    (updates : List ResourceUpdate) :
    ∃ c statusResources, p.container? name = some c ∧
      (p.withResources name updates).classify name configs awaited =
        .ok { states with
          resources := (c.withUpdates updates).resourcesState configs, statusResources } := by
  simp only [Pod.classify, Except.bind_eq_ok, Except.mapError_eq_ok, Pod.container_eq_ok] at h
  obtain ⟨c, hfound, resize, hresize, hstates⟩ := h
  cases hstates
  have hafter := Pod.container?_withResources_of_some hfound updates
  have hresize' : (p.withResources name updates).resizeState awaited = .ok resize := hresize
  refine ⟨c, (p.withResources name updates).statusResourcesState (c.withUpdates updates) configs,
    hfound, ?_⟩
  simp only [Pod.classify, Except.bind_eq_ok, Except.mapError_eq_ok, Pod.container_eq_ok]
  refine ⟨_, hafter, resize, hresize', ?_⟩
  rw [c.withUpdates_hasStartupProbe, c.withUpdates_hasReadinessProbe]
  rfl

def commandedState (configs : ScaleConfigs) : Direction → ResourcesState
  | .up => .startup
  | .down => if configs.enabled.all (·.ties) then .startup else .postStartup

theorem commandedState_known (configs : ScaleConfigs) (direction : Direction) :
    commandedState configs direction ≠ .unknown := by
  cases direction with
  | up => simp [commandedState]
  | down => by_cases hties : configs.enabled.all (·.ties) = true <;> simp [commandedState, hties]

theorem resourcesState_commanded {configs : ScaleConfigs} (hsound : configs.Sound) (c : Container)
    (direction : Direction) :
    (c.withUpdates (configs.updates direction)).resourcesState configs =
      commandedState configs direction := by
  cases direction with
  | up => exact hsound.resourcesState_up c
  | down => exact hsound.resourcesState_down c

/-- The plan after a command goes by the resources that it has applied. -/
theorem plan_afterCommand {config : ReconcileConfig} {p : Pod} {name : String}
    {configs : ScaleConfigs} {states : States} {direction : Direction} {state : ScaleState}
    (h : plan config p = .command name configs states direction state) :
    ∃ states', states'.resources = commandedState configs direction ∧
      plan config (p.withResources name (configs.updates direction)) =
        actPlan configs states' name (commandedState configs direction)
          (decide (direction = .down)) := by
  obtain ⟨hexamine, hclassify, hroute⟩ := plan_command h
  have hsound := ScaleConfigs.ofPod_sound (examine_eq_ok.1 hexamine).1
  obtain ⟨c, statusResources, -, hafter⟩ :=
    classify_withResources hclassify (configs.updates direction)
  rw [resourcesState_commanded hsound] at hafter
  refine ⟨{ states with resources := commandedState configs direction, statusResources }, rfl, ?_⟩
  simp only [plan, examine_withResources hexamine, hafter]
  exact routePlan_afterCommand hroute ⟨rfl, rfl, rfl, rfl, rfl⟩
    (commandedState_known configs direction)

/-- Whether a container has started, is not known to have its amounts for that, and is to have the
same amounts as before. -/
def commandsForever (config : ReconcileConfig) (p : Pod) : Bool :=
  match examine config p with
  | .error _ => false
  | .ok (configs, name) =>
    match p.classify name configs config.awaitedMessage with
    | .error _ => false
    | .ok states =>
      states.container = .running && states.ready ≠ .unknown && isStarted? states = some true &&
        (states.resources = .startup || (states.resources = .unknown && config.scaleUnknown)) &&
        configs.enabled.all (·.ties)

theorem started_of_isStarted? {states : States} (h : isStarted? states = some true) :
    states.started = .true := by
  unfold isStarted? at h
  split at h <;> simp_all

theorem routePlan_down (configs : ScaleConfigs) (name : String) {states : States}
    {scaleUnknown : Bool} :
    (∃ state, routePlan configs states scaleUnknown name =
      .command name configs states .down state) ↔
      states.startupProbe ≠ .unknown ∧ states.readinessProbe ≠ .unknown ∧
        states.container = .running ∧ states.ready ≠ .unknown ∧ isStarted? states = some true ∧
        (states.resources = .startup ∨ (states.resources = .unknown ∧ scaleUnknown = true)) := by
  constructor
  · rintro ⟨state, h⟩
    obtain ⟨-, -, -, hstartup, hreadiness, hrunning, hstarted, hready, hphase⟩ :=
      routePlan_command h
    refine ⟨hstartup, hreadiness, hrunning, hready, hphase, ?_⟩
    cases hresources : states.resources with
    | startup => exact .inl rfl
    | postStartup =>
      simp [routePlan, hstartup, hreadiness, hrunning, hstarted, hready, hphase, hresources,
        actPlan, progressPlan, appliedDirection?] at h
    | unknown =>
      cases hscale : scaleUnknown with
      | true => exact .inr ⟨rfl, rfl⟩
      | false =>
        simp [routePlan, hstartup, hreadiness, hrunning, hstarted, hready, hresources, hscale] at h
  · rintro ⟨hstartup, hreadiness, hrunning, hready, hphase, hresources⟩
    have hstarted : states.started ≠ .unknown := by simp [started_of_isStarted? hphase]
    rcases hresources with hresources | ⟨hresources, hscale⟩
    · exact ⟨_, by simp [routePlan, hstartup, hreadiness, hrunning, hstarted, hready, hphase,
        hresources, actPlan]; rfl⟩
    · exact ⟨_, by simp [routePlan, hstartup, hreadiness, hrunning, hstarted, hready, hphase,
        hresources, hscale, actPlan]; rfl⟩

theorem classify_probes {p : Pod} {name awaited : String} {configs : ScaleConfigs} {states : States}
    (h : p.classify name configs awaited = .ok states) :
    states.startupProbe ≠ .unknown ∧ states.readinessProbe ≠ .unknown := by
  have hknown (b : Bool) : BoolState.ofBool b ≠ .unknown := by cases b <;> decide
  simp only [Pod.classify, Except.bind_eq_ok] at h
  obtain ⟨c, -, resize, -, hstates⟩ := h
  cases hstates
  exact ⟨hknown _, hknown _⟩

/-- A pod is commanded forever just if the plan is to command it down to the amounts that it has started
with. -/
theorem commandsForever_iff {config : ReconcileConfig} {p : Pod} :
    commandsForever config p = true ↔
      ∃ name configs states state, plan config p = .command name configs states .down state ∧
        configs.enabled.all (·.ties) = true := by
  constructor
  · intro h
    unfold commandsForever at h
    split at h
    · cases h
    · next configs name hexamine =>
      split at h
      · cases h
      · next states hclassify =>
        simp only [Bool.and_eq_true, Bool.or_eq_true, decide_eq_true_eq] at h
        obtain ⟨⟨⟨⟨hrunning, hready⟩, hphase⟩, hresources⟩, hties⟩ := h
        have hprobes := classify_probes hclassify
        obtain ⟨state, hroute⟩ := (routePlan_down configs name).2
          ⟨hprobes.1, hprobes.2, hrunning, hready, hphase, hresources⟩
        exact ⟨name, configs, states, state, by simp only [plan, hexamine, hclassify, hroute],
          hties⟩
  · rintro ⟨name, configs, states, state, hplan, hties⟩
    obtain ⟨hexamine, hclassify, hroute⟩ := plan_command hplan
    obtain ⟨-, -, hrunning, hready, hphase, hresources⟩ := (routePlan_down configs name).1 ⟨state, hroute⟩
    simp only [commandsForever, hexamine, hclassify, hties, Bool.and_true, Bool.and_eq_true,
      Bool.or_eq_true, decide_eq_true_eq]
    exact ⟨⟨⟨hrunning, hready⟩, hphase⟩, hresources⟩

/-- After any other command, a status is told. -/
theorem plan_settles {config : ReconcileConfig} {p : Pod} {name : String} {configs : ScaleConfigs}
    {states : States} {direction : Direction} {state : ScaleState}
    (h : plan config p = .command name configs states direction state)
    (hends : commandsForever config p = false) :
    ∃ u outcome, plan config (p.withResources name (configs.updates direction)) =
      .tell u outcome := by
  obtain ⟨states', hresources, hplan⟩ := plan_afterCommand h
  rw [hplan]
  cases direction with
  | up => exact progressPlan_tell (by simp [hresources, commandedState])
  | down =>
    have hties : configs.enabled.all (·.ties) ≠ true := fun hties => by
      rw [commandsForever_iff.2 ⟨name, configs, states, state, h, hties⟩] at hends
      cases hends
    simp only [commandedState, hties, Bool.false_eq_true, if_false] at hresources ⊢
    exact progressPlan_tell (by simp [hresources])

/-- The command that changes nothing leads to itself. -/
theorem commandsForever_again {config : ReconcileConfig} {p : Pod}
    (hforever : commandsForever config p = true) :
    ∃ name configs states state, plan config p = .command name configs states .down state ∧
      commandsForever config (p.withResources name (configs.updates .down)) = true := by
  obtain ⟨name, configs, states, state, h, hties⟩ := commandsForever_iff.1 hforever
  obtain ⟨states', -, hplan⟩ := plan_afterCommand h
  simp only [commandedState, hties, if_true] at hplan
  exact ⟨name, configs, states, state, h,
    commandsForever_iff.2 ⟨name, configs, states', _, hplan, hties⟩⟩

theorem commandsForever_congr {a b : Pod} (h : SameButStatus a b) (config : ReconcileConfig) :
    commandsForever config a = commandsForever config b := by
  simp only [commandsForever, examine_congr (.of_sameButStatus h), classify_congr h.spec h.status]

end PodSizing.Reconcile
