import PodSizing.ScaleConfig
import PodSizing.States

/-!
# Classification

A pod's target container is classified by its probes, by what the kubelet reports, and by which of
the configured amounts are applied. Missing reports make parts unknown; only a container that is
not specified, or a pending resize for a reason nobody knows, is an error.
-/
namespace PodSizing

inductive ClassificationError where
  | shape (error : ShapeError)
  | unknownPendingReason (reason message : String)
  deriving DecidableEq, Repr

def ClassificationError.message : ClassificationError → String
  | .shape e => e.message
  | .unknownPendingReason reason message =>
    "unrecognised resize pending reason " ++ Text.quote reason ++ ": " ++ message

/-- Whether a text stands somewhere in another one. -/
def occursIn (part : List Char) : List Char → Bool
  | [] => part.isEmpty
  | c :: cs => part.isPrefixOf (c :: cs) || occursIn part cs

/-- The amount of a quantity that is there and can be read. -/
def amount? (quantity : Option String) : Option MilliValue := quantity.bind Quantity.parse?

namespace Container

def requestAmount? (c : Container) (resource : ResourceName) : Option MilliValue :=
  amount? (c.request? resource.text)

def limitAmount? (c : Container) (resource : ResourceName) : Option MilliValue :=
  amount? (c.limit? resource.text)

/-- Whether the request and the limit of a resource are the given amounts. -/
def hasAmounts (c : Container) (resource : ResourceName) (request limit : MilliValue) : Bool :=
  c.requestAmount? resource = some request && c.limitAmount? resource = some limit

def isAtStartup (c : Container) (config : ScaleConfig) : Bool :=
  match config.resources with
  | some r => c.hasAmounts config.resource r.startup.value r.startup.value
  | none => true

def isAtPostStartup (c : Container) (config : ScaleConfig) : Bool :=
  match config.resources with
  | some r =>
    c.hasAmounts config.resource r.postStartupRequests.value r.postStartupLimits.value
  | none => true

def resourcesState (c : Container) (configs : ScaleConfigs) : ResourcesState :=
  if configs.enabled.all c.isAtStartup then .startup
  else if configs.enabled.all c.isAtPostStartup then .postStartup
  else .unknown

end Container

namespace Pod

/-- Whether a reported allocation is the wanted amount. What is not reported agrees. -/
def allocationMatches (p : Pod) (name : String) (resource : ResourceName)
    (wanted : Option MilliValue) : Bool :=
  match p.allocated name resource.text with
  | .ok (some allocated) => amount? (some allocated) = wanted
  | .ok none | .error _ => true

/-- How the reported amounts of one resource compare with a container's specification: they can be
incomplete, and else they match or do not. -/
def reportedState (p : Pod) (c : Container) (reported : Resources) (resource : ResourceName) :
    StatusResourcesState :=
  match amount? (reported.requests.bind (·.get? resource.text)),
      amount? (reported.limits.bind (·.get? resource.text)) with
  | some request, some limit =>
    if request.isZero || limit.isZero then .incomplete
    else if c.requestAmount? resource = some request && c.limitAmount? resource = some limit
        && p.allocationMatches c.name resource (c.requestAmount? resource) then
      .containerResourcesMatch
    else .containerResourcesMismatch
  | _, _ => .incomplete

/-- One resource that is incomplete makes the whole incomplete, and one that differs makes it
differ. -/
def combineReported (states : List StatusResourcesState) : StatusResourcesState :=
  if states.contains .incomplete then .incomplete
  else if states.contains .containerResourcesMismatch then .containerResourcesMismatch
  else .containerResourcesMatch

def statusResourcesState (p : Pod) (c : Container) (configs : ScaleConfigs) :
    StatusResourcesState :=
  match configs.enabledNames, p.reportedResources c.name with
  | [], _ => .containerResourcesMatch
  | _ :: _, .error _ => .unknown
  | names, .ok reported => combineReported (names.map (p.reportedState c reported))

/-- The state of a resize, by the pod's conditions. A resize that failed with the awaited message
in its text still waits for memory use to fall, and is in progress. -/
def resizeState (p : Pod) (awaited : String) : Except ClassificationError Resize :=
  match p.resizePending?, p.resizeInProgress? with
  | some pending, _ =>
    let message := pending.message.getD ""
    if pending.reason = some "Deferred" then .ok ⟨.deferred, message⟩
    else if pending.reason = some "Infeasible" then .ok ⟨.infeasible, message⟩
    else .error (.unknownPendingReason (pending.reason.getD "") message)
  | none, some inProgress =>
    let message := inProgress.message.getD ""
    if inProgress.reason = some "Error"
        && (awaited.isEmpty || !occursIn awaited.toList message.toList) then .ok ⟨.error, message⟩
    else .ok ⟨.inProgress, message⟩
  | none, none => .ok ⟨.notStartedOrCompleted, ""⟩

def classify (p : Pod) (name : String) (configs : ScaleConfigs) (awaited : String) :
    Except ClassificationError States := do
  let c ← (p.container name).mapError .shape
  let resize ← p.resizeState awaited
  return {
    startupProbe := .ofBool c.hasStartupProbe
    readinessProbe := .ofBool c.hasReadinessProbe
    container := (p.containerState name).toOption.getD .unknown
    started := .ofOption ((p.started name).toOption.getD none)
    ready := .ofOption (p.ready name).toOption
    resources := c.resourcesState configs
    statusResources := p.statusResourcesState c configs
    resize }

end Pod
end PodSizing
