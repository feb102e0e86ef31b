import PodSizing.ScaleConfig

/-!
# Eligibility

A pod may be managed when it has opted in, nobody else manages it, its target container can tell
that it has started, and resizing keeps its quality of service and restarts nothing. The checks
have an order, and the first that fails is the answer.
-/
namespace PodSizing

inductive Ineligibility where
  | notEnabled (value : String)
  | autoscalerMark (key : String)
  | containerNotInSpec (name : String)
  | noProbe
  | notGuaranteed (qosClass : String)
  | noResourcesEnabled
  | emptyTargetContainerName
  | targetContainerNameMismatch (resource : ResourceName) (name expected : String)
  | annotationsOnDisabledResource (resource : ResourceName) (keys : List String)
  | missingContainerResources (resource : ResourceName)
  | invalidContainerQuantity (resource : ResourceName) (error : QuantityError)
  | requestsNotEqualLimits (resource : ResourceName)
  | resizeRestartPolicy (resource : ResourceName) (policy expected : String)
  | startupBelowPostStartupRequests (resource : ResourceName)
  | postStartupRequestsNotEqualLimits (resource : ResourceName)
  deriving DecidableEq, Repr

def Ineligibility.message : Ineligibility → String
  | .notEnabled value => "enabled label value " ++ Text.quote value ++ " is not \"true\""
  | .autoscalerMark key => "vpa annotation " ++ key ++ " present"
  | .containerNotInSpec name =>
    "target container " ++ Text.quote name ++ " not present in pod spec"
  | .noProbe => "target container has neither a startup probe nor a readiness probe"
  | .notGuaranteed qosClass => "pod qos class " ++ Text.quote qosClass ++ " is not Guaranteed"
  | .noResourcesEnabled => "no resources are enabled for scaling"
  | .emptyTargetContainerName => "target container name is empty"
  | .targetContainerNameMismatch resource name expected =>
    resource.text ++ " target container name " ++ Text.quote name ++ " does not match "
      ++ Text.quote expected
  | .annotationsOnDisabledResource resource keys =>
    resource.text ++ " is not enabled for scaling but annotations are present: "
      ++ ", ".intercalate keys
  | .missingContainerResources resource =>
    "target container " ++ resource.text ++ " requests and limits must both be set"
  | .invalidContainerQuantity resource error =>
    "target container " ++ resource.text ++ " quantity is invalid: " ++ error.message
  | .requestsNotEqualLimits resource =>
    "target container " ++ resource.text ++ " requests must equal limits"
  | .resizeRestartPolicy resource policy expected =>
    "target container " ++ resource.text ++ " resize restart policy is " ++ Text.quote policy
      ++ ", must be " ++ Text.quote expected
  | .startupBelowPostStartupRequests resource =>
    resource.text ++ " startup value is less than post-startup requests"
  | .postStartupRequestsNotEqualLimits resource =>
    resource.text ++ " post-startup requests must equal post-startup limits"

/-- Fails with the error when the condition holds. -/
def failIf {ε : Type} (condition : Bool) (error : ε) : Except ε Unit :=
  if condition then .error error else .ok ()

namespace ScaleConfig

/-- The policy under which a resize restarts nothing. -/
def desiredRestartPolicy : String := "NotRequired"

def checkQuantities (c : ScaleConfig) (requests limits : String) : Except Ineligibility Unit := do
  let requests ← (Quantity.parse requests).mapError (.invalidContainerQuantity c.resource)
  let limits ← (Quantity.parse limits).mapError (.invalidContainerQuantity c.resource)
  failIf (requests != limits) (.requestsNotEqualLimits c.resource)

def checkPolicy (c : ScaleConfig) (container : Container) : Except Ineligibility Unit :=
  let policy := container.restartPolicy? c.resource.text
  failIf (policy != some desiredRestartPolicy)
    (.resizeRestartPolicy c.resource (policy.getD "<none>") desiredRestartPolicy)

/-- Checks the configuration of one resource against the target container. -/
def validateAgainst (c : ScaleConfig) (container : Container) : Except Ineligibility Unit :=
  match c.resources with
  | none => failIf (!c.strayKeys.isEmpty) (.annotationsOnDisabledResource c.resource c.strayKeys)
  | some r =>
    match container.request? c.resource.text, container.limit? c.resource.text with
    | some requests, some limits => do
      c.checkQuantities requests limits
      c.checkPolicy container
      failIf (r.startup.value < r.postStartupRequests.value)
        (.startupBelowPostStartupRequests c.resource)
      failIf (r.postStartupRequests.value != r.postStartupLimits.value)
        (.postStartupRequestsNotEqualLimits c.resource)
    | _, _ => .error (.missingContainerResources c.resource)

end ScaleConfig

namespace ScaleConfigs

def checkName (expected : String) (c : ScaleConfig) : Except Ineligibility Unit :=
  let name := c.targetName.getD ""
  failIf (name != expected) (.targetContainerNameMismatch c.resource name expected)

/-- Checks that the managed resources name one container. -/
def validateCollection (c : ScaleConfigs) : Except Ineligibility Unit :=
  match c.enabled with
  | [] => .error .noResourcesEnabled
  | first :: rest => do
    let name := first.targetName.getD ""
    failIf name.isEmpty .emptyTargetContainerName
    rest.forM (checkName name)

def validateAgainst (c : ScaleConfigs) (container : Container) : Except Ineligibility Unit :=
  c.all.forM (·.validateAgainst container)

end ScaleConfigs

namespace Pod

def checkOptIn (p : Pod) : Except Ineligibility Unit :=
  failIf (p.label? Key.enabled != some "true") (.notEnabled ((p.label? Key.enabled).getD ""))

def checkAutoscaler (p : Pod) : Except Ineligibility Unit :=
  match Key.autoscalerMarks.find? p.hasAnnotation with
  | some key => .error (.autoscalerMark key)
  | none => .ok ()

def targetContainer (p : Pod) (name : String) : Except Ineligibility Container :=
  (p.container name).mapError fun _ => .containerNotInSpec name

/-- Checks that a pod may be managed with the given target container and configuration. -/
def validate (p : Pod) (name : String) (configs : ScaleConfigs) : Except Ineligibility Unit := do
  p.checkOptIn
  p.checkAutoscaler
  let container ← p.targetContainer name
  failIf (!container.hasStartupProbe && !container.hasReadinessProbe) .noProbe
  failIf (!p.isGuaranteed) (.notGuaranteed (p.qosClass?.getD ""))
  configs.validateCollection
  configs.validateAgainst container

end Pod
end PodSizing
