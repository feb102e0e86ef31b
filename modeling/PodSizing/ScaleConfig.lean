import PodSizing.Pod.Lookup
import PodSizing.Quantity
import PodSizing.Resource

/-!
# Scale configuration

Three annotations configure a resource: the quantity while the container starts, and the request
and the limit once it has started. Which resources are managed is not the pod's to decide; a
resource that is not managed must not be configured.
-/
namespace PodSizing

/-- New requests and limits for one resource of a container. -/
structure ResourceUpdate where
  resource : ResourceName
  requests : String
  limits : String
  deriving DecidableEq, Repr

/-- A quantity's text without outer blanks, and its amount. -/
structure ConfiguredQuantity where
  text : String
  value : MilliValue
  deriving DecidableEq, Repr

structure ScaleResources where
  startup : ConfiguredQuantity
  postStartupRequests : ConfiguredQuantity
  postStartupLimits : ConfiguredQuantity
  deriving DecidableEq, Repr

/-- What a pod says about one resource. Quantities are read for a managed resource only, and keys
out of place collected for any other. -/
structure ScaleConfig where
  resource : ResourceName
  targetName : Option String
  resources : Option ScaleResources
  strayKeys : List String
  deriving DecidableEq, Repr

inductive ScaleConfigError where
  | missingKey (resource : ResourceName) (key : String)
  | missingTargetContainerName
  | invalidQuantity (key value : String) (error : QuantityError)
  | noneEnabled
  deriving DecidableEq, Repr

def ScaleConfigError.message : ScaleConfigError → String
  | .missingKey resource key => resource.text ++ " annotation " ++ key ++ " not present"
  | .missingTargetContainerName => "target container name annotation not present"
  | .invalidQuantity key value error =>
    "unable to parse " ++ key ++ " value " ++ Text.quote value ++ ": " ++ error.message
  | .noneEnabled => "no resources are enabled for scaling"

namespace ScaleConfig

def isEnabled (c : ScaleConfig) : Bool := c.resources.isSome

def quantityOf (p : Pod) (resource : ResourceName) (key : String) :
    Except ScaleConfigError ConfiguredQuantity :=
  match p.annotation? key with
  | none => .error (.missingKey resource key)
  | some value =>
    match Quantity.parse value with
    | .ok amount => .ok ⟨Text.trim value, amount⟩
    | .error e => .error (.invalidQuantity key value e)

def targetNameOf (p : Pod) : Option String := (p.annotation? Key.targetContainerName).map Text.trim

/-- The configuration of a managed resource. -/
def managed (p : Pod) (resource : ResourceName) : Except ScaleConfigError ScaleConfig := do
  let startup ← quantityOf p resource resource.startupKey
  let requests ← quantityOf p resource resource.postStartupRequestsKey
  let limits ← quantityOf p resource resource.postStartupLimitsKey
  return ⟨resource, targetNameOf p, some ⟨startup, requests, limits⟩, []⟩

/-- The configuration of a resource that is not managed. -/
def unmanaged (p : Pod) (resource : ResourceName) : ScaleConfig :=
  ⟨resource, targetNameOf p, none, resource.keys.filter p.hasAnnotation⟩

def startupUpdate? (c : ScaleConfig) : Option ResourceUpdate :=
  c.resources.map fun r => ⟨c.resource, r.startup.text, r.startup.text⟩

def postStartupUpdate? (c : ScaleConfig) : Option ResourceUpdate :=
  c.resources.map fun r => ⟨c.resource, r.postStartupRequests.text, r.postStartupLimits.text⟩

def display (c : ScaleConfig) : String :=
  match c.resources with
  | some r =>
    c.resource.text ++ ": startup=" ++ r.startup.text ++ ", postStartupRequests="
      ++ r.postStartupRequests.text ++ ", postStartupLimits=" ++ r.postStartupLimits.text
  | none => c.resource.text ++ ": disabled"

end ScaleConfig

/-- One configuration for each resource. -/
structure ScaleConfigs where
  cpu : ScaleConfig
  memory : ScaleConfig
  deriving DecidableEq, Repr

namespace ScaleConfigs

def configOf (p : Pod) (enabled : List ResourceName) (resource : ResourceName) :
    Except ScaleConfigError ScaleConfig :=
  if enabled.contains resource then ScaleConfig.managed p resource else .ok (.unmanaged p resource)

/-- Reads the annotations of a pod; the resources in `enabled` must be configured in full. -/
def ofPod (p : Pod) (enabled : List ResourceName) : Except ScaleConfigError ScaleConfigs := do
  let cpu ← configOf p enabled .cpu
  let memory ← configOf p enabled .memory
  return ⟨cpu, memory⟩

def all (c : ScaleConfigs) : List ScaleConfig := [c.cpu, c.memory]

def enabled (c : ScaleConfigs) : List ScaleConfig := c.all.filter (·.isEnabled)

def enabledNames (c : ScaleConfigs) : List ResourceName := c.enabled.map (·.resource)

/-- The name of the container to resize, by the first managed resource. -/
def targetName (c : ScaleConfigs) : Except ScaleConfigError String :=
  match c.enabled with
  | [] => .error .noneEnabled
  | first :: _ =>
    match first.targetName with
    | some name => .ok name
    | none => .error .missingTargetContainerName

def startupUpdates (c : ScaleConfigs) : List ResourceUpdate :=
  c.enabled.filterMap (·.startupUpdate?)

def postStartupUpdates (c : ScaleConfigs) : List ResourceUpdate :=
  c.enabled.filterMap (·.postStartupUpdate?)

def display (c : ScaleConfigs) : String := ", ".intercalate (c.enabled.map (·.display))

end ScaleConfigs
end PodSizing
