import PodSizing.Pod.Basic
import PodSizing.Text.Basic
import PodSizing.Text.Quoted

/-!
# Looking into pods

Reads of a pod's labels, annotations, containers and reported status. Of several containers with
one name, the first is meant. What the kubelet has not reported yet is an error of its own kind.
-/
namespace PodSizing

/-- A part of a pod that is not there. -/
inductive ShapeError where
  | containerNotPresent (name : String)
  | containerStatusNotPresent
  | containerStatusResourcesNotPresent
  | allocatedResourcesNotPresent
  deriving DecidableEq, Repr

def ShapeError.message : ShapeError → String
  | .containerNotPresent name => "container " ++ Text.quote name ++ " not present in pod spec"
  | .containerStatusNotPresent => "container status not present"
  | .containerStatusResourcesNotPresent => "container status resources not present"
  | .allocatedResourcesNotPresent => "allocated resources not present"

/-- Why a label or an annotation gives no value. -/
inductive LookupError where
  | missing (what : String)
  | unparseable (key value error : String)
  deriving DecidableEq, Repr

def LookupError.message : LookupError → String
  | .missing what => what ++ " not present"
  | .unparseable key value error =>
    "unable to parse " ++ key ++ " value " ++ Text.quote value ++ ": " ++ error

/-- What runs in a container, by the first of the forms that its state reports. -/
inductive ContainerState where
  | running
  | waiting
  | terminated
  | unknown
  deriving DecidableEq, Repr, Inhabited

def ContainerState.text : ContainerState → String
  | .running => "running"
  | .waiting => "waiting"
  | .terminated => "terminated"
  | .unknown => "unknown"

def parseBool (s : String) : Except String Bool :=
  if s = "true" then .ok true
  else if s = "false" then .ok false
  else .error "provided string was not `true` or `false`"

def parseNat32 (s : String) : Except String Nat :=
  (Text.readNatural Text.maxNat32 s.toList).mapError Text.NumeralError.message

/-- The parsed value of an entry of which `what` says the kind. -/
def lookupAs {α : Type} (what key : String) (value : Option String)
    (parse : String → Except String α) : Except LookupError α :=
  match value with
  | none => .error (.missing (what ++ " " ++ key))
  | some value => (parse value).mapError (.unparseable key value)

namespace Pod

def annotation? (p : Pod) (key : String) : Option String :=
  p.metadata.annotations.bind (·.get? key)

def hasAnnotation (p : Pod) (key : String) : Bool := (p.annotation? key).isSome

def label? (p : Pod) (key : String) : Option String := p.metadata.labels.bind (·.get? key)

def annotationAs {α : Type} (p : Pod) (key : String) (parse : String → Except String α) :
    Except LookupError α :=
  lookupAs "annotation" key (p.annotation? key) parse

def labelAs {α : Type} (p : Pod) (key : String) (parse : String → Except String α) :
    Except LookupError α :=
  lookupAs "label" key (p.label? key) parse

def container? (p : Pod) (name : String) : Option Container :=
  p.containers.find? fun c => c.name = name

def container (p : Pod) (name : String) : Except ShapeError Container :=
  match p.container? name with
  | some c => .ok c
  | none => .error (.containerNotPresent name)

def isContainerInSpec (p : Pod) (name : String) : Bool := (p.container? name).isSome

end Pod

namespace Container

def hasStartupProbe (c : Container) : Bool := c.startupProbe.isSome

def hasReadinessProbe (c : Container) : Bool := c.readinessProbe.isSome

def request? (c : Container) (resource : String) : Option String :=
  c.resources.bind fun r => r.requests.bind (·.get? resource)

def limit? (c : Container) (resource : String) : Option String :=
  c.resources.bind fun r => r.limits.bind (·.get? resource)

/-- What the first policy for a resource says about restarts. -/
def restartPolicy? (c : Container) (resource : String) : Option String :=
  ((c.resizePolicy.getD []).find? fun p => p.resourceName = resource).map (·.restartPolicy)

/-- Sets the request and the limit of one resource and keeps those of every other. -/
def setResource (c : Container) (resource request limit : String) : Container :=
  let r := c.resources.getD {}
  { c with
    resources := some
      { r with
        requests := some ((r.requests.getD .empty).insert resource request)
        limits := some ((r.limits.getD .empty).insert resource limit) } }

end Container

/-- Changes the first item that satisfies the test. -/
def updateFirst {α : Type} (test : α → Bool) (change : α → α) : List α → List α
  | [] => []
  | a :: rest => if test a then change a :: rest else a :: updateFirst test change rest

namespace Pod

def mapContainers (p : Pod) (f : List Container → List Container) : Pod :=
  { p with spec := p.spec.map fun s => { s with containers := f s.containers } }

def setContainerResource (p : Pod) (name resource request limit : String) :
    Except ShapeError Pod :=
  if p.isContainerInSpec name then
    .ok (p.mapContainers (updateFirst (·.name = name) (·.setResource resource request limit)))
  else .error (.containerNotPresent name)

def setAnnotation (p : Pod) (key value : String) : Pod :=
  { p with
    metadata :=
      { p.metadata with
        annotations := some ((p.metadata.annotations.getD .empty).insert key value) } }

def qosClass? (p : Pod) : Option String := p.status.bind (·.qosClass)

def isGuaranteed (p : Pod) : Bool := p.qosClass? = some "Guaranteed"

def containerStatus (p : Pod) (name : String) : Except ShapeError ContainerStatus :=
  match ((p.status.bind (·.containerStatuses)).getD []).find? fun s => s.name = name with
  | some s => .ok s
  | none => .error .containerStatusNotPresent

def containerState (p : Pod) (name : String) : Except ShapeError ContainerState := do
  match (← p.containerStatus name).state with
  | some s =>
    return if s.running.isSome then .running
      else if s.waiting.isSome then .waiting
      else if s.terminated.isSome then .terminated
      else .unknown
  | none => return .unknown

/-- Whether the container has passed its startup probe, once the kubelet knows. -/
def started (p : Pod) (name : String) : Except ShapeError (Option Bool) :=
  (p.containerStatus name).map (·.started)

def ready (p : Pod) (name : String) : Except ShapeError Bool := (p.containerStatus name).map (·.ready)

def reportedResources (p : Pod) (name : String) : Except ShapeError Resources := do
  match (← p.containerStatus name).resources with
  | some r => .ok r
  | none => .error .containerStatusResourcesNotPresent

def reportedRequest (p : Pod) (name resource : String) : Except ShapeError (Option String) :=
  (p.reportedResources name).map fun r => r.requests.bind (·.get? resource)

def reportedLimit (p : Pod) (name resource : String) : Except ShapeError (Option String) :=
  (p.reportedResources name).map fun r => r.limits.bind (·.get? resource)

def allocated (p : Pod) (name resource : String) : Except ShapeError (Option String) := do
  match (← p.containerStatus name).allocatedResources with
  | some table => .ok (table.get? resource)
  | none => .error .allocatedResourcesNotPresent

/-- The first condition of a type whose status is `True`. -/
def assertedCondition? (p : Pod) (type : String) : Option Condition :=
  ((p.status.bind (·.conditions)).getD []).find? fun c => c.type = type && c.status = "True"

def resizePending? (p : Pod) : Option Condition := p.assertedCondition? "PodResizePending"

def resizeInProgress? (p : Pod) : Option Condition := p.assertedCondition? "PodResizeInProgress"

end Pod
end PodSizing
