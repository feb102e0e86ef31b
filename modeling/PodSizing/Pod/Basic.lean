import PodSizing.Json.Basic
import PodSizing.Keyed

/-!
# Pods

The parts of a pod that sizing reads or writes have types of their own. The rest of each part is
kept in its plain form, so that two pods are equal exactly when they agree in every field.
-/
namespace PodSizing

/-- Names a pod within its cluster. -/
structure PodId where
  namespaceName : String
  name : String
  deriving DecidableEq, Repr, Inhabited

namespace PodId

def display (id : PodId) : String := id.namespaceName ++ "/" ++ id.name

def compare (a b : PodId) : Ordering :=
  (Ord.compare a.namespaceName b.namespaceName).then (Ord.compare a.name b.name)

end PodId

/-- Requests and limits by resource name. -/
structure Resources where
  requests : Option (Keyed String) := none
  limits : Option (Keyed String) := none
  claims : Option Json := none
  deriving DecidableEq, Inhabited

structure ResizePolicy where
  resourceName : String
  restartPolicy : String
  deriving DecidableEq, Inhabited

structure Container where
  name : String
  startupProbe : Option Json := none
  readinessProbe : Option Json := none
  resources : Option Resources := none
  resizePolicy : Option (List ResizePolicy) := none
  other : Json := .obj []
  deriving DecidableEq, Inhabited

structure Spec where
  containers : List Container
  other : Json := .obj []
  deriving DecidableEq, Inhabited

/-- A container's state: of the three forms, those that are reported. -/
structure StateReport where
  running : Option Json := none
  waiting : Option Json := none
  terminated : Option Json := none
  deriving DecidableEq, Inhabited

structure ContainerStatus where
  name : String
  state : Option StateReport := none
  started : Option Bool := none
  ready : Bool := false
  resources : Option Resources := none
  allocatedResources : Option (Keyed String) := none
  other : Json := .obj []
  deriving DecidableEq, Inhabited

structure Condition where
  type : String
  status : String
  reason : Option String := none
  message : Option String := none
  other : Json := .obj []
  deriving DecidableEq, Inhabited

structure PodStatus where
  qosClass : Option String := none
  containerStatuses : Option (List ContainerStatus) := none
  conditions : Option (List Condition) := none
  other : Json := .obj []
  deriving DecidableEq, Inhabited

structure Metadata where
  namespaceName : Option String := none
  name : Option String := none
  generateName : Option String := none
  resourceVersion : Option String := none
  labels : Option (Keyed String) := none
  annotations : Option (Keyed String) := none
  deletionTimestamp : Option Json := none
  managedFields : Option Json := none
  other : Json := .obj []
  deriving DecidableEq, Inhabited

structure Pod where
  metadata : Metadata := {}
  spec : Option Spec := none
  status : Option PodStatus := none
  deriving DecidableEq, Inhabited

namespace Pod

/-- A pod's name, or the stem of the name that the server will make up. -/
def effectiveName (p : Pod) : String :=
  (p.metadata.name.orElse fun _ => p.metadata.generateName).getD ""

def id (p : Pod) : PodId := ⟨p.metadata.namespaceName.getD "", p.effectiveName⟩

def resourceVersion (p : Pod) : Option String := p.metadata.resourceVersion

def containers (p : Pod) : List Container := (p.spec.map (·.containers)).getD []

/-- A pod of which only its name and perhaps its version are known. -/
def bare (id : PodId) (version : Option String) : Pod :=
  { metadata :=
      { namespaceName := some id.namespaceName, name := some id.name, resourceVersion := version } }

end Pod
end PodSizing
