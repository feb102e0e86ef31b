import PodSizing.Pod.Lookup

/-!
# States of a target container

What is known about a container at one time, each part by a word of its own. A part that nothing
has been reported about is unknown.
-/
namespace PodSizing

inductive BoolState where
  | true
  | false
  | unknown
  deriving DecidableEq, Repr, Inhabited

inductive ResourcesState where
  | startup
  | postStartup
  | unknown
  deriving DecidableEq, Repr, Inhabited

inductive StatusResourcesState where
  | incomplete
  | containerResourcesMatch
  | containerResourcesMismatch
  | unknown
  deriving DecidableEq, Repr, Inhabited

inductive ResizeState where
  | notStartedOrCompleted
  | inProgress
  | deferred
  | infeasible
  | error
  | unknown
  deriving DecidableEq, Repr, Inhabited

structure Resize where
  state : ResizeState := .unknown
  message : String := ""
  deriving DecidableEq, Repr, Inhabited

structure States where
  startupProbe : BoolState := .unknown
  readinessProbe : BoolState := .unknown
  container : ContainerState := .unknown
  started : BoolState := .unknown
  ready : BoolState := .unknown
  resources : ResourcesState := .unknown
  statusResources : StatusResourcesState := .unknown
  resize : Resize := {}
  deriving DecidableEq, Repr, Inhabited

namespace BoolState

def ofBool (b : Bool) : BoolState := if b then .true else .false

def ofOption : Option Bool → BoolState
  | some b => ofBool b
  | none => .unknown

def text : BoolState → String
  | .true => "true"
  | .false => "false"
  | .unknown => "unknown"

def all : List BoolState := [.true, .false, .unknown]

end BoolState

def ContainerState.all : List ContainerState := [.running, .waiting, .terminated, .unknown]

namespace ResourcesState

def text : ResourcesState → String
  | .startup => "startup"
  | .postStartup => "poststartup"
  | .unknown => "unknown"

def all : List ResourcesState := [.startup, .postStartup, .unknown]

end ResourcesState

namespace StatusResourcesState

def text : StatusResourcesState → String
  | .incomplete => "incomplete"
  | .containerResourcesMatch => "containerresourcesmatch"
  | .containerResourcesMismatch => "containerresourcesmismatch"
  | .unknown => "unknown"

def all : List StatusResourcesState :=
  [.incomplete, .containerResourcesMatch, .containerResourcesMismatch, .unknown]

end StatusResourcesState

namespace ResizeState

def text : ResizeState → String
  | .notStartedOrCompleted => "notstartedorcompleted"
  | .inProgress => "inprogress"
  | .deferred => "deferred"
  | .infeasible => "infeasible"
  | .error => "error"
  | .unknown => "unknown"

def all : List ResizeState :=
  [.notStartedOrCompleted, .inProgress, .deferred, .infeasible, .error, .unknown]

end ResizeState

def States.display (s : States) : String :=
  "startupProbe=" ++ s.startupProbe.text ++ " readinessProbe=" ++ s.readinessProbe.text
    ++ " container=" ++ s.container.text ++ " started=" ++ s.started.text
    ++ " ready=" ++ s.ready.text ++ " resources=" ++ s.resources.text
    ++ " statusResources=" ++ s.statusResources.text ++ " resize=" ++ s.resize.state.text

end PodSizing
