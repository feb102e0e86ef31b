import PodSizing.PodClient
import PodSizing.Status.Update

/-!
# Routing

The states of a pod lead to at most one change of it: nothing while something is still unknown, a
command when the wrong resources are applied for the phase that its container is in, and otherwise a
record of how far the last command has come.
-/
namespace PodSizing

inductive ActionError where
  | unknownResources
  | scaleFailed (direction : Direction) (reason : FailureReason) (message : String)
  | command (error : ClientError)
  deriving DecidableEq, Repr

def ActionError.message? : ActionError → Option String
  | .unknownResources =>
    some "unknown resources applied and scaling from unknown resources is disabled"
  | .scaleFailed direction reason message =>
    some (direction.text ++ " scale failed - " ++ reason.text ++ " (" ++ message ++ ")")
  | .command e => e.message?.map ("failed to command resources: " ++ ·)

/-- A pod about which a decision is due, and what is known of it. -/
structure Target where
  pod : Pod
  containerName : String
  configs : ScaleConfigs
  states : States

namespace Target

def updates (t : Target) : Direction → List ResourceUpdate
  | .up => t.configs.startupUpdates
  | .down => t.configs.postStartupUpdates

def statusUpdate (t : Target) (status : String) (state : ScaleState) : StatusUpdate :=
  ⟨status, t.states, state, t.configs.enabledNames⟩

end Target

namespace Routing

/-- Counts what a write that has succeeded let be seen. -/
def recordWrite (w : Written) : PodProgram Unit :=
  .record (w.observations.map .scale)

/-- Tries once to write a status. Whether it is written changes nothing else. -/
def writeStatus (context : Context) (p : Pod) (u : StatusUpdate) : PodProgram Unit := do
  match ← PodProgram.patch { context with retry := .once } p [u.mutator] false true with
  | .ok written => recordWrite written
  | .error _ => return ()

/-- Commands the resources for a direction, together with a status that says so. -/
def command (context : Context) (t : Target) (direction : Direction) (state : ScaleState) :
    PodProgram (Except ActionError Unit) := do
  let u := t.statusUpdate (direction.phase ++ " resources commanded") state
  match ← PodProgram.resize context t.pod t.containerName (t.updates direction) [u.mutator] true with
  | .ok written =>
    recordWrite written
    return .ok ()
  | .error e => return .error (.command e)

/-- What a scale in some direction has come to: a status, its scale state, and why it failed. -/
structure Progress where
  status : String
  scaleState : ScaleState := .notApplicable
  failure : Option FailureReason := none
  deriving DecidableEq, Repr

/-- How far the scale in a direction has come. -/
def progress (states : States) (direction : Direction) : Progress :=
  let scale := direction.phase ++ " scale "
  let message := " (" ++ states.resize.message ++ ")"
  match states.resize.state with
  | .inProgress => { status := scale ++ "in progress" }
  | .deferred => { status := scale ++ "deferred" ++ message }
  | .infeasible => ⟨scale ++ "failed - infeasible" ++ message, .failed direction .infeasible,
      some .infeasible⟩
  | .error => ⟨scale ++ "failed - error" ++ message, .failed direction .error, some .error⟩
  | .unknown => { status := scale ++ "resize state unknown" }
  | .notStartedOrCompleted =>
    match states.statusResources with
    | .containerResourcesMatch =>
      { status := direction.phase ++ " resources enacted", scaleState := .enacted direction }
    | .incomplete | .containerResourcesMismatch | .unknown => { status := scale ++ "in progress" }

/-- The direction whose resources are applied. -/
def appliedDirection? : ResourcesState → Option Direction
  | .startup => some .up
  | .postStartup => some .down
  | .unknown => none

/-- Records how far the scale has come whose resources are applied. -/
def recordProgress (context : Context) (t : Target) : PodProgram (Except ActionError Unit) :=
  match appliedDirection? t.states.resources with
  | none => .fault "unknown resources are commanded, never processed as enacted"
  | some direction => do
    let p := progress t.states direction
    writeStatus context t.pod (t.statusUpdate p.status p.scaleState)
    match p.failure with
    | some reason => return .error (.scaleFailed direction reason t.states.resize.message)
    | none => return .ok ()

/-- Whether the container counts as started: by its startup probe, or else by its readiness. -/
def isStarted? (s : States) : Option Bool :=
  match s.startupProbe, s.readinessProbe with
  | .true, _ => some (s.started = .true)
  | _, .true => some (s.started = .true && s.ready = .true)
  | _, _ => none

/-- What is due for resources in a state when the container has started or not. -/
def act (context : Context) (t : Target) : ResourcesState → Bool →
    PodProgram (Except ActionError Unit)
  | .startup, false | .postStartup, true => recordProgress context t
  | .startup, true => command context t .down (.commanded .down)
  | .postStartup, false => command context t .up (.commanded .up)
  | .unknown, false => command context t .up .unknownCommanded
  | .unknown, true => command context t .down .unknownCommanded

/-- Carries out what the states of a pod call for. Resources that are unknown are commanded only if
`scaleUnknown` allows it. -/
def route (scaleUnknown : Bool) (context : Context) (t : Target) :
    PodProgram (Except ActionError Unit) :=
  let s := t.states
  if s.startupProbe = .unknown || s.readinessProbe = .unknown then
    .fault ("probe states must be known once classified: " ++ s.display)
  else if s.container ≠ .running then do
    writeStatus context t.pod
      (t.statusUpdate "target container currently not running" .notApplicable)
    return .ok ()
  else if s.started = .unknown || s.ready = .unknown then return .ok ()
  else if s.resources = .unknown && !scaleUnknown then do
    writeStatus context t.pod (t.statusUpdate "unknown resources applied" .notApplicable)
    return .error .unknownResources
  else
    match isStarted? s with
    | none => .fault "pods without a startup or readiness probe must not be routed"
    | some started => act context t s.resources started

end Routing
end PodSizing
