import PodSizing.Json.Reader
import PodSizing.Json.Record
import PodSizing.Json.Writer
import PodSizing.Resource
import PodSizing.States

/-!
# The status record

What has been done about a pod is written to one of its annotations as JSON: a text for people, the
states, and when the last scale was commanded, enacted or failed. Reading what was written gives the
same record.
-/
namespace PodSizing

/-- The history of a pod's scales. A time that is not known is the empty text. -/
structure Scale where
  enabledForResources : List ResourceName := []
  lastCommanded : String := ""
  lastEnacted : String := ""
  lastFailed : String := ""
  deriving DecidableEq, Repr, Inhabited

structure StatusRecord where
  status : String
  states : States
  scale : Scale
  lastUpdated : String := ""
  deriving DecidableEq, Repr, Inhabited

/-- Whether two records say the same, whenever they were written. -/
def StatusRecord.agrees (a b : StatusRecord) : Bool :=
  a.status = b.status && a.states = b.states && a.scale = b.scale

def Resize.toJson (r : Resize) : Json :=
  .record [("state", .text r.state.text), ("message", .text r.message)]

def States.toJson (s : States) : Json :=
  .record
    [("startupProbe", .text s.startupProbe.text), ("readinessProbe", .text s.readinessProbe.text),
     ("container", .text s.container.text), ("started", .text s.started.text),
     ("ready", .text s.ready.text), ("resources", .text s.resources.text),
     ("statusResources", .text s.statusResources.text), ("resize", s.resize.toJson)]

def Scale.toJson (s : Scale) : Json :=
  .record
    [("enabledForResources", .arr (s.enabledForResources.map fun r => .text r.text)),
     ("lastCommanded", .text s.lastCommanded), ("lastEnacted", .text s.lastEnacted),
     ("lastFailed", .text s.lastFailed)]

def StatusRecord.toJson (r : StatusRecord) : Json :=
  .record
    [("status", .text r.status), ("states", r.states.toJson), ("scale", r.scale.toJson),
     ("lastUpdated", .text r.lastUpdated)]

def StatusRecord.write (r : StatusRecord) : String := r.toJson.compact

open Json (fields? given? givenOr? word? readString?)

def readBoolState? : Json → Option BoolState := word? BoolState.all BoolState.text

def Resize.ofJson? (j : Json) : Option Resize := do
  match ← fields? ["state", "message"] j with
  | [state, message] =>
    some
      { state := ← givenOr? .unknown (word? ResizeState.all ResizeState.text) state
        message := ← givenOr? "" readString? message }
  | _ => none

def States.ofJson? (j : Json) : Option States := do
  match ← fields? ["startupProbe", "readinessProbe", "container", "started", "ready", "resources",
      "statusResources", "resize"] j with
  | [startupProbe, readinessProbe, container, started, ready, resources, statusResources, resize] =>
    some
      { startupProbe := ← givenOr? .unknown readBoolState? startupProbe
        readinessProbe := ← givenOr? .unknown readBoolState? readinessProbe
        container := ← givenOr? .unknown (word? ContainerState.all ContainerState.text) container
        started := ← givenOr? .unknown readBoolState? started
        ready := ← givenOr? .unknown readBoolState? ready
        resources := ← givenOr? .unknown (word? ResourcesState.all ResourcesState.text) resources
        statusResources :=
          ← givenOr? .unknown (word? StatusResourcesState.all StatusResourcesState.text)
            statusResources
        resize := ← givenOr? {} Resize.ofJson? resize }
  | _ => none

/-- A list of resources; null stands for the empty one. -/
def readResources? : Json → Option (List ResourceName)
  | .null => some []
  | .arr items => items.mapM (word? ResourceName.all ResourceName.text)
  | _ => none

def Scale.ofJson? (j : Json) : Option Scale := do
  match ← fields? ["enabledForResources", "lastCommanded", "lastEnacted", "lastFailed"] j with
  | [enabled, commanded, enacted, failed] =>
    some
      { enabledForResources := ← givenOr? [] readResources? enabled
        lastCommanded := ← givenOr? "" readString? commanded
        lastEnacted := ← givenOr? "" readString? enacted
        lastFailed := ← givenOr? "" readString? failed }
  | _ => none

def StatusRecord.ofJson? (j : Json) : Option StatusRecord := do
  match ← fields? ["status", "states", "scale", "lastUpdated"] j with
  | [status, states, scale, lastUpdated] =>
    some
      { status := ← given? readString? status
        states := ← given? States.ofJson? states
        scale := ← given? Scale.ofJson? scale
        lastUpdated := ← givenOr? "" readString? lastUpdated }
  | _ => none

def StatusRecord.parse? (s : String) : Option StatusRecord := (Json.parse? s).bind ofJson?

end PodSizing
