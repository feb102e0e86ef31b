import PodSizing.Pod.Basic
import PodSizing.Pod.Schema

/-!
# Pods as JSON

Reading leaves out unknown members, takes null as missing and lets the last of repeated members
count. Writing leaves out what is absent, and reading it back gives the same pod.
-/
namespace PodSizing
open Shape (lastMember? table? ofTable)

abbrev Members := List (String × Json)

/-- The members of an object that all have names. -/
def objectMembers? : Json → Option Members
  | .obj members => Json.namedMembers? members
  | _ => none

def readList? {α : Type} (item : Json → Option α) : Json → Option (List α)
  | .arr values => values.mapM item
  | _ => none

/-- The members that the given fields describe, in their plain form. -/
def readOther? (fields : Schema.Fields) (members : Members) : Option Json :=
  (Shape.plainFields? fields members).map .record

def readRequiredText? (name : String) (members : Members) : Option String :=
  (lastMember? Json.readString? name members).map (·.getD "")

def Resources.ofJson? (j : Json) : Option Resources := do
  let members ← objectMembers? j
  some
    { requests := ← lastMember? (table? Json.readString?) "requests" members
      limits := ← lastMember? (table? Json.readString?) "limits" members
      claims := ← lastMember? Schema.resourceClaims.plain? "claims" members }

def ResizePolicy.ofJson? (j : Json) : Option ResizePolicy := do
  let members ← objectMembers? j
  some
    { resourceName := ← readRequiredText? "resourceName" members
      restartPolicy := ← readRequiredText? "restartPolicy" members }

def Container.ofJson? (j : Json) : Option Container := do
  let members ← objectMembers? j
  some
    { name := ← readRequiredText? "name" members
      startupProbe := ← lastMember? Schema.probe.plain? "startupProbe" members
      readinessProbe := ← lastMember? Schema.probe.plain? "readinessProbe" members
      resources := ← lastMember? Resources.ofJson? "resources" members
      resizePolicy := ← lastMember? (readList? ResizePolicy.ofJson?) "resizePolicy" members
      other := ← readOther? Schema.container members }

def Spec.ofJson? (j : Json) : Option Spec := do
  let members ← objectMembers? j
  some
    { containers := (← lastMember? (readList? Container.ofJson?) "containers" members).getD []
      other := ← readOther? Schema.spec members }

def StateReport.ofJson? (j : Json) : Option StateReport := do
  let members ← objectMembers? j
  some
    { running := ← lastMember? Schema.runningState.plain? "running" members
      waiting := ← lastMember? Schema.waitingState.plain? "waiting" members
      terminated := ← lastMember? Schema.terminatedState.plain? "terminated" members }

def ContainerStatus.ofJson? (j : Json) : Option ContainerStatus := do
  let members ← objectMembers? j
  some
    { name := ← readRequiredText? "name" members
      state := ← lastMember? StateReport.ofJson? "state" members
      started := ← lastMember? Json.readBool? "started" members
      ready := (← lastMember? Json.readBool? "ready" members).getD false
      resources := ← lastMember? Resources.ofJson? "resources" members
      allocatedResources := ← lastMember? (table? Json.readString?) "allocatedResources" members
      other := ← readOther? Schema.containerStatus members }

def Condition.ofJson? (j : Json) : Option Condition := do
  let members ← objectMembers? j
  some
    { type := ← readRequiredText? "type" members
      status := ← readRequiredText? "status" members
      reason := ← lastMember? Json.readString? "reason" members
      message := ← lastMember? Json.readString? "message" members
      other := ← readOther? Schema.condition members }

def PodStatus.ofJson? (j : Json) : Option PodStatus := do
  let members ← objectMembers? j
  some
    { qosClass := ← lastMember? Json.readString? "qosClass" members
      containerStatuses :=
        ← lastMember? (readList? ContainerStatus.ofJson?) "containerStatuses" members
      conditions := ← lastMember? (readList? Condition.ofJson?) "conditions" members
      other := ← readOther? Schema.status members }

def Metadata.ofJson? (j : Json) : Option Metadata := do
  let members ← objectMembers? j
  some
    { namespaceName := ← lastMember? Json.readString? "namespace" members
      name := ← lastMember? Json.readString? "name" members
      generateName := ← lastMember? Json.readString? "generateName" members
      resourceVersion := ← lastMember? Json.readString? "resourceVersion" members
      labels := ← lastMember? (table? Json.readString?) "labels" members
      annotations := ← lastMember? (table? Json.readString?) "annotations" members
      deletionTimestamp := ← lastMember? Shape.timestamp.plain? "deletionTimestamp" members
      managedFields := ← lastMember? Schema.managedFields.plain? "managedFields" members
      other := ← readOther? Schema.metadata members }

/-- Whether all members of a name are one text. -/
def saysOnly (name text : String) (members : Members) : Bool :=
  members.all fun m => m.1 != name || Json.readString? m.2 == some text

def Pod.ofJson? (j : Json) : Option Pod := do
  let members ← objectMembers? j
  if saysOnly "kind" "Pod" members && saysOnly "apiVersion" "v1" members then
    some
      { metadata := (← lastMember? Metadata.ofJson? "metadata" members).getD {}
        spec := ← lastMember? Spec.ofJson? "spec" members
        status := ← lastMember? PodStatus.ofJson? "status" members }
  else none

/-- A member, if it has a value. -/
def writeMember {α : Type} (name : String) (write : α → Json) : Option α → Members
  | some value => [(name, write value)]
  | none => []

/-- An object of the given members and those of another one. -/
def recordWith (members : Members) : Json → Json
  | .obj rest => .obj (members.map (fun m => (some m.1, m.2)) ++ rest)
  | _ => .record members

def writeTable (t : Keyed String) : Json := ofTable .text t

def Resources.toJson (r : Resources) : Json :=
  .record
    (writeMember "claims" id r.claims ++ writeMember "limits" writeTable r.limits
      ++ writeMember "requests" writeTable r.requests)

def ResizePolicy.toJson (p : ResizePolicy) : Json :=
  .record [("resourceName", .text p.resourceName), ("restartPolicy", .text p.restartPolicy)]

def Container.toJson (c : Container) : Json :=
  recordWith
    (("name", .text c.name) :: writeMember "startupProbe" id c.startupProbe
      ++ writeMember "readinessProbe" id c.readinessProbe
      ++ writeMember "resources" Resources.toJson c.resources
      ++ writeMember "resizePolicy" (fun l => .arr (l.map ResizePolicy.toJson)) c.resizePolicy)
    c.other

def Spec.toJson (s : Spec) : Json :=
  recordWith [("containers", .arr (s.containers.map Container.toJson))] s.other

def StateReport.toJson (s : StateReport) : Json :=
  .record
    (writeMember "running" id s.running ++ writeMember "waiting" id s.waiting
      ++ writeMember "terminated" id s.terminated)

def ContainerStatus.toJson (s : ContainerStatus) : Json :=
  recordWith
    ([("name", .text s.name), ("ready", .bool s.ready)]
      ++ writeMember "state" StateReport.toJson s.state ++ writeMember "started" .bool s.started
      ++ writeMember "resources" Resources.toJson s.resources
      ++ writeMember "allocatedResources" writeTable s.allocatedResources)
    s.other

def Condition.toJson (c : Condition) : Json :=
  recordWith
    ([("type", .text c.type), ("status", .text c.status)] ++ writeMember "reason" .text c.reason
      ++ writeMember "message" .text c.message)
    c.other

def PodStatus.toJson (s : PodStatus) : Json :=
  recordWith
    (writeMember "qosClass" .text s.qosClass
      ++ writeMember "containerStatuses" (fun l => .arr (l.map ContainerStatus.toJson))
        s.containerStatuses
      ++ writeMember "conditions" (fun l => .arr (l.map Condition.toJson)) s.conditions)
    s.other

def Metadata.toJson (m : Metadata) : Json :=
  recordWith
    (writeMember "namespace" .text m.namespaceName ++ writeMember "name" .text m.name
      ++ writeMember "generateName" .text m.generateName
      ++ writeMember "resourceVersion" .text m.resourceVersion
      ++ writeMember "labels" writeTable m.labels
      ++ writeMember "annotations" writeTable m.annotations
      ++ writeMember "deletionTimestamp" id m.deletionTimestamp
      ++ writeMember "managedFields" id m.managedFields)
    m.other

def Pod.toJson (p : Pod) : Json :=
  .record
    ([("apiVersion", .text "v1"), ("kind", .text "Pod"), ("metadata", p.metadata.toJson)]
      ++ writeMember "spec" Spec.toJson p.spec ++ writeMember "status" PodStatus.toJson p.status)

end PodSizing
