import PodSizing.Pod.Interchange

/-!
# Patches

What is sent to the server to make one pod into another: the resources of containers where they
differ, and whole tables of labels or annotations where those differ. A patch names the version that
it was made for, so that it fails on any other.
-/
namespace PodSizing

/-- Resources by container, to be merged into the containers of those names. -/
structure ResizePatch where
  version : Option String
  containers : List (String × Option Resources)
  deriving DecidableEq

/-- Labels and annotations, where they are to change. -/
structure MetadataPatch where
  version : Option String
  labels : Option (Option (Keyed String))
  annotations : Option (Option (Keyed String))
  deriving DecidableEq

/-- The version that a patch is for, as metadata. -/
def versionMembers (version : Option String) : Members :=
  writeMember "resourceVersion" .text version

def writeOptional {α : Type} (write : α → Json) : Option α → Json
  | some a => write a
  | none => .null

namespace ResizePatch

/-- Whether a container's resources are not those of the first of its name before. -/
def isResized (before : Pod) (c : Container) : Bool :=
  (before.containers.find? fun b => b.name = c.name).map (·.resources) ≠ some c.resources

/-- The patch between two pods, if it changes anything. -/
def between? (before after : Pod) (version : Option String) : Option ResizePatch :=
  match after.containers.filter (isResized before) with
  | [] => none
  | resized => some ⟨version, resized.map fun c => (c.name, c.resources)⟩

def toJson (p : ResizePatch) : Json :=
  .record
    [("metadata", .record (versionMembers p.version)),
     ("spec", .record [("containers", .arr (p.containers.map fun c =>
        .record [("name", .text c.1), ("resources", writeOptional Resources.toJson c.2)]))])]

end ResizePatch

namespace MetadataPatch

/-- What a table becomes, if it changes. -/
def changed? (before after : Option (Keyed String)) : Option (Option (Keyed String)) :=
  if before = after then none else some after

/-- The patch between two pods, if it changes anything. -/
def between? (before after : Pod) (version : Option String) : Option MetadataPatch :=
  let labels := changed? before.metadata.labels after.metadata.labels
  let annotations := changed? before.metadata.annotations after.metadata.annotations
  if labels.isNone && annotations.isNone then none else some ⟨version, labels, annotations⟩

def toJson (p : MetadataPatch) : Json :=
  .record
    [("metadata", .record
      (versionMembers p.version ++ writeMember "labels" (writeOptional writeTable) p.labels
        ++ writeMember "annotations" (writeOptional writeTable) p.annotations))]

end MetadataPatch
end PodSizing
