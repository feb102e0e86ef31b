import PodSizing.Metrics
import PodSizing.Pod.Lookup
import PodSizing.Resource

/-!
# Events of pods

What happens to a pod asks for a reconcile or is passed over. A change of nothing but the status
annotation was made by the controller itself; a change of anything else never is passed over, save
for pods that are being deleted.
-/
namespace PodSizing

inductive EventKind where
  | create
  | update
  | delete
  | generic
  deriving DecidableEq, Repr

inductive PodEvent where
  | created (pod : Pod)
  | updated (old new : Pod)
  | deleted (pod : Pod)
  | generic (pod : Pod)
  deriving DecidableEq

inductive Decision where
  | reconcile
  | skip
  deriving DecidableEq, Repr

namespace Metadata

/-- The annotations but for the status; none and no table are the same. -/
def foreignAnnotations (m : Metadata) : Option (Keyed String) :=
  match m.annotations.map (·.erase Key.status) with
  | some table => if table.isEmpty then none else some table
  | none => none

/-- Metadata without what the controller's own writes change. -/
def withoutStatus (m : Metadata) : Metadata :=
  { m with resourceVersion := none, managedFields := none, annotations := m.foreignAnnotations }

end Metadata

namespace PodEvent

def kind : PodEvent → EventKind
  | .created _ => .create
  | .updated _ _ => .update
  | .deleted _ => .delete
  | .generic _ => .generic

def pod : PodEvent → Pod
  | .created p | .updated _ p | .deleted p | .generic p => p

def onlyStatusChanged (old new : Pod) : Bool :=
  old.spec = new.spec && old.status = new.status
    && old.metadata.withoutStatus = new.metadata.withoutStatus

/-- Whether the event asks for a reconcile, and what is counted on the way. -/
def decide : PodEvent → Decision × List Event
  | .created _ => (.reconcile, [])
  | .deleted _ | .generic _ => (.skip, [])
  | .updated old new =>
    if old.resourceVersion = new.resourceVersion then (.skip, [])
    else if new.metadata.deletionTimestamp.isSome then (.skip, [])
    else if !old.hasAnnotation Key.status && !new.hasAnnotation Key.status then (.reconcile, [])
    else if onlyStatusChanged old new then (.skip, [.skippedOnlyStatusChange])
    else (.reconcile, [])

end PodEvent
end PodSizing
