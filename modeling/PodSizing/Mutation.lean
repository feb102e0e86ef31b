import PodSizing.Metrics
import PodSizing.ScaleConfig
import PodSizing.Time.Calendar

/-!
# Mutations of pods

A mutator derives a changed pod from the one that it is given, and says whether the change must be
written. It may be applied again to a newer pod, so it may keep nothing from an earlier one. What
an application lets metrics see counts once the change is written.
-/
namespace PodSizing
open Time (Instant)

structure Edit where
  changed : Bool
  pod : Pod
  observations : List Observation := []
  deriving DecidableEq

abbrev Mutator := Instant → Pod → Except ShapeError Edit

namespace Mutator

/-- Carries out one mutator after an edit. -/
def andThen (now : Instant) (before : Edit) (mutator : Mutator) : Except ShapeError Edit :=
  (mutator now before.pod).map fun edit =>
    { edit with
      changed := before.changed || edit.changed
      observations := before.observations ++ edit.observations }

/-- Applies mutators in order to a copy of a pod, up to the first that fails. -/
def applyAll (mutators : List Mutator) (now : Instant) (p : Pod) : Except ShapeError Edit :=
  mutators.foldlM (andThen now) ⟨false, p, []⟩

def setResource (container : String) (p : Pod) (u : ResourceUpdate) : Except ShapeError Pod :=
  p.setContainerResource container u.resource.text u.requests u.limits

/-- Sets requests and limits of a container's resources. -/
def resources (container : String) (updates : List ResourceUpdate) : Mutator := fun _ p =>
  (updates.foldlM (setResource container) p).map fun p => { changed := true, pod := p }

end Mutator
end PodSizing
