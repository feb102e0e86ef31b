import PodSizing.Proofs.Mutation.Resources
import PodSizing.Proofs.Status.Again

/-!
# The events of the controller's own writes

A status that was written comes back as a change of nothing but the status, whatever version and
managed fields the server gave it, and is passed over. What a container is given is part of the
specification, so a resize that comes back asks for a reconcile, whatever else has changed with it.
-/
namespace PodSizing
open Time (Instant)

namespace Pod

/-- The pod without what every write changes. -/
def unstamped (p : Pod) : Pod :=
  { p with metadata := { p.metadata with resourceVersion := none, managedFields := none } }

/-- What each container is called and is given, and all that is said of those of other kinds. -/
def allotments (p : Pod) : List (String × Option Resources) × List (Option Json) :=
  (p.containers.map fun c => (c.name, c.resources),
    ["initContainers", "ephemeralContainers"].map fun kind =>
      p.spec.bind fun s => s.other.field? kind)

theorem allotments_congr {p q : Pod} (h : p.spec = q.spec) : p.allotments = q.allotments := by
  simp only [allotments, containers, h]

theorem hasAnnotation_of_unstamped {p q : Pod} (h : p.unstamped = q.unstamped) (key : String) :
    p.hasAnnotation key = q.hasAnnotation key :=
  congrArg (fun pod => pod.hasAnnotation key) h

end Pod

theorem SameButStatus.of_unstamped {p q : Pod} (h : p.unstamped = q.unstamped) :
    SameButStatus p q where
  spec := congrArg (·.spec) h
  status := congrArg (·.status) h
  namespaceName := congrArg (·.metadata.namespaceName) h
  name := congrArg (·.metadata.name) h
  generateName := congrArg (·.metadata.generateName) h
  labels := congrArg (·.metadata.labels) h
  deletionTimestamp := congrArg (·.metadata.deletionTimestamp) h
  other := congrArg (·.metadata.other) h
  annotations key _ := congrArg (·.annotation? key) h

theorem StatusUpdate.apply_bears_status (u : StatusUpdate) (t : Instant) (p : Pod) :
    (u.apply t p).pod.hasAnnotation Key.status = true := by
  rw [apply_eq]
  split
  · next hagrees =>
    obtain ⟨r, hr, -⟩ := (Option.any_eq_true _ _).1 hagrees
    obtain ⟨text, htext, -⟩ := Option.bind_eq_some_iff.1 hr
    exact Option.isSome_iff_exists.2 ⟨text, htext⟩
  · simp [Pod.hasAnnotation]

namespace PodEvent

/-- The event of a pod that a status update has written, whether or not it changed anything and however
the write was stamped, is passed over. The event of a pod that gives some container other resources
asks for a reconcile, unless the pod is going or the version was seen before. -/
theorem statusWrite_skipped_resize_reconciled (p : Pod) :
    (∀ (u : StatusUpdate) (now : Instant) (edit : Edit) (q : Pod), u.mutator now p = .ok edit →
        q.unstamped = edit.pod.unstamped → (updated p q).decide.1 = .skip) ∧
      ∀ r : Pod, r.allotments ≠ p.allotments → r.metadata.deletionTimestamp = none →
        r.resourceVersion ≠ p.resourceVersion → (updated p r).decide.1 = .reconcile := by
  constructor
  · intro u now edit q hedit hstamps
    cases hedit
    have hsame : SameButStatus p q := (u.apply_same now p).trans (.of_unstamped hstamps.symm)
    have hstatus : q.hasAnnotation Key.status = true :=
      (Pod.hasAnnotation_of_unstamped hstamps Key.status).trans (u.apply_bears_status now p)
    exact decide_updated_skip_iff.2 (.inr (.inr ⟨hsame, q, by simp, hstatus⟩))
  · intro r hresources hstays hversion
    rw [decide_eq_reconcile_iff]
    intro hskip
    rcases decide_updated_skip hskip with hknown | hgoing | hsame
    · exact hversion hknown.symm
    · simp [hstays] at hgoing
    · exact hresources (Pod.allotments_congr hsame.spec.symm)

/-- A pod of one container and no annotations gets its first status, and then a limit. -/
theorem firstStatus_skipped_limit_reconciled :
    let p : Pod :=
      { metadata := { resourceVersion := some "1" }, spec := some { containers := [{ name := "app" }] } }
    let u : StatusUpdate := ⟨"commanded", {}, .unknownCommanded, [.cpu]⟩
    let written : Pod := (u.apply ⟨0⟩ p).pod
    let q : Pod :=
      { written with
        metadata :=
          { written.metadata with
            resourceVersion := some "2", managedFields := some (.arr []) } }
    let r := q.withResources "app" [⟨.cpu, "1m", "1m"⟩]
    (u.apply ⟨0⟩ p).changed = true ∧ (updated p q).decide.1 = .skip ∧
      (updated p r).decide.1 = .reconcile := by
  intro p u written q r
  have hboth := statusWrite_skipped_resize_reconciled p
  refine ⟨rfl, hboth.1 u ⟨0⟩ (u.apply ⟨0⟩ p) q rfl rfl, hboth.2 r ?_ rfl ?_⟩
  · decide
  · decide

end PodEvent
end PodSizing
