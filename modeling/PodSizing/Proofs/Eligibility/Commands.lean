import PodSizing.Proofs.Reconcile.Command

/-!
# Commands keep a pod eligible

The quantities that a command writes are the ones that were read, without their outer blanks, and go
into the container that they were checked for. So the pod reads as the same configuration after any
number of commands, and passes the same checks.
-/
namespace PodSizing
open Reconcile
open Time (Instant)

/-- The resources of a direction, and then a status, at some time. -/
structure Resizing where
  direction : Direction
  status : StatusUpdate
  now : Instant

namespace Resizing

def updates (configs : ScaleConfigs) (r : Resizing) : List ResourceUpdate :=
  match r.direction with
  | .up => configs.startupUpdates
  | .down => configs.postStartupUpdates

def apply (configs : ScaleConfigs) (name : String) (p : Pod) (r : Resizing) :
    Except ShapeError Pod :=
  (Mutator.applyAll [.resources name (r.updates configs), r.status.mutator] r.now p).map (·.pod)

theorem updates_eq (configs : ScaleConfigs) (r : Resizing) :
    r.updates configs = configs.updates r.direction := by
  unfold updates
  cases r.direction <;> rfl

/-- A command succeeds for a pod that may be managed, which is examined with the same result again. -/
theorem apply_examine {config : ReconcileConfig} {configs : ScaleConfigs} {name : String} {p : Pod}
    (h : examine config p = .ok (configs, name)) (r : Resizing) :
    ∃ q, r.apply configs name p = .ok q ∧ examine config q = .ok (configs, name) := by
  obtain ⟨c, hcontainer, -⟩ := Pod.validate_container (examine_eq_ok.1 h).2.2
  have hpresent : p.isContainerInSpec name = true := by simp [Pod.isContainerInSpec, hcontainer]
  have hresized := examine_withResources h r.direction
  have hsame := r.status.apply_same r.now (p.withResources name (configs.updates r.direction))
  refine ⟨(r.status.apply r.now (p.withResources name (configs.updates r.direction))).pod, ?_, ?_⟩
  · rw [apply, updates_eq, Mutator.applyAll_resources hpresent]
    rfl
  · rw [← examine_congr (.of_sameButStatus hsame)]
    exact hresized

end Resizing

/-- Commands in a row, in either direction and with any statuses, succeed for a pod that may be managed,
and leave a pod with the same configuration that still may be. -/
theorem commands_keep_eligible {p : Pod} {enabled : List ResourceName} {configs : ScaleConfigs}
    {name : String} (hconfigs : ScaleConfigs.ofPod p enabled = .ok configs)
    (hname : configs.targetName = .ok name) (hvalid : p.validate name configs = .ok ())
    (commands : List Resizing) :
    ∃ q, commands.foldlM (Resizing.apply configs name) p = .ok q ∧
      ScaleConfigs.ofPod q enabled = .ok configs ∧ q.validate name configs = .ok () := by
  induction commands generalizing p with
  | nil => exact ⟨p, rfl, hconfigs, hvalid⟩
  | cons r rest ih =>
    have hexamine : examine { enabled } p = .ok (configs, name) :=
      examine_eq_ok.2 ⟨hconfigs, hname, hvalid⟩
    obtain ⟨next, hnext, hagain⟩ := r.apply_examine hexamine
    obtain ⟨hconfigs', -, hvalid'⟩ := examine_eq_ok.1 hagain
    rw [List.foldlM_cons, hnext]
    exact ih hconfigs' hvalid'

/-- A pod of which the annotations have blanks around the quantities is commanded down and up again. -/
theorem blanks_keep_eligible :
    let u : StatusUpdate := ⟨"commanded", {}, .unknownCommanded, [.cpu]⟩
    ∃ q, [Resizing.mk .down u ⟨0⟩, ⟨.up, u, ⟨1000⟩⟩].foldlM
        (Resizing.apply startedTarget.configs "app") (startedPod " 3m " "1m") = .ok q ∧
      ScaleConfigs.ofPod q [.cpu] = .ok startedTarget.configs ∧
      q.validate "app" startedTarget.configs = .ok () := by
  intro u
  exact commands_keep_eligible (Except.toOption_eq_some.1 (by decide +kernel))
    (Except.toOption_eq_some.1 (by decide +kernel)) (Except.toOption_eq_some.1 (by decide +kernel)) _

end PodSizing
