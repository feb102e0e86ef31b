import PodSizing.Proofs.Reconcile.Command

/-!
# Commands are recognised

The mutator of a command writes texts, and the classification compares amounts. Whatever way a
quantity is spelled, the amounts of a container after a command are those of the configuration that
the command was made from.
-/
namespace PodSizing
open Reconcile
open Time (Instant)

/-- What is found applied to a container. The classification of the pod says so too, wherever the
state of a resize can be told. -/
structure Pod.FindsResources (p : Pod) (name : String) (configs : ScaleConfigs)
    (state : ResourcesState) : Prop where
  container : ∃ c, p.container? name = some c ∧ c.resourcesState configs = state
  classified : ∀ awaited, (p.classify name configs awaited).map (·.resources) =
    (p.resizeState awaited).map fun _ => state

theorem Pod.findsResources_of_container {p : Pod} {name : String} {c : Container}
    (hfound : p.container? name = some c) (configs : ScaleConfigs) :
    p.FindsResources name configs (c.resourcesState configs) where
  container := ⟨c, hfound, rfl⟩
  classified := by
    intro awaited
    have hcontainer : p.container name = .ok c := by rw [Pod.container, hfound]
    rw [Pod.classify, hcontainer]
    cases p.resizeState awaited <;> rfl

/-- What a command of a direction writes is found applied. -/
theorem ScaleConfigs.Sound.finds_commanded {configs : ScaleConfigs} (h : configs.Sound) {p : Pod}
    {name : String} (hpresent : p.isContainerInSpec name = true) (direction : Direction) :
    (p.withResources name (configs.updates direction)).FindsResources name configs
      (commandedState configs direction) := by
  obtain ⟨c, hfound⟩ := Option.isSome_iff_exists.1 hpresent
  have hafter := Pod.container?_withResources_of_some hfound (configs.updates direction)
  rw [← resourcesState_commanded h c direction]
  exact Pod.findsResources_of_container hafter configs

/-- What a command writes is found applied to the container, whether the pod that it is made on is
the one that the configuration was read from or a newer one. After a command down the container is
taken to be at startup just where every managed resource has one amount before and after startup,
and is never unknown. -/
theorem command_recognised {p q : Pod} {enabled : List ResourceName} {configs : ScaleConfigs}
    {name : String} (hconfigs : ScaleConfigs.ofPod p enabled = .ok configs)
    (hpresent : q.isContainerInSpec name = true) (now : Instant) :
    (∃ edit, Mutator.resources name configs.startupUpdates now q = .ok edit ∧
      edit.pod.FindsResources name configs .startup) ∧
    ∃ edit, Mutator.resources name configs.postStartupUpdates now q = .ok edit ∧
      edit.pod.FindsResources name configs
        (if configs.enabled.all (·.ties) then .startup else .postStartup) := by
  have hsound := ScaleConfigs.ofPod_sound hconfigs
  constructor
  · exact ⟨_, Mutator.resources_of_present hpresent configs.startupUpdates now,
      hsound.finds_commanded hpresent .up⟩
  · exact ⟨_, Mutator.resources_of_present hpresent configs.postStartupUpdates now,
      hsound.finds_commanded hpresent .down⟩

def spelledOut : ScaleConfigs where
  cpu := ⟨.cpu, some "app", some ⟨⟨"3m", ⟨3⟩⟩, ⟨"0.1e-2", ⟨1⟩⟩, ⟨"0.1e-2", ⟨1⟩⟩⟩, []⟩
  memory := ⟨.memory, some "app", none, []⟩

/-- The pod that the commands are made on has other quantities and another configuration by then. -/
theorem spelledOut_recognised :
    ScaleConfigs.ofPod (startedPod " 3m " " 0.1e-2") [.cpu] = .ok spelledOut ∧
    (∃ edit, Mutator.resources "app" spelledOut.startupUpdates ⟨0⟩ (startedPod "5m" "2m") =
        .ok edit ∧ edit.pod.FindsResources "app" spelledOut .startup) ∧
      ∃ edit, Mutator.resources "app" spelledOut.postStartupUpdates ⟨0⟩ (startedPod "5m" "2m") =
        .ok edit ∧ edit.pod.FindsResources "app" spelledOut .postStartup := by
  have hconfigs : ScaleConfigs.ofPod (startedPod " 3m " " 0.1e-2") [.cpu] = .ok spelledOut :=
    Except.toOption_eq_some.1 (by decide +kernel)
  exact ⟨hconfigs, command_recognised hconfigs (by decide +kernel) ⟨0⟩⟩

end PodSizing
