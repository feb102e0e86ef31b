import PodSizing.Proofs.Mutation.Footprint

/-!
# Laws of mutators

Resources are set in one container and nothing else is touched; in which order and how often makes no
difference, nor whether a status is written before or after. Where the container is missing, the mutators that
follow are not carried out.
-/
namespace PodSizing
open Time (Instant)

/-- The second pod has the quantities of the updates in the first container of the name, and else it is the
first one, with its other containers in their places. -/
structure Pod.SetsFirst (name : String) (updates : List ResourceUpdate) (p q : Pod) : Prop where
  reads : ∀ u ∈ updates, ∀ side,
    (q.container? name).bind (·.quantity? side u.resource.text) = some (u.quantity side)
  place : ∃ before c d after, p.containers = before ++ c :: after ∧
    q.containers = before ++ d :: after ∧ c.name = name ∧ (∀ b ∈ before, b.name ≠ name) ∧
    c.SetTo updates d
  frame : q = { p with spec := p.spec.map fun s => { s with containers := q.containers } }

/-- The second pod is the first one but for the entry of the status among its annotations. -/
structure Pod.StatusOnly (p q : Pod) : Prop where
  annotations : ∀ key, key ≠ Key.status → q.annotation? key = p.annotation? key
  frame : q = { p with metadata := { p.metadata with annotations := q.metadata.annotations } }

namespace Pod
variable {name : String} {updates : List ResourceUpdate}

theorem setsFirst_withResources {p : Pod}
    (h : updates.Pairwise fun u v => u.resource.text ≠ v.resource.text)
    (hpresent : p.isContainerInSpec name = true) :
    p.SetsFirst name updates (p.withResources name updates) := by
  obtain ⟨c, hc⟩ := Option.isSome_iff_exists.1 hpresent
  obtain ⟨hname, before, after, hcontainers, hbefore⟩ := List.find?_eq_some_iff_append.1 hc
  have hset := c.setTo_withUpdates h
  have hbefore : ∀ b ∈ before, decide (b.name = name) = false := fun b hb => by
    simpa using hbefore b hb
  refine ⟨fun u hu side => ?_,
    ⟨before, c, c.withUpdates updates, after, hcontainers, ?_, ?_, ?_, hset⟩, ?_⟩
  · rw [container?_withResources_of_some hc]
    exact hset.quantities u hu side
  · obtain ⟨metadata, spec, status⟩ := p
    cases spec with
    | none => cases hc
    | some s =>
      have hcontainers : s.containers = before ++ c :: after := hcontainers
      show updateFirst _ _ s.containers = _
      rw [hcontainers]
      exact updateFirst_append hbefore hname
  · exact of_decide_eq_true hname
  · exact fun b hb => of_decide_eq_false (hbefore b hb)
  · obtain ⟨metadata, spec, status⟩ := p
    cases spec <;> rfl

/-- In which order different resources are set makes no difference to the pod. -/
theorem withResources_perm {permuted : List ResourceUpdate}
    (h : updates.Pairwise fun u v => u.resource.text ≠ v.resource.text)
    (hperm : permuted.Perm updates) (p : Pod) :
    p.withResources name permuted = p.withResources name updates := by
  have hsame : (fun c : Container => c.withUpdates permuted) = (·.withUpdates updates) :=
    funext fun c => c.withUpdates_perm h hperm
  rw [withResources, withResources, hsame]

theorem withResources_again (h : updates.Pairwise fun u v => u.resource.text ≠ v.resource.text)
    (p : Pod) : (p.withResources name updates).withResources name updates =
      p.withResources name updates := by
  have hsame : (fun c : Container => c.withUpdates (updates ++ updates)) = (·.withUpdates updates) :=
    funext fun c => by
      rw [← c.withUpdates_again h]
      exact List.foldl_append
  rw [withResources_withResources, withResources, withResources, hsame]

end Pod

theorem StatusUpdate.statusOnly (u : StatusUpdate) (now : Instant) (p : Pod) :
    p.StatusOnly (u.apply now p).pod := by
  rcases u.apply_pod now p with hpod | ⟨value, hpod⟩
  · rw [hpod]
    exact ⟨fun _ _ => rfl, rfl⟩
  · rw [hpod]
    exact ⟨fun key hkey => (p.annotation?_afterSet Key.status value key).trans (if_neg hkey), rfl⟩

/-- What an update says does not depend on the resources, and it leaves them as they are. -/
theorem StatusUpdate.apply_withResources (u : StatusUpdate) (now : Instant) (p : Pod) (name : String)
    (updates : List ResourceUpdate) : u.apply now (p.withResources name updates) =
      { u.apply now p with pod := (u.apply now p).pod.withResources name updates } := by
  have hrecord : (p.withResources name updates).statusRecord? = p.statusRecord? := rfl
  have hhistory : (p.withResources name updates).history = p.history := rfl
  rw [apply_eq, apply_eq, hrecord, hhistory]
  split <;> rfl

namespace Mutator
variable {name : String} {updates : List ResourceUpdate}

theorem resources_eq (name : String) (updates : List ResourceUpdate) (now : Instant) (p : Pod) :
    resources name updates now p =
      if updates = [] ∨ p.isContainerInSpec name = true then
        .ok ⟨true, p.withResources name updates, []⟩
      else .error (.containerNotPresent name) := by
  cases hpresent : p.isContainerInSpec name with
  | true => simp [resources_of_present hpresent]
  | false =>
    cases updates with
    | nil =>
      rw [p.withResources_nil]
      rfl
    | cons u rest =>
      simp [resources, List.foldlM_cons, setResource, Pod.setContainerResource, hpresent]
      rfl

theorem applyAll_stops {earlier : List Mutator} {m : Mutator} {now : Instant} {p : Pod} {edit : Edit}
    {e : ShapeError} (hearlier : applyAll earlier now p = .ok edit) (hm : m now edit.pod = .error e)
    (later : List Mutator) : applyAll (earlier ++ m :: later) now p = .error e := by
  have hstep : andThen now edit m = .error e := by rw [andThen, hm, Except.map]
  rw [applyAll, List.foldlM_append, ← applyAll, hearlier, Except.ok_bind, List.foldlM_cons, hstep]
  rfl

/-- A status may be written before resources are set or after. -/
theorem applyAll_status_comm (u : StatusUpdate) (name : String) (updates : List ResourceUpdate)
    (now : Instant) (p : Pod) : applyAll [u.mutator, resources name updates] now p =
      applyAll [resources name updates, u.mutator] now p := by
  have hcontainers : (u.apply now p).pod.isContainerInSpec name = p.isContainerInSpec name := by
    simp only [Pod.isContainerInSpec, Pod.container?, Pod.containers, (u.apply_same now p).spec]
  have hbefore := resources_eq name updates now p
  have hafter := resources_eq name updates now (u.apply now p).pod
  rw [hcontainers] at hafter
  by_cases hset : updates = [] ∨ p.isContainerInSpec name = true
  · rw [if_pos hset] at hbefore hafter
    simp [applyAll, andThen, StatusUpdate.mutator, hbefore, hafter, Except.map, Except.ok_bind,
      u.apply_withResources]
  · rw [if_neg hset] at hbefore hafter
    simp only [applyAll, List.foldlM_cons, List.foldlM_nil, andThen, StatusUpdate.mutator, hbefore,
      hafter, Except.map, Except.ok_bind]
    rfl

/-- Where the container is in the spec, updates of different resources are what differs in the pod that the
mutator gives, in whatever order they are listed, and made once more they change nothing. Where earlier
mutators have left no such container, the mutator fails for it, whatever follows. A status update changes its
own entry, and comes to the same before the resources as after them. -/
theorem resources_laws (h : updates.Pairwise fun u v => u.resource ≠ v.resource) (name : String)
    (p : Pod) :
    (p.isContainerInSpec name = true → ∃ q, p.SetsFirst name updates q ∧ (updates = [] → q = p) ∧
        ∀ now, resources name updates now q = .ok ⟨true, q, []⟩ ∧
          ∀ permuted, permuted.Perm updates → resources name permuted now p = .ok ⟨true, q, []⟩) ∧
      (updates ≠ [] → ∀ earlier now edit, applyAll earlier now p = .ok edit →
        edit.pod.isContainerInSpec name = false →
          ∀ later, applyAll (earlier ++ resources name updates :: later) now p =
            .error (.containerNotPresent name)) ∧
      ∀ (u : StatusUpdate) (now : Instant),
        (∃ edit, u.mutator now p = .ok edit ∧ p.StatusOnly edit.pod) ∧
          applyAll [u.mutator, resources name updates] now p =
            applyAll [resources name updates, u.mutator] now p := by
  have htext : updates.Pairwise fun u v => u.resource.text ≠ v.resource.text :=
    h.imp fun hne heq => hne (ResourceName.text_injective heq)
  refine ⟨fun hpresent => ⟨p.withResources name updates, Pod.setsFirst_withResources htext hpresent,
      fun hnil => ?_, fun now => ⟨?_, fun permuted hperm => ?_⟩⟩,
    fun hne earlier now edit hearlier hmissing later => ?_,
    fun u now => ⟨⟨_, rfl, u.statusOnly now p⟩, applyAll_status_comm u name updates now p⟩⟩
  · rw [hnil, Pod.withResources_nil]
  · have hstill : (p.withResources name updates).isContainerInSpec name = true := by
      simpa [Pod.isContainerInSpec, Pod.container?_withResources] using hpresent
    rw [resources_of_present hstill, Pod.withResources_again htext]
  · rw [resources_of_present hpresent, Pod.withResources_perm htext hperm]
  · refine applyAll_stops hearlier ?_ later
    rw [resources_eq, if_neg (by simp [hne, hmissing])]

def twinPod : Pod where
  spec := some
    { containers :=
        [{ name := "first" },
         { name := "twin"
           resources := some
            { requests := some (.ofList [("cpu", "3m"), ("disk", "1Gi")])
              claims := some (.arr [.obj []]) } },
         { name := "twin" }] }

/-- Both resources of the first of the two are set, listed one way or the other, and no updates change
nothing; in a pod that has lost its containers nothing is set, and nothing is carried out afterwards. -/
theorem twinPod_laws :
    let cpu : ResourceUpdate := ⟨.cpu, "1m", "2m"⟩
    let memory : ResourceUpdate := ⟨.memory, "1Gi", "1Gi"⟩
    let lose : Mutator := fun _ p => .ok { changed := true, pod := { p with spec := none } }
    let keep : Mutator := fun _ p => .ok { changed := true, pod := p }
    [cpu, memory].Pairwise (fun u v => u.resource ≠ v.resource) ∧
      (∃ q, twinPod.SetsFirst "twin" [cpu, memory] q ∧
        resources "twin" [cpu, memory] ⟨0⟩ twinPod = .ok ⟨true, q, []⟩ ∧
        resources "twin" [memory, cpu] ⟨0⟩ twinPod = .ok ⟨true, q, []⟩) ∧
      resources "twin" [] ⟨0⟩ twinPod = .ok ⟨true, twinPod, []⟩ ∧
      applyAll [lose, resources "twin" [cpu, memory], keep] ⟨0⟩ twinPod =
        .error (.containerNotPresent "twin") := by
  intro cpu memory lose keep
  have hdiffer : [cpu, memory].Pairwise fun u v => u.resource ≠ v.resource := by decide
  obtain ⟨hset, hmissing, -⟩ := resources_laws hdiffer "twin" twinPod
  have hpresent : twinPod.isContainerInSpec "twin" = true := by decide +kernel
  obtain ⟨q, hq, -, hmade⟩ := hset hpresent
  obtain ⟨same, -, hsame, hnone⟩ := (resources_laws .nil "twin" twinPod).1 hpresent
  exact ⟨hdiffer, ⟨q, hq, (hmade ⟨0⟩).2 _ (.refl _), (hmade ⟨0⟩).2 _ (.swap _ _ _)⟩,
    hsame rfl ▸ (hnone ⟨0⟩).2 [] .nil,
    hmissing (by simp) [lose] ⟨0⟩ ⟨true, { twinPod with spec := none }, []⟩ rfl rfl [keep]⟩

end Mutator
end PodSizing
