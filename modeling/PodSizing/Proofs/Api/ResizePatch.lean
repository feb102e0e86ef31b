import PodSizing.Proofs.Api.Merge

/-!
# The patch of a command

The patch between a pod and the pod with other resources of one container is for that container alone.
Merged into the pod that it was made for, it gives the pod with those resources, and where there is no
patch to be made the pod has had them before.
-/
namespace PodSizing

section Patch
variable {base edited : Pod} {name : String} {updates : List ResourceUpdate}
  {version : Option String} {r : ResizePatch}

theorem ResizePatch.between?_ne_nil (h : ResizePatch.between? base edited version = some r) :
    r.containers ≠ [] := by
  unfold ResizePatch.between? at h
  split at h
  · cases h
  · next hne =>
    cases h
    simpa using hne

theorem lookup_isSome_of_mem {α : Type} {l : List (String × α)} {e : String × α} (h : e ∈ l) :
    (l.lookup e.1).isSome = true := by
  induction l with
  | nil => cases h
  | cons d rest ih =>
    rw [Keyed.lookup_cons_ite]
    split
    · rfl
    · next hne =>
      rcases List.mem_cons.1 h with rfl | h
      · exact absurd rfl hne
      · exact ih h

theorem ResizePatch.lookup_command (h : ResizePatch.between? base edited version = some r)
    (hcontainers : edited.containers = (base.withResources name updates).containers)
    (hnames : (base.containers.map (·.name)).Nodup) (n : String) :
    r.containers.lookup n = ((base.withResources name updates).container? n).bind fun d =>
      if isResized base d then some d.resources else none := by
  have hnames' : (edited.containers.map (·.name)).Nodup := by
    rw [hcontainers, base.names_withResources]
    exact hnames
  rw [ResizePatch.lookup_between h hnames', Pod.container?, hcontainers]
  rfl

theorem ResizePatch.lookup_command_of_ne (h : ResizePatch.between? base edited version = some r)
    (hcontainers : edited.containers = (base.withResources name updates).containers)
    (hnames : (base.containers.map (·.name)).Nodup) {n : String} (hn : n ≠ name) :
    r.containers.lookup n = none := by
  rw [ResizePatch.lookup_command h hcontainers hnames, Pod.container?_withResources_of_ne _ hn]
  cases hc : base.container? n with
  | none => rfl
  | some c =>
    have hresized := ResizePatch.isResized_iff hc (Pod.container?_name hc)
    exact if_neg fun hne => hresized.1 hne rfl

/-- The patch is for one container, and says what the updates make of its resources. -/
theorem ResizePatch.between?_command (h : ResizePatch.between? base edited version = some r)
    (hcontainers : edited.containers = (base.withResources name updates).containers)
    (hnames : (base.containers.map (·.name)).Nodup) :
    ∃ c, base.container? name = some c ∧
      r.containers.lookup name = some (c.withUpdates updates).resources := by
  -- the patch is for some container, so it is for this one
  obtain ⟨e, he⟩ := List.exists_mem_of_ne_nil _ (ResizePatch.between?_ne_nil h)
  have hsome := lookup_isSome_of_mem he
  have hname : e.1 = name := by
    by_cases hn : e.1 = name
    · exact hn
    · rw [ResizePatch.lookup_command_of_ne h hcontainers hnames hn] at hsome
      cases hsome
  have hlookup := ResizePatch.lookup_command h hcontainers hnames name
  rw [Pod.container?_withResources] at hlookup
  rw [hname, hlookup] at hsome
  cases hc : base.container? name with
  | none => simp [hc] at hsome
  | some c =>
    rw [hc] at hsome hlookup
    refine ⟨c, rfl, ?_⟩
    simp only [Option.map_some, Option.bind_some] at hsome hlookup
    rw [hlookup]
    split at hsome
    · next hresized => rw [if_pos hresized]
    · cases hsome

end Patch

namespace Container

theorem mergeResources_withUpdates {updates : List ResourceUpdate} (h : updates ≠ [])
    (c : Container) : mergeResources c.resources (c.withUpdates updates).resources =
      (c.withUpdates updates).resources := by
  obtain ⟨requests, limits, hresources⟩ := c.resources_withUpdates h
  have hrequests : ((c.resources.bind (·.requests)).getD .empty).overlay requests = requests := by
    refine Keyed.overlay_eq fun k hk => ?_
    have hhad : (c.quantity? .request k).isSome = true := by
      simpa [quantity?, request?, Option.bind_assoc] using hk
    simpa [quantity?, request?, hresources, Option.bind_assoc] using
      quantity?_withUpdates_isSome updates hhad
  have hlimits : ((c.resources.bind (·.limits)).getD .empty).overlay limits = limits := by
    refine Keyed.overlay_eq fun k hk => ?_
    have hhad : (c.quantity? .limit k).isSome = true := by
      simpa [quantity?, limit?, Option.bind_assoc] using hk
    simpa [quantity?, limit?, hresources, Option.bind_assoc] using
      quantity?_withUpdates_isSome updates hhad
  have hclaims : ((c.resources.bind (·.claims)).orElse fun _ => c.resources.bind (·.claims)) =
      c.resources.bind (·.claims) := by
    cases c.resources.bind (·.claims) <;> rfl
  simp only [hresources, mergeResources, mergeTable, hrequests, hlimits, hclaims]

/-- A container that a patch gives the resources of its updates becomes the updated container. -/
theorem mergeFrom_withUpdates {updates : List ResourceUpdate} (h : updates ≠ []) {c : Container}
    {patches : List (String × Option Resources)}
    (hpatch : patches.lookup c.name = some (c.withUpdates updates).resources) :
    c.mergeFrom patches = c.withUpdates updates := by
  rw [mergeFrom, hpatch, c.withUpdates_frame]
  simp only [mergeResources_withUpdates h]

end Container

theorem map_mergeFrom {patches : List (String × Option Resources)} {name : String}
    {f : Container → Container} {l : List Container} (hnames : (l.map (·.name)).Nodup)
    (hothers : ∀ n, n ≠ name → patches.lookup n = none)
    (htarget : ∀ c, l.find? (·.name = name) = some c → c.mergeFrom patches = f c) :
    l.map (·.mergeFrom patches) = updateFirst (·.name = name) f l := by
  have hkeep (c : Container) (hc : c.name ≠ name) : c.mergeFrom patches = c := by
    simp [Container.mergeFrom, hothers c.name hc]
  induction l with
  | nil => rfl
  | cons c rest ih =>
    rw [List.map_cons, List.nodup_cons] at hnames
    by_cases hc : c.name = name
    · -- no later container has the name
      have hrest : rest.map (·.mergeFrom patches) = rest := by
        refine (List.map_congr_left fun d hd => hkeep d fun hdn => hnames.1 ?_).trans rest.map_id
        exact List.mem_map.2 ⟨d, hd, by rw [hdn, hc]⟩
      simp [updateFirst, hc, htarget c (by simp [hc]), hrest]
    · have hlater := ih hnames.2 fun d hd => htarget d (by simp [hc, hd])
      simp [updateFirst, hc, hkeep c hc, hlater]

theorem Pod.mapContainers_congr {p : Pod} {f g : List Container → List Container}
    (h : f p.containers = g p.containers) : p.mapContainers f = p.mapContainers g := by
  obtain ⟨metadata, spec, status⟩ := p
  cases spec with
  | none => rfl
  | some s => simpa [mapContainers, containers] using h

section Merged
variable {base edited merged : Pod} {name : String} {updates : List ResourceUpdate}
  {version : Option String} {r : ResizePatch}

theorem ResizePatch.updates_ne_nil (h : ResizePatch.between? base edited version = some r)
    (hcontainers : edited.containers = (base.withResources name updates).containers)
    (hnames : (base.containers.map (·.name)).Nodup) : updates ≠ [] := by
  rintro rfl
  obtain ⟨c, hc, hlookup⟩ := ResizePatch.between?_command h hcontainers hnames
  have hsame := ResizePatch.isResized_iff hc (Pod.container?_name hc)
  rw [ResizePatch.lookup_command h hcontainers hnames, base.withResources_nil, hc] at hlookup
  simp [hsame] at hlookup

/-- Merged into the pod that it was made for, the patch of a command gives the pod with the resources of
the command. -/
theorem ResizePatch.merge?_command (h : ResizePatch.between? base edited version = some r)
    (hcontainers : edited.containers = (base.withResources name updates).containers)
    (hnames : (base.containers.map (·.name)).Nodup) (hmerge : r.merge? base = some merged) :
    merged = base.withResources name updates := by
  have hne := ResizePatch.updates_ne_nil h hcontainers hnames
  obtain ⟨c, hc, hlookup⟩ := ResizePatch.between?_command h hcontainers hnames
  rw [ResizePatch.merge?_eq hmerge]
  refine Pod.mapContainers_congr (map_mergeFrom hnames
    (fun n hn => ResizePatch.lookup_command_of_ne h hcontainers hnames hn) fun d hd => ?_)
  have hdc : d = c := Option.some.inj (hd.symm.trans hc)
  rw [hdc]
  exact Container.mergeFrom_withUpdates hne (Pod.container?_name hc ▸ hlookup)

/-- Where a command needs no patch of resources, the pod has them already. -/
theorem ResizePatch.withResources_of_between?_none
    (h : ResizePatch.between? base edited version = none)
    (hcontainers : edited.containers = (base.withResources name updates).containers) :
    base.withResources name updates = base := by
  have hsame : ∀ d ∈ edited.containers, isResized base d = false := by
    unfold ResizePatch.between? at h
    split at h
    · next hnone => simpa using List.filter_eq_nil_iff.1 hnone
    · cases h
  refine Pod.mapContainers_eq_self (updateFirst_eq_self fun c hc => ?_)
  -- the container is among those of the edited pod, with the resources that it has had before
  have hfound : edited.container? name = some (c.withUpdates updates) := by
    have hafter := Pod.container?_withResources_of_some (show base.container? name = some c from hc) updates
    simpa only [Pod.container?, hcontainers] using hafter
  have hresized := ResizePatch.isResized_iff hc (Pod.container?_name hfound)
  have hkept : (c.withUpdates updates).resources = c.resources := by
    rw [hsame _ (List.mem_of_find?_eq_some hfound)] at hresized
    simpa [eq_comm] using hresized
  rw [c.withUpdates_frame, hkept]

end Merged
end PodSizing
