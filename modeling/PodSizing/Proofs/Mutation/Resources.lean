import PodSizing.Mutation
import PodSizing.Proofs.Keyed
import PodSizing.Proofs.Resource

/-!
# Setting resources of a container

A list of updates sets the request and the limit of each resource that it names in the first
container of a name, and leaves everything else as it is.
-/
namespace PodSizing

section UpdateFirst
variable {α : Type} {test : α → Bool}

theorem updateFirst_eq_self {f : α → α} {l : List α} (h : ∀ a, l.find? test = some a → f a = a) :
    updateFirst test f l = l := by
  induction l with
  | nil => rfl
  | cons a rest ih =>
    by_cases ha : test a = true
    · simp [updateFirst, ha, h a (by simp [ha])]
    · simp [updateFirst, ha, ih fun b hb => h b (by simpa [ha] using hb)]

theorem updateFirst_updateFirst {f : α → α} (hf : ∀ a, test (f a) = test a) (g : α → α)
    (l : List α) :
    updateFirst test g (updateFirst test f l) = updateFirst test (fun a => g (f a)) l := by
  induction l with
  | nil => rfl
  | cons a rest ih =>
    by_cases ha : test a = true
    · simp [updateFirst, ha, hf]
    · simp [updateFirst, ha, ih]

theorem find?_updateFirst {f : α → α} (hf : ∀ a, test (f a) = test a) (l : List α) :
    (updateFirst test f l).find? test = (l.find? test).map f := by
  induction l with
  | nil => rfl
  | cons a rest ih =>
    by_cases ha : test a = true
    · simp [updateFirst, ha, hf]
    · simp [updateFirst, ha, ih]

theorem find?_updateFirst_of_ne {other : α → Bool} {f : α → α} (hf : ∀ a, other (f a) = other a)
    (hother : ∀ a, test a = true → other a = false) (l : List α) :
    (updateFirst test f l).find? other = l.find? other := by
  induction l with
  | nil => rfl
  | cons a rest ih =>
    by_cases ha : test a = true
    · simp [updateFirst, ha, hf, hother a ha]
    · simp [updateFirst, ha, List.find?_cons, ih]

theorem map_updateFirst {β : Type} {f : α → α} {g : α → β} (hf : ∀ a, g (f a) = g a)
    (l : List α) : (updateFirst test f l).map g = l.map g := by
  induction l with
  | nil => rfl
  | cons a rest ih =>
    by_cases ha : test a = true
    · simp [updateFirst, ha, hf]
    · simp [updateFirst, ha, ih]

theorem updateFirst_append {f : α → α} {before after : List α} {a : α}
    (hbefore : ∀ b ∈ before, test b = false) (ha : test a = true) :
    updateFirst test f (before ++ a :: after) = before ++ f a :: after := by
  induction before with
  | nil => simp [updateFirst, ha]
  | cons b rest ih =>
    simp [updateFirst, hbefore b List.mem_cons_self,
      ih fun c hc => hbefore c (List.mem_cons_of_mem b hc)]

end UpdateFirst

inductive Side where
  | request
  | limit
  deriving DecidableEq

def ResourceUpdate.quantity (u : ResourceUpdate) : Side → String
  | .request => u.requests
  | .limit => u.limits

namespace Container

def quantity? (c : Container) : Side → String → Option String
  | .request, resource => c.request? resource
  | .limit, resource => c.limit? resource

theorem quantity?_setResource (c : Container) (u : ResourceUpdate) (side : Side) (k : String) :
    (c.setResource u.resource.text u.requests u.limits).quantity? side k =
      if k = u.resource.text then some (u.quantity side) else c.quantity? side k := by
  cases side with
  | request =>
    simp only [quantity?, request?, setResource, Option.bind_some, Keyed.get?_insert]
    cases c.resources <;> simp [ResourceUpdate.quantity]
  | limit =>
    simp only [quantity?, limit?, setResource, Option.bind_some, Keyed.get?_insert]
    cases c.resources <;> simp [ResourceUpdate.quantity]

def withUpdates (c : Container) (updates : List ResourceUpdate) : Container :=
  updates.foldl (fun c u => c.setResource u.resource.text u.requests u.limits) c

theorem withUpdates_cons (c : Container) (u : ResourceUpdate) (updates : List ResourceUpdate) :
    c.withUpdates (u :: updates) =
      (c.setResource u.resource.text u.requests u.limits).withUpdates updates := rfl

theorem withUpdates_frame (c : Container) (updates : List ResourceUpdate) :
    c.withUpdates updates = { c with resources := (c.withUpdates updates).resources } := by
  induction updates generalizing c with
  | nil => rfl
  | cons u rest ih =>
    rw [withUpdates_cons, ih]
    rfl

theorem withUpdates_hasStartupProbe (c : Container) (updates : List ResourceUpdate) :
    (c.withUpdates updates).hasStartupProbe = c.hasStartupProbe := by
  rw [withUpdates_frame]
  rfl

theorem withUpdates_hasReadinessProbe (c : Container) (updates : List ResourceUpdate) :
    (c.withUpdates updates).hasReadinessProbe = c.hasReadinessProbe := by
  rw [withUpdates_frame]
  rfl

@[simp] theorem withUpdates_name (c : Container) (updates : List ResourceUpdate) :
    (c.withUpdates updates).name = c.name := by
  rw [withUpdates_frame]

theorem quantity?_withUpdates_of_ne {updates : List ResourceUpdate} {k : String}
    (h : ∀ u ∈ updates, u.resource.text ≠ k) (c : Container) (side : Side) :
    (c.withUpdates updates).quantity? side k = c.quantity? side k := by
  induction updates generalizing c with
  | nil => rfl
  | cons u rest ih =>
    have hu : k ≠ u.resource.text := (h u List.mem_cons_self).symm
    rw [withUpdates_cons, ih fun v hv => h v (List.mem_cons_of_mem u hv), quantity?_setResource,
      if_neg hu]

theorem quantity?_withUpdates_isSome (updates : List ResourceUpdate) {c : Container} {side : Side}
    {k : String} (h : (c.quantity? side k).isSome = true) :
    ((c.withUpdates updates).quantity? side k).isSome = true := by
  induction updates generalizing c with
  | nil => exact h
  | cons u rest ih =>
    refine ih ?_
    rw [quantity?_setResource]
    split
    · rfl
    · exact h

theorem quantity?_withUpdates_last {earlier later : List ResourceUpdate} {u : ResourceUpdate}
    (h : ∀ v ∈ later, v.resource.text ≠ u.resource.text) (c : Container) (side : Side) :
    (c.withUpdates (earlier ++ u :: later)).quantity? side u.resource.text =
      some (u.quantity side) := by
  have hsplit : c.withUpdates (earlier ++ u :: later) =
      ((c.withUpdates earlier).setResource u.resource.text u.requests u.limits).withUpdates later :=
    List.foldl_append
  rw [hsplit, quantity?_withUpdates_of_ne h, quantity?_setResource, if_pos rfl]

/-- Updates of different resources all take hold. -/
theorem quantity?_withUpdates {updates : List ResourceUpdate}
    (h : updates.Pairwise fun u v => u.resource.text ≠ v.resource.text) (c : Container)
    (side : Side) :
    ∀ u ∈ updates, (c.withUpdates updates).quantity? side u.resource.text =
      some (u.quantity side) := by
  intro u hu
  obtain ⟨earlier, later, rfl⟩ := List.append_of_mem hu
  have hlater := (List.pairwise_cons.1 (List.pairwise_append.1 h).2.1).1
  exact quantity?_withUpdates_last (fun v hv => (hlater v hv).symm) c side

theorem resources_withUpdates {updates : List ResourceUpdate} (h : updates ≠ []) (c : Container) :
    ∃ requests limits, (c.withUpdates updates).resources =
      some ⟨some requests, some limits, c.resources.bind (·.claims)⟩ := by
  induction updates generalizing c with
  | nil => exact absurd rfl h
  | cons u rest ih =>
    rw [withUpdates_cons]
    cases rest with
    | nil => cases hr : c.resources <;> exact ⟨_, _, by simp [withUpdates, setResource, hr]; exact ⟨rfl, rfl⟩⟩
    | cons v rest =>
      obtain ⟨requests, limits, hresources⟩ := ih (by simp) (c.setResource u.resource.text u.requests u.limits)
      refine ⟨requests, limits, hresources.trans ?_⟩
      cases hr : c.resources <;> simp [setResource, hr]

/-- The second container has the quantities of the updates, and else it is the first one. -/
structure SetTo (updates : List ResourceUpdate) (c d : Container) : Prop where
  quantities : ∀ u ∈ updates, ∀ side, d.quantity? side u.resource.text = some (u.quantity side)
  others : ∀ side k, (∀ u ∈ updates, u.resource.text ≠ k) →
    d.quantity? side k = c.quantity? side k
  claims : d.resources.bind (·.claims) = c.resources.bind (·.claims)
  frame : d = { c with resources := d.resources }

theorem setTo_withUpdates {updates : List ResourceUpdate}
    (h : updates.Pairwise fun u v => u.resource.text ≠ v.resource.text) (c : Container) :
    c.SetTo updates (c.withUpdates updates) where
  quantities u hu side := c.quantity?_withUpdates h side u hu
  others side k hk := quantity?_withUpdates_of_ne hk c side
  claims := by
    cases updates with
    | nil => rfl
    | cons u rest =>
      obtain ⟨requests, limits, hresources⟩ := c.resources_withUpdates (List.cons_ne_nil u rest)
      rw [hresources]
      rfl
  frame := c.withUpdates_frame updates

namespace SetTo
variable {updates : List ResourceUpdate} {c d e : Container}

theorem trans (h : c.SetTo updates d) (k : d.SetTo updates e) : c.SetTo updates e where
  quantities := k.quantities
  others side key hkey := (k.others side key hkey).trans (h.others side key hkey)
  claims := k.claims.trans h.claims
  frame := by
    rw [k.frame, h.frame]

/-- In what order the updates are listed makes no difference. -/
theorem perm {permuted : List ResourceUpdate} (h : c.SetTo updates d) (hperm : permuted.Perm updates) :
    c.SetTo permuted d where
  quantities u hu := h.quantities u (hperm.mem_iff.1 hu)
  others side key hkey := h.others side key fun u hu => hkey u (hperm.mem_iff.2 hu)
  claims := h.claims
  frame := h.frame

theorem tables (hne : updates ≠ []) (h : c.SetTo updates d) : ∃ requests limits,
    d.resources = some ⟨some requests, some limits, c.resources.bind (·.claims)⟩ := by
  obtain ⟨u, hu⟩ := List.exists_mem_of_ne_nil updates hne
  obtain ⟨r, hr, hrequests⟩ := Option.bind_eq_some_iff.1 (h.quantities u hu .request)
  obtain ⟨s, hs, hlimits⟩ := Option.bind_eq_some_iff.1 (h.quantities u hu .limit)
  cases hr.symm.trans hs
  obtain ⟨requests, hrequests, -⟩ := Option.bind_eq_some_iff.1 hrequests
  obtain ⟨limits, hlimits, -⟩ := Option.bind_eq_some_iff.1 hlimits
  have hclaims : r.claims = c.resources.bind (·.claims) := by simpa [hr] using h.claims
  exact ⟨requests, limits, by rw [hr, ← hrequests, ← hlimits, ← hclaims]⟩

/-- What is set, and that nothing else differs, determines the container. -/
theorem unique (hne : updates ≠ []) (hd : c.SetTo updates d) (he : c.SetTo updates e) : d = e := by
  have hquantity (side : Side) (k : String) : d.quantity? side k = e.quantity? side k := by
    by_cases hk : ∃ u ∈ updates, u.resource.text = k
    · obtain ⟨u, hu, rfl⟩ := hk
      rw [hd.quantities u hu, he.quantities u hu]
    · have hother : ∀ u ∈ updates, u.resource.text ≠ k := fun u hu heq => hk ⟨u, hu, heq⟩
      rw [hd.others side k hother, he.others side k hother]
  -- With an update both tables are there, so that they are equal where all their entries are.
  obtain ⟨requests, limits, hresources⟩ := hd.tables hne
  obtain ⟨requests', limits', hresources'⟩ := he.tables hne
  have hrequests : requests = requests' := Keyed.ext_get? fun k => by
    simpa [quantity?, request?, hresources, hresources'] using hquantity .request k
  have hlimits : limits = limits' := Keyed.ext_get? fun k => by
    simpa [quantity?, limit?, hresources, hresources'] using hquantity .limit k
  rw [hd.frame, he.frame, hresources, hresources', hrequests, hlimits]

end SetTo

theorem withUpdates_perm {updates permuted : List ResourceUpdate}
    (h : updates.Pairwise fun u v => u.resource.text ≠ v.resource.text)
    (hperm : permuted.Perm updates) (c : Container) :
    c.withUpdates permuted = c.withUpdates updates := by
  by_cases hnil : updates = []
  · subst hnil
    rw [hperm.eq_nil]
  · have hpermuted := (c.setTo_withUpdates (hperm.symm.pairwise h fun hne => hne.symm)).perm hperm.symm
    exact hpermuted.unique hnil (c.setTo_withUpdates h)

theorem withUpdates_again {updates : List ResourceUpdate}
    (h : updates.Pairwise fun u v => u.resource.text ≠ v.resource.text) (c : Container) :
    (c.withUpdates updates).withUpdates updates = c.withUpdates updates := by
  by_cases hnil : updates = []
  · subst hnil
    rfl
  · have honce := c.setTo_withUpdates h
    exact (honce.trans ((c.withUpdates updates).setTo_withUpdates h)).unique hnil honce

end Container

namespace Pod

def withResources (p : Pod) (name : String) (updates : List ResourceUpdate) : Pod :=
  p.mapContainers (updateFirst (·.name = name) (·.withUpdates updates))

theorem mapContainers_eq_self {p : Pod} {f : List Container → List Container}
    (h : f p.containers = p.containers) : p.mapContainers f = p := by
  obtain ⟨metadata, spec, status⟩ := p
  cases spec with
  | none => rfl
  | some s =>
    have hs : f s.containers = s.containers := h
    simp only [mapContainers, Option.map_some, hs]

theorem withResources_nil (p : Pod) (name : String) : p.withResources name [] = p :=
  mapContainers_eq_self (updateFirst_eq_self fun _ _ => rfl)

theorem container?_withResources (p : Pod) (name : String) (updates : List ResourceUpdate) :
    (p.withResources name updates).container? name =
      (p.container? name).map (·.withUpdates updates) := by
  have hname : ∀ c : Container,
      decide ((c.withUpdates updates).name = name) = decide (c.name = name) := by simp
  simp only [container?, containers, withResources, mapContainers]
  cases p.spec with
  | none => rfl
  | some s => exact find?_updateFirst hname s.containers

theorem container?_withResources_of_some {p : Pod} {name : String} {c : Container}
    (h : p.container? name = some c) (updates : List ResourceUpdate) :
    (p.withResources name updates).container? name = some (c.withUpdates updates) := by
  rw [container?_withResources, h]
  rfl

theorem withResources_withResources (p : Pod) (name : String) (us vs : List ResourceUpdate) :
    (p.withResources name us).withResources name vs = p.withResources name (us ++ vs) := by
  have hcontainers (l : List Container) :
      updateFirst (·.name = name) (·.withUpdates vs) (updateFirst (·.name = name) (·.withUpdates us) l) =
        updateFirst (·.name = name) (·.withUpdates (us ++ vs)) l := by
    rw [updateFirst_updateFirst (by simp)]
    simp only [Container.withUpdates, List.foldl_append]
  cases p with
  | mk metadata spec status => cases spec <;> simp [withResources, mapContainers, hcontainers]

end Pod

namespace Mutator

theorem foldlM_setResource {p : Pod} {name : String} (h : p.isContainerInSpec name = true)
    (updates : List ResourceUpdate) :
    updates.foldlM (setResource name) p = .ok (p.withResources name updates) := by
  induction updates generalizing p with
  | nil =>
    rw [Pod.withResources_nil]
    rfl
  | cons u rest ih =>
    have hfirst : setResource name p u = .ok (p.withResources name [u]) := by
      simp only [setResource, Pod.setContainerResource, h, if_true]
      rfl
    have hstill : (p.withResources name [u]).isContainerInSpec name = true := by
      simpa [Pod.isContainerInSpec, Pod.container?_withResources] using h
    rw [List.foldlM_cons, hfirst]
    exact (ih hstill).trans (congrArg Except.ok (Pod.withResources_withResources p name [u] rest))

/-- The mutator of updates succeeds on every pod that has the container. -/
theorem resources_of_present {p : Pod} {name : String}
    (hpresent : p.isContainerInSpec name = true) (updates : List ResourceUpdate)
    (now : Time.Instant) :
    resources name updates now p = .ok ⟨true, p.withResources name updates, []⟩ := by
  rw [resources, foldlM_setResource hpresent]
  rfl

/-- A mutator after updates works on the pod that has them, and there is a change in any case. -/
theorem applyAll_resources {p : Pod} {name : String} (h : p.isContainerInSpec name = true)
    (updates : List ResourceUpdate) (m : Mutator) (now : Time.Instant) :
    applyAll [resources name updates, m] now p =
      (m now (p.withResources name updates)).map fun edit => { edit with changed := true } := by
  simp only [applyAll, List.foldlM, andThen, resources, foldlM_setResource h, Except.map, bind,
    Except.bind]
  cases m now (p.withResources name updates) <;> rfl

end Mutator
end PodSizing
