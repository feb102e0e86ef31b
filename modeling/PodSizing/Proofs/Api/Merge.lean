import PodSizing.Proofs.Api.Attempts
import PodSizing.Proofs.Mutation.Footprint

/-!
# Patches make one pod into another

Where a pod has all entries of a base and perhaps more, merging the patch between the two into the base
gives the entries of the pod. Patches of resources leave labels and annotations alone, and patches of
metadata the resources.
-/
namespace PodSizing

theorem mergeTable_get? (stored patch : Option (Keyed String)) (k : String) :
    (mergeTable stored patch).bind (·.get? k) =
      (patch.bind (·.get? k)).or (stored.bind (·.get? k)) := by
  cases patch with
  | none => rfl
  | some t => simp [mergeTable, Keyed.get?_overlay]

/-- A table that has lost no key is what the patch between the two makes of the first one. -/
theorem mergeMember_get? {a b stored : Option (Keyed String)}
    (hkept : ∀ k, (a.bind (·.get? k)).isSome = true → (b.bind (·.get? k)).isSome = true)
    (hstored : ∀ k, stored.bind (·.get? k) = a.bind (·.get? k)) (k : String) :
    (mergeMember stored (MetadataPatch.changed? a b)).bind (·.get? k) = b.bind (·.get? k) := by
  unfold MetadataPatch.changed?
  by_cases hab : a = b
  · rw [if_pos hab, ← hab]
    exact hstored k
  · rw [if_neg hab]
    cases b with
    | none => rfl
    | some t =>
      simp only [mergeMember, mergeTable_get?, Option.bind_some]
      cases ht : t.get? k with
      | some value => rfl
      | none =>
        -- what the new table lacks, the old one did not have either
        have hnone : a.bind (·.get? k) = none := by
          cases ha : a.bind (·.get? k) with
          | none => rfl
          | some value => simpa [ha, ht] using hkept k
        rw [hstored, hnone]
        rfl

/-- Merged into the first table itself, the patch gives the second one, with its empty tables. -/
theorem mergeMember_changed {a b : Option (Keyed String)}
    (hkept : ∀ k, (a.bind (·.get? k)).isSome = true → (b.bind (·.get? k)).isSome = true) :
    mergeMember a (MetadataPatch.changed? a b) = b := by
  unfold MetadataPatch.changed?
  by_cases hab : a = b
  · rw [if_pos hab]
    exact hab
  · rw [if_neg hab]
    cases b with
    | none => rfl
    | some t =>
      refine congrArg some (Keyed.overlay_eq fun k hk => ?_)
      exact hkept k (by simpa using hk)

theorem MetadataPatch.between?_members {before after : Pod} {version : Option String}
    {m : MetadataPatch} (h : MetadataPatch.between? before after version = some m) :
    m.labels = MetadataPatch.changed? before.metadata.labels after.metadata.labels ∧
      m.annotations =
        MetadataPatch.changed? before.metadata.annotations after.metadata.annotations := by
  unfold MetadataPatch.between? at h
  dsimp only at h
  split at h
  · cases h
  · cases h
    exact ⟨rfl, rfl⟩

section Metadata
variable {footprint : Entry → Prop} {base edited before : Pod} {version : Option String}
  {m : MetadataPatch}

/-- Merged into a pod with the labels and annotations of the base, the patch gives those of the edited
pod. -/
theorem MetadataPatch.merge_label? (h : MetadataPatch.between? base edited version = some m)
    (hsets : Sets footprint base edited) (hbefore : ∀ k, before.label? k = base.label? k)
    (k : String) : (m.merge before).label? k = edited.label? k := by
  simp only [Pod.label?, MetadataPatch.merge, (MetadataPatch.between?_members h).1]
  exact mergeMember_get? (fun k => hsets.kept (.labelOf k)) hbefore k

theorem MetadataPatch.merge_annotation? (h : MetadataPatch.between? base edited version = some m)
    (hsets : Sets footprint base edited)
    (hbefore : ∀ k, before.annotation? k = base.annotation? k) (k : String) :
    (m.merge before).annotation? k = edited.annotation? k := by
  simp only [Pod.annotation?, MetadataPatch.merge, (MetadataPatch.between?_members h).2]
  exact mergeMember_get? (fun k => hsets.kept (.annotationOf k)) hbefore k

theorem MetadataPatch.merge_quantity? (m : MetadataPatch) (p : Pod) (container : String)
    (side : Side) (resource : String) :
    (m.merge p).textAt? (.quantityOf container side resource) =
      p.textAt? (.quantityOf container side resource) := rfl

end Metadata

theorem Container.mergeFrom_quantity? {c d : Container}
    {patches : List (String × Option Resources)} (hpatch : patches.lookup c.name = some d.resources)
    (hkept : ∀ side k, (c.quantity? side k).isSome = true → (d.quantity? side k).isSome = true)
    (side : Side) (k : String) : (c.mergeFrom patches).quantity? side k = d.quantity? side k := by
  have hor : (d.quantity? side k).or (c.quantity? side k) = d.quantity? side k := by
    cases hd : d.quantity? side k with
    | some value => rfl
    | none =>
      cases hc : c.quantity? side k with
      | none => rfl
      | some value => simpa [hc, hd] using hkept side k
  cases hr : d.resources with
  | none =>
    rw [hr] at hpatch
    cases side <;> simp [mergeFrom, hpatch, mergeResources, quantity?, request?, limit?, hr]
  | some r =>
    rw [← hor]
    rw [hr] at hpatch
    cases side <;>
      simp [mergeFrom, hpatch, mergeResources, quantity?, request?, limit?, hr, mergeTable_get?,
        Option.bind_assoc]

theorem lookup_resized {test : Container → Bool} {l : List Container}
    (h : (l.map (·.name)).Nodup) (n : String) :
    ((l.filter test).map fun c => (c.name, c.resources)).lookup n =
      (l.find? (·.name = n)).bind fun c => if test c then some c.resources else none := by
  induction l with
  | nil => rfl
  | cons c rest ih =>
    rw [List.map_cons, List.nodup_cons] at h
    by_cases hc : c.name = n
    · -- no later container has the name
      have hrest : rest.find? (·.name = n) = none := by
        rw [List.find?_eq_none]
        intro d hd hdn
        exact h.1 (List.mem_map.2 ⟨d, hd, by simpa [hc] using hdn⟩)
      have hlater := ih h.2
      rw [hrest] at hlater
      by_cases ht : test c = true
      · simp [ht, hc]
      · simp [ht, hc, hlater]
    · have hn : n ≠ c.name := fun h => hc h.symm
      have hlater := ih h.2
      by_cases ht : test c = true
      · simp [ht, hc, hn, Keyed.lookup_cons_ite, hlater]
      · simp [ht, hc, hlater]

theorem Pod.container?_name {p : Pod} {n : String} {c : Container} (h : p.container? n = some c) :
    c.name = n := by
  simpa using List.find?_some h

theorem Pod.container?_isSome_of_names {p q : Pod}
    (h : q.containers.map (·.name) = p.containers.map (·.name)) (n : String) :
    (q.container? n).isSome = (p.container? n).isSome := by
  have hmem (r : Pod) : (r.container? n).isSome = decide (n ∈ r.containers.map (·.name)) := by
    rw [Bool.eq_iff_iff]
    simp [container?, List.find?_isSome]
  rw [hmem, hmem, h]

theorem ResizePatch.between?_containers {before after : Pod} {version : Option String}
    {r : ResizePatch} (h : ResizePatch.between? before after version = some r) :
    r.containers =
      (after.containers.filter (isResized before)).map fun c => (c.name, c.resources) := by
  unfold ResizePatch.between? at h
  split at h
  · cases h
  · next hne =>
    cases h
    rfl

theorem ResizePatch.lookup_between {before after : Pod} {version : Option String} {r : ResizePatch}
    (h : ResizePatch.between? before after version = some r)
    (hnames : (after.containers.map (·.name)).Nodup) (n : String) :
    r.containers.lookup n = (after.container? n).bind fun d =>
      if isResized before d then some d.resources else none := by
  rw [ResizePatch.between?_containers h, lookup_resized hnames]
  rfl

theorem ResizePatch.isResized_iff {before : Pod} {c d : Container} {n : String}
    (hc : before.container? n = some c) (hd : d.name = n) :
    isResized before d = true ↔ c.resources ≠ d.resources := by
  have hfind : before.containers.find? (·.name = d.name) = some c := by
    rw [hd]
    exact hc
  simp [isResized, hfind]

section Resize
variable {footprint : Entry → Prop} {base edited merged : Pod} {version : Option String}
  {r : ResizePatch}

theorem ResizePatch.merge?_eq (h : r.merge? base = some merged) :
    merged = base.mapContainers (·.map (·.mergeFrom r.containers)) := by
  unfold ResizePatch.merge? at h
  split at h
  · cases h
    rfl
  · cases h

theorem Pod.container?_mapMerge (p : Pod) (patches : List (String × Option Resources))
    (n : String) :
    (p.mapContainers (·.map (·.mergeFrom patches))).container? n =
      (p.container? n).map (·.mergeFrom patches) := by
  simp only [container?, containers, mapContainers]
  cases p.spec with
  | none => rfl
  | some s =>
    simp only [Option.map_some, Option.getD_some, List.find?_map]
    congr 2
    funext c
    simp [Container.mergeFrom_name]

/-- Merged into the base, the patch of the resources gives the quantities of the edited pod. -/
theorem ResizePatch.merge?_quantity? (h : ResizePatch.between? base edited version = some r)
    (hsets : Sets footprint base edited) (hnames : (base.containers.map (·.name)).Nodup)
    (hmerge : r.merge? base = some merged) (container : String) (side : Side) (resource : String) :
    merged.textAt? (.quantityOf container side resource) =
      edited.textAt? (.quantityOf container side resource) := by
  have hexists := Pod.container?_isSome_of_names hsets.names container
  have hnames' : (edited.containers.map (·.name)).Nodup := by rw [hsets.names]; exact hnames
  rw [ResizePatch.merge?_eq hmerge]
  simp only [Pod.textAt?, Pod.container?_mapMerge]
  cases hbase : base.container? container with
  | none =>
    rw [hbase] at hexists
    have hedited : edited.container? container = none := by simpa using hexists
    simp [hedited]
  | some c =>
    rw [hbase] at hexists
    obtain ⟨d, hedited⟩ := Option.isSome_iff_exists.1 hexists
    have hkept (side : Side) (k : String) (hc : (c.quantity? side k).isSome = true) :
        (d.quantity? side k).isSome = true := by
      have hentry := hsets.kept (.quantityOf container side k)
      simpa [Pod.textAt?, hbase, hedited] using hentry (by simpa [Pod.textAt?, hbase] using hc)
    have hlookup := ResizePatch.lookup_between h hnames' c.name
    rw [Pod.container?_name hbase, hedited] at hlookup
    have hresized := ResizePatch.isResized_iff hbase (Pod.container?_name hedited)
    simp only [hedited, Option.map_some, Option.bind_some] at hlookup ⊢
    by_cases hsame : c.resources = d.resources
    · -- what has not been resized has kept its resources
      rw [if_neg fun hne => hresized.1 hne hsame] at hlookup
      have hkeep : c.mergeFrom r.containers = c := by
        simp [Container.mergeFrom, Pod.container?_name hbase, hlookup]
      rw [hkeep]
      cases side <;> simp [Container.quantity?, Container.request?, Container.limit?, hsame]
    · rw [if_pos (hresized.2 hsame)] at hlookup
      rw [← Pod.container?_name hbase] at hlookup
      exact Container.mergeFrom_quantity? hlookup hkept side resource

theorem ResizePatch.merge?_metadata (hmerge : r.merge? base = some merged) :
    merged.metadata = base.metadata := by
  rw [ResizePatch.merge?_eq hmerge]
  rfl

end Resize
end PodSizing
