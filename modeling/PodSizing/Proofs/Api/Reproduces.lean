import Mathlib.Data.List.Forall2
import Mathlib.Data.List.Nodup
import PodSizing.Proofs.Api.Documents
import PodSizing.Proofs.Api.ResizePatch

/-!
# Patches reproduce the mutated pod

The patches between two pods name just what differs, and merged into the first pod they give the second
one: the labels and annotations if no key has been lost, and the resources of the containers if entries of
their requests and limits have been added or replaced.
-/
namespace PodSizing

/-- Every key of the first table is one of the second. -/
def KeepsKeys (a b : Option (Keyed String)) : Prop :=
  ∀ k, (a.bind (·.get? k)).isSome = true → (b.bind (·.get? k)).isSome = true

def TableGrows (a b : Option (Keyed String)) : Prop :=
  ∀ t, a = some t → ∃ u, b = some u ∧ ∀ k, (t.get? k).isSome = true → (u.get? k).isSome = true

/-- Entries of a container's requests and limits have been added or replaced. -/
structure Container.Grows (c d : Container) : Prop where
  frame : d = { c with resources := d.resources }
  claims : d.resources.bind (·.claims) = c.resources.bind (·.claims)
  tables : ∀ r, c.resources = some r →
    ∃ q, d.resources = some q ∧ TableGrows r.requests q.requests ∧ TableGrows r.limits q.limits

/-- Entries of some containers' requests and limits have been added or replaced. -/
def Pod.ContainersGrow (before after : Pod) : Prop :=
  List.Forall₂ Container.Grows before.containers after.containers

/-- The pod with the tables of another one. -/
def Pod.withTables (p q : Pod) : Pod :=
  { p with
    metadata :=
      { p.metadata with labels := q.metadata.labels, annotations := q.metadata.annotations } }

section Metadata
variable {before after : Pod} {version : Option String} {m : MetadataPatch}

theorem MetadataPatch.between?_eq_none :
    MetadataPatch.between? before after version = none ↔
      before.metadata.labels = after.metadata.labels ∧
        before.metadata.annotations = after.metadata.annotations := by
  unfold MetadataPatch.between? MetadataPatch.changed?
  by_cases hl : before.metadata.labels = after.metadata.labels <;>
    by_cases ha : before.metadata.annotations = after.metadata.annotations <;>
      simp [hl, ha]

/-- What the patch between two pods names. -/
def patchedMembers (before after : Pod) (version : Option String) : List String :=
  (if version.isSome then ["resourceVersion"] else [])
    ++ (if before.metadata.labels ≠ after.metadata.labels then ["labels"] else [])
    ++ (if before.metadata.annotations ≠ after.metadata.annotations then ["annotations"] else [])

theorem MetadataPatch.toJson_between (h : MetadataPatch.between? before after version = some m) :
    ∃ members, m.toJson = .record [("metadata", .record members)] ∧
      members.map (·.1) = patchedMembers before after version ∧
      members.lookup "resourceVersion" = version.map .text := by
  obtain ⟨hlabels, hannotations⟩ := MetadataPatch.between?_members h
  have hversion := MetadataPatch.between?_version h
  refine ⟨metadataMembers m.version m.labels m.annotations, rfl, ?_, ?_⟩
  · rw [hversion, hlabels, hannotations, patchedMembers, metadataMembers]
    unfold MetadataPatch.changed?
    cases version <;> split <;> split <;> simp_all [versionMembers, writeMember]
  · rw [(metadataMembers_lookup _ _ _).1, hversion]

theorem MetadataPatch.merge_between (h : MetadataPatch.between? before after version = some m)
    (hlabels : KeepsKeys before.metadata.labels after.metadata.labels)
    (hannotations : KeepsKeys before.metadata.annotations after.metadata.annotations) :
    m.merge before = before.withTables after := by
  obtain ⟨hl, ha⟩ := MetadataPatch.between?_members h
  simp only [MetadataPatch.merge, Pod.withTables, hl, ha, mergeMember_changed hlabels,
    mergeMember_changed hannotations]

end Metadata

theorem mergeTable_grows {a b : Option (Keyed String)} (h : TableGrows a b) : mergeTable a b = b := by
  cases b with
  | none =>
    cases a with
    | none => rfl
    | some t =>
      obtain ⟨_, hu, -⟩ := h t rfl
      cases hu
  | some u =>
    refine congrArg some (Keyed.overlay_eq fun k hk => ?_)
    cases a with
    | none => cases hk
    | some t =>
      obtain ⟨_, hu, hkeys⟩ := h t rfl
      cases hu
      exact hkeys k hk

theorem TableGrows.of_none (b : Option (Keyed String)) : TableGrows none b := fun _ h => by cases h

theorem Container.Grows.merge {c d : Container} (h : c.Grows d) :
    mergeResources c.resources d.resources = d.resources := by
  cases hd : d.resources with
  | none => rfl
  | some q =>
    have hclaims : q.claims = c.resources.bind (·.claims) := by simpa [hd] using h.claims
    have htables : TableGrows (c.resources.bind (·.requests)) q.requests ∧
        TableGrows (c.resources.bind (·.limits)) q.limits := by
      cases hc : c.resources with
      | none => exact ⟨.of_none _, .of_none _⟩
      | some r =>
        obtain ⟨_, hq, htables⟩ := h.tables r hc
        cases hd.symm.trans hq
        exact htables
    have hkept : (q.claims.orElse fun _ => q.claims) = q.claims := by cases q.claims <;> rfl
    simp only [mergeResources, mergeTable_grows htables.1, mergeTable_grows htables.2, ← hclaims,
      hkept]

section Resources
variable {before after : Pod} {version : Option String} {r : ResizePatch}

theorem Container.Grows.name {c d : Container} (h : c.Grows d) : d.name = c.name := by
  rw [h.frame]

theorem names_of_grows {l l' : List Container} (h : List.Forall₂ Container.Grows l l') :
    l'.map (·.name) = l.map (·.name) := by
  induction h with
  | nil => rfl
  | cons hgrows _ ih => rw [List.map_cons, List.map_cons, hgrows.name, ih]

theorem Pod.ContainersGrow.names (h : before.ContainersGrow after) :
    after.containers.map (·.name) = before.containers.map (·.name) :=
  names_of_grows h

theorem Pod.ContainersGrow.nodup (h : before.ContainersGrow after)
    (hnames : (before.containers.map (·.name)).Nodup) : (after.containers.map (·.name)).Nodup := by
  rw [h.names]
  exact hnames

theorem Pod.container?_of_mem {p : Pod} (hnames : (p.containers.map (·.name)).Nodup) {c : Container}
    (hc : c ∈ p.containers) : p.container? c.name = some c := by
  have hsome : (p.container? c.name).isSome = true := by
    simpa [container?, List.find?_isSome] using ⟨c, hc, rfl⟩
  obtain ⟨d, hd⟩ := Option.isSome_iff_exists.1 hsome
  have hname := Pod.container?_name hd
  have hmem : d ∈ p.containers := List.mem_of_find?_eq_some hd
  rw [hd, List.inj_on_of_nodup_map hnames hmem hc hname]

/-- A container is resized just if the two pods' containers of its name have different resources. -/
theorem isResized_iff_differs (hgrow : before.ContainersGrow after)
    (hnames : (before.containers.map (·.name)).Nodup) (n : String) :
    (∃ d ∈ after.containers, d.name = n ∧ ResizePatch.isResized before d = true) ↔
      (before.container? n).map (·.resources) ≠ (after.container? n).map (·.resources) := by
  have hnames' := hgrow.nodup hnames
  have hexists := Pod.container?_isSome_of_names hgrow.names n
  constructor
  · rintro ⟨d, hd, rfl, hresized⟩
    have hafter := Pod.container?_of_mem hnames' hd
    rw [hafter] at hexists ⊢
    obtain ⟨c, hc⟩ := Option.isSome_iff_exists.1 hexists.symm
    rw [hc]
    simpa using (ResizePatch.isResized_iff hc rfl).1 hresized
  · intro hdiffers
    cases hafter : after.container? n with
    | none =>
      rw [hafter] at hexists hdiffers
      have hbefore : before.container? n = none := by simpa using hexists.symm
      simp [hbefore] at hdiffers
    | some d =>
      rw [hafter] at hexists hdiffers
      obtain ⟨c, hc⟩ := Option.isSome_iff_exists.1 hexists.symm
      rw [hc] at hdiffers
      have hname := Pod.container?_name hafter
      refine ⟨d, List.mem_of_find?_eq_some hafter, hname, ?_⟩
      exact (ResizePatch.isResized_iff hc hname).2 (by simpa using hdiffers)

theorem ResizePatch.between?_eq_none :
    ResizePatch.between? before after version = none ↔
      ∀ d ∈ after.containers, isResized before d = false := by
  unfold ResizePatch.between?
  split
  · next hnil => simpa using List.filter_eq_nil_iff.1 hnil
  · next hne =>
    refine iff_of_false (by simp) fun hsame => hne ?_
    simpa [List.filter_eq_nil_iff] using hsame

/-- Without a patch, no container has other resources in the second pod. -/
theorem ResizePatch.between?_eq_none_iff (hgrow : before.ContainersGrow after)
    (hnames : (before.containers.map (·.name)).Nodup) :
    ResizePatch.between? before after version = none ↔
      ∀ n, (before.container? n).map (·.resources) = (after.container? n).map (·.resources) := by
  rw [ResizePatch.between?_eq_none]
  constructor
  · intro hsame n
    by_contra hdiffers
    obtain ⟨d, hd, -, hresized⟩ := (isResized_iff_differs hgrow hnames n).2 hdiffers
    rw [hsame d hd] at hresized
    cases hresized
  · intro hsame d hd
    rw [Bool.eq_false_iff]
    intro hresized
    exact (isResized_iff_differs hgrow hnames d.name).1 ⟨d, hd, rfl, hresized⟩ (hsame d.name)

theorem ResizePatch.between?_names (h : ResizePatch.between? before after version = some r)
    (hgrow : before.ContainersGrow after) (hnames : (before.containers.map (·.name)).Nodup) :
    (r.containers.map (·.1)).Nodup ∧ ∀ n, n ∈ r.containers.map (·.1) ↔
      (before.container? n).map (·.resources) ≠ (after.container? n).map (·.resources) := by
  have hnames' := hgrow.nodup hnames
  have hcontainers : r.containers.map (·.1) =
      (after.containers.filter (isResized before)).map (·.name) := by
    rw [ResizePatch.between?_containers h, List.map_map]
    rfl
  rw [hcontainers]
  refine ⟨hnames'.sublist (List.filter_sublist.map _), fun n => ?_⟩
  rw [← isResized_iff_differs hgrow hnames, List.mem_map]
  simp only [List.mem_filter]
  constructor
  · rintro ⟨d, ⟨hd, hresized⟩, hname⟩
    exact ⟨d, hd, hname, hresized⟩
  · rintro ⟨d, hd, hname, hresized⟩
    exact ⟨d, ⟨hd, hresized⟩, hname⟩

theorem Container.Grows.mergeFrom {c d : Container} (hgrows : c.Grows d)
    (h : ResizePatch.between? before after version = some r)
    (hnames' : (after.containers.map (·.name)).Nodup) (hc : before.container? c.name = some c)
    (hd : after.container? c.name = some d) : c.mergeFrom r.containers = d := by
  have hlookup := ResizePatch.lookup_between h hnames' c.name
  have hresized := ResizePatch.isResized_iff hc hgrows.name
  rw [hd, Option.bind_some] at hlookup
  by_cases hsame : c.resources = d.resources
  · rw [if_neg fun hne => hresized.1 hne hsame] at hlookup
    rw [Container.mergeFrom, hlookup, hgrows.frame, ← hsame]
  · rw [if_pos (hresized.2 hsame)] at hlookup
    rw [Container.mergeFrom, hlookup, hgrows.frame]
    simp only [hgrows.merge]

theorem map_eq_of_forall₂ {α β : Type} {R : α → β → Prop} {f : α → β} {l : List α} {l' : List β}
    (h : List.Forall₂ R l l') (hf : ∀ a ∈ l, ∀ b ∈ l', R a b → f a = b) : l.map f = l' := by
  induction h with
  | nil => rfl
  | cons hab _ ih =>
    rw [List.map_cons, hf _ List.mem_cons_self _ List.mem_cons_self hab, ih fun a ha b hb =>
      hf a (List.mem_cons_of_mem _ ha) b (List.mem_cons_of_mem _ hb)]

/-- Merged into the first pod, the patch gives the containers of the second one. -/
theorem ResizePatch.merge?_between (h : ResizePatch.between? before after version = some r)
    (hgrow : before.ContainersGrow after) (hnames : (before.containers.map (·.name)).Nodup) :
    r.merge? before = some (before.mapContainers fun _ => after.containers) := by
  have hnames' := hgrow.nodup hnames
  have hpresent : r.containers.all (fun c => before.isContainerInSpec c.1) = true := by
    rw [List.all_eq_true, ResizePatch.between?_containers h]
    intro c hc
    obtain ⟨d, hd, rfl⟩ := List.mem_map.1 hc
    have hafter := Pod.container?_of_mem hnames' (List.mem_filter.1 hd).1
    rw [Pod.isContainerInSpec, ← Pod.container?_isSome_of_names hgrow.names, hafter]
    rfl
  rw [ResizePatch.merge?, if_pos hpresent]
  refine congrArg some (Pod.mapContainers_congr (map_eq_of_forall₂ hgrow fun c hc d hd hgrows => ?_))
  exact hgrows.mergeFrom h hnames' (Pod.container?_of_mem hnames hc)
    (hgrows.name ▸ Pod.container?_of_mem hnames' hd)

theorem Container.claims_plain {v : Json} {c : Container} (hread : Container.ofJson? v = some c)
    {claims : Json} (h : c.resources.bind (·.claims) = some claims) :
    Schema.resourceClaims.plain? claims = some claims := by
  simp only [ofJson?, bind, Option.bind_eq_some_iff, Option.some.injEq] at hread
  obtain ⟨_, -, _, -, _, -, _, -, resources, hresources, _, -, _, -, rfl⟩ := hread
  obtain ⟨q, rfl, hq⟩ := Option.bind_eq_some_iff.1 h
  obtain ⟨j, hj⟩ := Shape.exists_of_lastMember? hresources
  simp only [Resources.ofJson?, bind, Option.bind_eq_some_iff, Option.some.injEq] at hj
  obtain ⟨_, -, _, -, _, -, read, hclaims, rfl⟩ := hj
  dsimp only at hq
  rw [hq] at hclaims
  obtain ⟨_, hplain⟩ := Shape.exists_of_lastMember? hclaims
  exact (resourceClaims_plain hplain).2

theorem Pod.exists_container {doc : Json} {p : Pod} (hread : Pod.ofJson? doc = some p)
    {c : Container} (hc : c ∈ p.containers) : ∃ v, Container.ofJson? v = some c := by
  obtain ⟨l, -, hread⟩ := Option.bind_eq_some_iff.1 hread
  split at hread
  · simp only [Option.bind_eq_some_iff, bind, Option.some.injEq] at hread
    obtain ⟨_, -, spec, hspec, _, -, rfl⟩ := hread
    cases spec with
    | none => simp [Pod.containers] at hc
    | some s =>
      obtain ⟨j, hj⟩ := Shape.exists_of_lastMember? hspec
      simp only [Spec.ofJson?, bind, Option.bind_eq_some_iff, Option.some.injEq] at hj
      obtain ⟨_, -, stored, hstored, _, -, rfl⟩ := hj
      cases stored with
      | none => simp [Pod.containers] at hc
      | some cs =>
        obtain ⟨items, hitems⟩ := Shape.exists_of_lastMember? hstored
        cases items with
        | arr values =>
          obtain ⟨v, -, hv⟩ := Shape.exists_of_mem_mapM hitems hc
          exact ⟨v, hv⟩
        | _ => simp [readList?] at hitems
  · cases hread

theorem exists_grown {l l' : List Container} (h : List.Forall₂ Container.Grows l l') {d : Container}
    (hd : d ∈ l') : ∃ c ∈ l, c.Grows d := by
  induction h with
  | nil => cases hd
  | cons hgrows _ ih =>
    rcases List.mem_cons.1 hd with rfl | hd
    · exact ⟨_, List.mem_cons_self, hgrows⟩
    · obtain ⟨c, hc, hgrows⟩ := ih hd
      exact ⟨c, List.mem_cons_of_mem _ hc, hgrows⟩

/-- A patch between pods that are read has the claims of the first one. -/
theorem ResizePatch.between?_plainClaims {doc : Json} (hread : Pod.ofJson? doc = some before)
    (hgrow : before.ContainersGrow after)
    (h : ResizePatch.between? before after version = some r) : PlainClaims r.containers := by
  rw [ResizePatch.between?_containers h]
  intro p hp claims hclaims
  obtain ⟨d, hd, rfl⟩ := List.mem_map.1 hp
  obtain ⟨c, hc, hgrows⟩ := exists_grown hgrow (List.mem_filter.1 hd).1
  obtain ⟨v, hv⟩ := Pod.exists_container hread hc
  exact Container.claims_plain hv (hgrows.claims.symm.trans hclaims)

end Resources

theorem Container.Grows.refl (c : Container) : c.Grows c :=
  ⟨rfl, rfl, fun r hr => ⟨r, hr, fun t ht => ⟨t, ht, fun _ hk => hk⟩,
    fun t ht => ⟨t, ht, fun _ hk => hk⟩⟩⟩

theorem Container.grows_withUpdates (c : Container) (updates : List ResourceUpdate) :
    c.Grows (c.withUpdates updates) := by
  by_cases hnil : updates = []
  · rw [hnil]
    exact .refl c
  · obtain ⟨requests, limits, hresources⟩ := c.resources_withUpdates hnil
    refine ⟨c.withUpdates_frame updates, by rw [hresources]; rfl, fun r hr => ⟨_, hresources, ?_, ?_⟩⟩
    · intro t ht
      refine ⟨requests, rfl, fun k hk => ?_⟩
      have hhad : (c.quantity? .request k).isSome = true := by
        simpa [quantity?, request?, hr, ht] using hk
      simpa [quantity?, request?, hresources] using quantity?_withUpdates_isSome updates hhad
    · intro t ht
      refine ⟨limits, rfl, fun k hk => ?_⟩
      have hhad : (c.quantity? .limit k).isSome = true := by
        simpa [quantity?, limit?, hr, ht] using hk
      simpa [quantity?, limit?, hresources] using quantity?_withUpdates_isSome updates hhad

theorem forall₂_updateFirst {α : Type} {R : α → α → Prop} {test : α → Bool} {f : α → α}
    (hrefl : ∀ a, R a a) (hf : ∀ a, R a (f a)) (l : List α) :
    List.Forall₂ R l (updateFirst test f l) := by
  induction l with
  | nil => exact .nil
  | cons a rest ih =>
    unfold updateFirst
    split
    · exact .cons (hf a) (List.forall₂_same.2 fun b _ => hrefl b)
    · exact .cons (hrefl a) ih

theorem Pod.containersGrow_withResources (p : Pod) (name : String) (updates : List ResourceUpdate) :
    p.ContainersGrow (p.withResources name updates) := by
  have hcontainers : (p.withResources name updates).containers =
      updateFirst (·.name = name) (·.withUpdates updates) p.containers := by
    obtain ⟨metadata, spec, status⟩ := p
    cases spec <;> rfl
  rw [ContainersGrow, hcontainers]
  exact forall₂_updateFirst .refl (·.grows_withUpdates updates) p.containers

/-- Patches reproduce the mutated pod. There is a patch of metadata just if labels or annotations differ.
It names what differs and the version, and nothing else; merged into the first pod, or into any document
of it that repeats no name, it gives the labels and annotations of the second one, if no key has been
lost. Where entries of requests and limits have been added or replaced, and containers have different
names, there is a patch of resources just if some container's resources differ. It names those containers;
merged into the first pod or its document, with the containers by name, it gives the containers of the
second one. -/
theorem patches_reproduce (before after : Pod) (version : Option String) :
    (MetadataPatch.between? before after version = none ↔
      before.metadata.labels = after.metadata.labels ∧
        before.metadata.annotations = after.metadata.annotations) ∧
    (∀ m, MetadataPatch.between? before after version = some m →
      (∃ members, m.toJson = .record [("metadata", .record members)] ∧
        members.map (·.1) = patchedMembers before after version ∧
        members.lookup "resourceVersion" = version.map .text) ∧
      (KeepsKeys before.metadata.labels after.metadata.labels →
        KeepsKeys before.metadata.annotations after.metadata.annotations →
          m.merge before = before.withTables after ∧
          ∀ doc, doc.distinct = true → Pod.ofJson? doc = some before →
            Pod.ofJson? (doc.merge m.toJson) =
              some ((before.withTables after).withVersion (version.or before.resourceVersion)))) ∧
    (before.ContainersGrow after → (before.containers.map (·.name)).Nodup →
      (ResizePatch.between? before after version = none ↔
        ∀ n, (before.container? n).map (·.resources) = (after.container? n).map (·.resources)) ∧
      ∀ r, ResizePatch.between? before after version = some r →
        (∃ items, r.toJson = .record [("metadata", .record (versionMembers version)),
            ("spec", .record [("containers", .arr items)])] ∧
          (items.map Json.itemName).Nodup ∧
          ∀ n, n ∈ items.map Json.itemName ↔
            (before.container? n).map (·.resources) ≠ (after.container? n).map (·.resources)) ∧
        r.merge? before = some (before.mapContainers fun _ => after.containers) ∧
        ∀ doc, doc.distinct = true → Pod.ofJson? doc = some before →
          Pod.ofJson? (doc.mergeStrategic r.toJson) =
            some ((before.mapContainers fun _ => after.containers).withVersion
              (version.or before.resourceVersion))) := by
  refine ⟨MetadataPatch.between?_eq_none, fun m hm => ⟨MetadataPatch.toJson_between hm, ?_⟩,
    fun hgrow hnames => ⟨ResizePatch.between?_eq_none_iff hgrow hnames, fun r hr => ⟨?_, ?_, ?_⟩⟩⟩
  · intro hlabels hannotations
    have hmerge := MetadataPatch.merge_between hm hlabels hannotations
    refine ⟨hmerge, fun doc hd hread => ?_⟩
    rw [MetadataPatch.ofJson?_merge hd hread m, hmerge, MetadataPatch.between?_version hm]
  · have hitems : (r.containers.map containerPatch).map Json.itemName = r.containers.map (·.1) := by
      rw [List.map_map]
      rfl
    refine ⟨r.containers.map containerPatch, ?_, ?_⟩
    · rw [← ResizePatch.between?_version hr]
      rfl
    · rw [hitems]
      exact ResizePatch.between?_names hr hgrow hnames
  · exact ResizePatch.merge?_between hr hgrow hnames
  · intro doc hd hread
    rw [ResizePatch.ofJson?_merge hd hread (ResizePatch.between?_ne_nil hr)
      (ResizePatch.between?_plainClaims hread hgrow hr) (ResizePatch.merge?_between hr hgrow hnames),
      ResizePatch.between?_version hr]

def requestingPod : Pod where
  metadata :=
    { namespaceName := some "ns"
      name := some "pod"
      resourceVersion := some "7"
      labels := some (.ofList [("team", "blue")]) }
  spec := some
    { containers :=
        [{ name := "app", resources := some { requests := some (.ofList [("cpu", "1")]) } },
          { name := "side" }] }

def commandedPod : Pod :=
  Pod.setAnnotation (requestingPod.withResources "app" [⟨.cpu, "2", "2"⟩]) Key.status "{}"

theorem commandedPod_reproduced :
    ∃ m r, MetadataPatch.between? requestingPod commandedPod (some "7") = some m ∧
      ResizePatch.between? requestingPod commandedPod (some "7") = some r ∧
      Pod.ofJson? (requestingPod.toJson.merge m.toJson) =
        some ((requestingPod.withTables commandedPod).withVersion (some "7")) ∧
      Pod.ofJson? (requestingPod.toJson.mergeStrategic r.toJson) =
        some ((requestingPod.mapContainers fun _ => commandedPod.containers).withVersion
          (some "7")) := by
  have hdistinct : requestingPod.toJson.distinct = true := by decide +kernel
  have hread : Pod.ofJson? requestingPod.toJson = some requestingPod := by decide +kernel
  have hgrow : requestingPod.ContainersGrow commandedPod :=
    requestingPod.containersGrow_withResources "app" [⟨.cpu, "2", "2"⟩]
  obtain ⟨-, hmetadata, hresize⟩ := patches_reproduce requestingPod commandedPod (some "7")
  obtain ⟨-, hresize⟩ := hresize hgrow (by decide)
  obtain ⟨m, hm⟩ : ∃ m, MetadataPatch.between? requestingPod commandedPod (some "7") = some m :=
    ⟨_, rfl⟩
  obtain ⟨r, hr⟩ : ∃ r, ResizePatch.between? requestingPod commandedPod (some "7") = some r :=
    ⟨_, rfl⟩
  obtain ⟨-, hmerged⟩ := hmetadata m hm
  obtain ⟨-, hdocument⟩ := hmerged (fun _ hk => hk) (fun _ hk => by cases hk)
  obtain ⟨-, -, hresized⟩ := hresize r hr
  exact ⟨m, r, hm, hr, hdocument _ hdistinct hread, hresized _ hdistinct hread⟩

end PodSizing
