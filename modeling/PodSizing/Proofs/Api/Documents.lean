import PodSizing.Proofs.Api.Merge
import PodSizing.Proofs.Pod.Reading

/-!
# Patches of documents

The bodies of patches, merged into the document of a pod, give the document of the pod that the patches
make of it: the tables of its metadata as a merge patch does it, and the resources of its containers with
the containers taken by name.
-/
namespace PodSizing
open Json (mergeNamed mergedMember record)
open Shape (table? member?)

variable {named : Option String → Bool} {byName : Bool}

/-- What is read by its members is an object, and names each of them once if it is distinct. -/
theorem exists_members {α : Type} {j : Json} {read : Members → Option α} {a : α}
    (hd : j.distinct = true) (h : (objectMembers? j).bind read = some a) :
    ∃ l, j = .record l ∧ (l.map (·.1)).Nodup := by
  obtain ⟨l, hl, -⟩ := Option.bind_eq_some_iff.1 h
  obtain rfl := objectMembers?_iff.1 hl
  exact ⟨l, rfl, (distinct_record hd).1⟩

def orEmpty : Option Json → Json
  | none | some .null => .record []
  | some j => j

theorem mergeNamed_orEmpty (old : Option Json) (p : Members) :
    mergeNamed named byName (old.getD .null) (.record p) =
      mergeNamed named byName (orEmpty old) (.record p) := by
  cases old with
  | none => rfl
  | some j => cases j <;> rfl

theorem orEmpty_distinct {old : Option Json} (h : ∀ j, old = some j → j.distinct = true) :
    (orEmpty old).distinct = true := by
  cases old with
  | none => rfl
  | some j =>
    have hj := h j rfl
    cases j <;> first | rfl | exact hj

theorem read_orEmpty {α : Type} {read : Json → Option α} {old : Option Json} {stored : Option α}
    {default : α} (hempty : read (.record []) = some default)
    (h : member? read old = some stored) : read (orEmpty old) = some (stored.getD default) := by
  cases old with
  | none =>
    cases h
    exact hempty
  | some j =>
    cases j with
    | null =>
      cases h
      exact hempty
    | _ =>
      obtain ⟨a, ha, rfl⟩ := Option.map_eq_some_iff.1 h
      exact ha

theorem mergedMember_record (name : Option String) (old : Option Json) (p : Members) :
    mergedMember named name old (some (.record p)) =
      some (mergeNamed named (named name) (orEmpty old) (.record p)) :=
  congrArg some (mergeNamed_orEmpty old p)

theorem mergedMember_text (name : Option String) (old : Option Json) (s : String) :
    mergedMember named name old (some (.text s)) = some (.text s) := by
  simp only [mergedMember, Json.text, mergeNamed]

theorem member?_some {α : Type} {read : Json → Option α} {j : Json} {a : α} (h : read j = some a)
    (hnull : read .null = none) : member? read (some j) = some (some a) := by
  cases j with
  | null => simp [hnull] at h
  | _ => simp [member?, h]

theorem exists_members_of_table? {j : Json} {t : Keyed String} (hd : j.distinct = true)
    (h : table? Json.readString? j = some t) : ∃ l, j = .record l ∧ (l.map (·.1)).Nodup := by
  cases j with
  | obj members => exact exists_members hd h
  | _ => cases h

theorem table?_merged (named : Option String → Bool) (byName : Bool) {j : Json}
    {stored : Keyed String} (hd : j.distinct = true)
    (hread : table? Json.readString? j = some stored) (t : Keyed String) :
    table? Json.readString? (mergeNamed named byName j (writeTable t)) =
      some (stored.overlay t) := by
  obtain ⟨l, rfl, hnodup⟩ := exists_members_of_table? hd hread
  have hkeys : ((t.entries.map fun e => (e.1, Json.text e.2)).map (·.1)).Nodup := by
    simpa [Function.comp_def] using t.nodup_keys
  obtain ⟨merged, hmerged, hnodup', hlookup⟩ :=
    Json.mergeNamed_record named byName hnodup hkeys
  rw [writeTable, Shape.ofTable, hmerged, Shape.table?_record_iff hnodup']
  intro k
  rw [hlookup, Shape.lookup_texts, (Shape.table?_record_iff hnodup stored).1 hread,
    Keyed.get?_overlay]
  change mergedMember _ _ _ ((t.get? k).map Json.text) = _
  cases t.get? k with
  | none => rfl
  | some s => exact mergedMember_text _ _ s

theorem member?_mergedTable {old : Option Json} {stored : Option (Keyed String)}
    (hd : ∀ j, old = some j → j.distinct = true)
    (hread : member? (table? Json.readString?) old = some stored) (name : Option String)
    (patch : Option (Option (Keyed String))) :
    member? (table? Json.readString?)
        (mergedMember named name old (patch.map (writeOptional writeTable))) =
      some (mergeMember stored patch) := by
  match patch with
  | none => exact hread
  | some none => rfl
  | some (some t) =>
    exact (congrArg _ (mergedMember_record name old _)).trans
      (member?_some (table?_merged named _ (orEmpty_distinct hd) (read_orEmpty rfl hread) t) rfl)

def metadataMembers (version : Option String) (labels annotations : Option (Option (Keyed String))) :
    Members :=
  versionMembers version ++ writeMember "labels" (writeOptional writeTable) labels
    ++ writeMember "annotations" (writeOptional writeTable) annotations

theorem metadataMembers_lookup (version : Option String)
    (labels annotations : Option (Option (Keyed String))) :
    let members := metadataMembers version labels annotations
    members.lookup "resourceVersion" = version.map .text ∧
      members.lookup "labels" = labels.map (writeOptional writeTable) ∧
      members.lookup "annotations" = annotations.map (writeOptional writeTable) ∧
      ∀ n, n ≠ "resourceVersion" → n ≠ "labels" → n ≠ "annotations" → members.lookup n = none := by
  cases version <;> cases labels <;> cases annotations <;>
    simp +contextual [metadataMembers, versionMembers, writeMember, Keyed.lookup_cons_ite]

theorem metadataMembers_nodup (version : Option String)
    (labels annotations : Option (Option (Keyed String))) :
    ((metadataMembers version labels annotations).map (·.1)).Nodup := by
  cases version <;> cases labels <;> cases annotations <;>
    simp [metadataMembers, versionMembers, writeMember]

theorem Metadata.ofJson?_members {l : Members} (hnodup : (l.map (·.1)).Nodup) {m : Metadata}
    (h : Metadata.ofJson? (.record l) = some m) :
    member? Json.readString? (l.lookup "resourceVersion") = some m.resourceVersion ∧
      member? (table? Json.readString?) (l.lookup "labels") = some m.labels ∧
      member? (table? Json.readString?) (l.lookup "annotations") = some m.annotations := by
  simp only [ofJson?, objectMembers?_record, bind, Option.bind_some, Shape.lastMember?_eq hnodup,
    Option.bind_eq_some_iff, Option.some.injEq] at h
  obtain ⟨_, -, _, -, _, -, _, hversion, _, hlabels, _, hannotations, _, -, _, -, _, -, rfl⟩ := h
  exact ⟨hversion, hlabels, hannotations⟩

theorem Metadata.ofJson?_merged (named : Option String → Bool) (byName : Bool) {j : Json}
    {m : Metadata} (hd : j.distinct = true) (hread : Metadata.ofJson? j = some m)
    (version : Option String) (labels annotations : Option (Option (Keyed String))) :
    Metadata.ofJson? (mergeNamed named byName j
        (.record (metadataMembers version labels annotations))) =
      some
        { m with
          resourceVersion := version.or m.resourceVersion
          labels := mergeMember m.labels labels
          annotations := mergeMember m.annotations annotations } := by
  obtain ⟨l, rfl, hnodup⟩ := exists_members hd hread
  obtain ⟨merged, hmerged, hnodup', hlookup⟩ := Json.mergeNamed_record named byName hnodup
    (metadataMembers_nodup version labels annotations)
  obtain ⟨hversion, hlabels, hannotations, hothers⟩ :=
    metadataMembers_lookup version labels annotations
  obtain ⟨hstoredVersion, hstoredLabels, hstoredAnnotations⟩ :=
    Metadata.ofJson?_members hnodup hread
  rw [hmerged]
  refine Metadata.ofJson?_changed hnodup hnodup' hread (fun n hv hl ha => ?_) ?_ ?_ ?_
  · rw [hlookup, hothers n hv hl ha]
    rfl
  · rw [hlookup, hversion]
    cases version with
    | none => exact hstoredVersion
    | some v => rw [Option.map_some, mergedMember_text]; rfl
  · rw [hlookup, hlabels]
    exact member?_mergedTable (distinct_lookup hd) hstoredLabels _ labels
  · rw [hlookup, hannotations]
    exact member?_mergedTable (distinct_lookup hd) hstoredAnnotations _ annotations

theorem Pod.ofJson?_members {l : Members} (hnodup : (l.map (·.1)).Nodup) {p : Pod}
    (h : Pod.ofJson? (.record l) = some p) :
    ∃ metadata, member? Metadata.ofJson? (l.lookup "metadata") = some metadata ∧
      metadata.getD {} = p.metadata ∧ member? Spec.ofJson? (l.lookup "spec") = some p.spec := by
  simp only [ofJson?, objectMembers?_record, bind, Option.bind_some, Shape.lastMember?_eq hnodup] at h
  split at h
  · simp only [Option.bind_eq_some_iff, Option.some.injEq] at h
    obtain ⟨metadata, hmetadata, _, hspec, _, -, rfl⟩ := h
    exact ⟨metadata, hmetadata, rfl, hspec⟩
  · cases h

/-- A pod's document merged with a patch of its metadata and perhaps its specification. -/
theorem Pod.ofJson?_merged (named : Option String → Bool) {doc : Json} {p : Pod}
    (hd : doc.distinct = true) (hread : Pod.ofJson? doc = some p) {patch : Members}
    (hpatch : (patch.map (·.1)).Nodup) {version : Option String}
    {labels annotations : Option (Option (Keyed String))} {spec : Option Spec}
    (hmetadata : patch.lookup "metadata" =
      some (.record (metadataMembers version labels annotations)))
    (hspec : ∀ old, (∀ j, old = some j → j.distinct = true) →
      member? Spec.ofJson? old = some p.spec →
        member? Spec.ofJson? (mergedMember named (some "spec") old (patch.lookup "spec")) = some spec)
    (hothers : ∀ n, n ≠ "metadata" → n ≠ "spec" → patch.lookup n = none) :
    Pod.ofJson? (mergeNamed named false doc (.record patch)) =
      some
        { p with
          metadata :=
            { p.metadata with
              resourceVersion := version.or p.metadata.resourceVersion
              labels := mergeMember p.metadata.labels labels
              annotations := mergeMember p.metadata.annotations annotations }
          spec } := by
  obtain ⟨l, rfl, hnodup⟩ := exists_members hd hread
  obtain ⟨metadata, hbefore, hp, hspecBefore⟩ := Pod.ofJson?_members hnodup hread
  obtain ⟨merged, hmerged, hnodup', hlookup⟩ := Json.mergeNamed_record named false hnodup hpatch
  have hafter := member?_some (Metadata.ofJson?_merged named (named (some "metadata"))
    (orEmpty_distinct (distinct_lookup hd)) (read_orEmpty rfl hbefore) version labels annotations) rfl
  rw [← mergedMember_record, ← hmetadata, ← hlookup] at hafter
  rw [hmerged, ← hp]
  refine Pod.ofJson?_changed hnodup hnodup' hread (fun n hm hs => ?_) hafter ?_
  · rw [hlookup, hothers n hm hs]
    rfl
  · rw [hlookup]
    exact hspec _ (distinct_lookup hd) hspecBefore

/-- The body of a patch of metadata, merged into a pod's document, gives that of the pod that the patch
makes, under the version of the patch. -/
theorem MetadataPatch.ofJson?_merge {doc : Json} {p : Pod} (hd : doc.distinct = true)
    (hread : Pod.ofJson? doc = some p) (m : MetadataPatch) :
    Pod.ofJson? (doc.merge m.toJson) =
      some ((m.merge p).withVersion (m.version.or p.resourceVersion)) := by
  let patch : Members := [("metadata", .record (metadataMembers m.version m.labels m.annotations))]
  have hothers : ∀ n, n ≠ "metadata" → n ≠ "spec" → patch.lookup n = none := by
    intro n hm _
    simp [patch, Keyed.lookup_cons_ite, hm]
  rw [← Json.mergeNamed_eq_merge]
  exact Pod.ofJson?_merged (fun _ => false) hd hread (by simp)
    (Keyed.lookup_cons_ite _ _ _) (fun old _ hold => hold) hothers

theorem mapM_eq_self {α : Type} {f : α → Option α} {l : List α} (h : ∀ a ∈ l, f a = some a) :
    l.mapM f = some l := by
  induction l with
  | nil => rfl
  | cons a rest ih =>
    rw [List.forall_mem_cons] at h
    rw [List.mapM_cons, h.1, ih h.2]
    rfl

def claimShape : Shape := .record [Shape.required "name" .text, Shape.optional "request" .text]

theorem lastMember?_text {l : Members} {name : String} {value : Json}
    (h : Shape.lastMember? (fun j => Shape.plain? .text j) name l = some (some value)) :
    ∃ s, value = .text s := by
  obtain ⟨j, hj⟩ := Shape.exists_of_lastMember? h
  cases j with
  | str text =>
    cases text with
    | none => simp [Shape.plain?] at hj
    | some s => exact ⟨s, by simpa [Shape.plain?, eq_comm] using hj⟩
  | _ => simp [Shape.plain?] at hj

/-- The plain form of a claim is its own plain form. -/
theorem claimShape_plain {j claim : Json} (h : claimShape.plain? j = some claim) :
    claimShape.plain? claim = some claim := by
  -- a claim has a name, and a request or none
  have hplain (name : String) (request : Option String) :
      claimShape.plain? (.record (("name", .text name) :: writeMember "request" .text request)) =
        some (.record (("name", .text name) :: writeMember "request" .text request)) := by
    cases request <;> rfl
  cases j with
  | obj members =>
    simp only [claimShape, Shape.plain?, Shape.required, Shape.optional, Shape.plainFields?, bind,
      Option.bind_eq_some_iff, Option.map_eq_some_iff, Option.some.injEq] at h
    obtain ⟨l, -, fields, ⟨name, hname, rest, ⟨request, hrequest, _, rfl, hrest⟩, hfields⟩, rfl⟩ := h
    have hrest' : ∃ text, rest = writeMember "request" .text text := by
      cases request with
      | none => exact ⟨none, by simpa [writeMember, eq_comm] using hrest⟩
      | some value =>
        obtain ⟨s, rfl⟩ := lastMember?_text hrequest
        exact ⟨some s, by simpa [writeMember, eq_comm] using hrest⟩
    have hfields' : ∃ text, fields = ("name", .text text) :: rest := by
      cases name with
      | none => exact ⟨"", by simpa [Shape.defaultValue, eq_comm] using hfields⟩
      | some value =>
        obtain ⟨s, rfl⟩ := lastMember?_text hname
        exact ⟨s, by simpa [eq_comm] using hfields⟩
    obtain ⟨request, rfl⟩ := hrest'
    obtain ⟨name, rfl⟩ := hfields'
    exact hplain name request
  | _ => simp [claimShape, Shape.plain?] at h

theorem plain?_resourceClaims (values : List Json) : Schema.resourceClaims.plain? (.arr values) =
    (values.mapM fun value => claimShape.plain? value).map .arr := by
  simp [Schema.resourceClaims, claimShape, Shape.plain?]

theorem resourceClaims_plain {j claims : Json} (h : Schema.resourceClaims.plain? j = some claims) :
    (∃ items, claims = .arr items) ∧ Schema.resourceClaims.plain? claims = some claims := by
  cases j with
  | arr values =>
    rw [plain?_resourceClaims] at h
    obtain ⟨items, hitems, rfl⟩ := Option.map_eq_some_iff.1 h
    have hagain : items.mapM (fun value => claimShape.plain? value) = some items :=
      mapM_eq_self fun item hitem => by
        obtain ⟨value, -, hvalue⟩ := Shape.exists_of_mem_mapM hitems hitem
        exact claimShape_plain hvalue
    refine ⟨⟨items, rfl⟩, ?_⟩
    rw [plain?_resourceClaims, hagain, Option.map_some]
  | null | bool | num | str | obj => simp [Schema.resourceClaims, Shape.plain?] at h

theorem resources_lookup (r : Resources) :
    let members := writeMember "claims" id r.claims ++ writeMember "limits" writeTable r.limits
      ++ writeMember "requests" writeTable r.requests
    (members.map (·.1)).Nodup ∧ members.lookup "requests" = r.requests.map writeTable ∧
      members.lookup "limits" = r.limits.map writeTable ∧ members.lookup "claims" = r.claims := by
  obtain ⟨requests, limits, claims⟩ := r
  cases requests <;> cases limits <;> cases claims <;>
    simp [writeMember, Keyed.lookup_cons_ite]

theorem member?_mergedResourceTable {old : Option Json} {stored : Option (Keyed String)}
    (hd : ∀ j, old = some j → j.distinct = true)
    (hread : member? (table? Json.readString?) old = some stored) (name : Option String)
    (patch : Option (Keyed String)) :
    member? (table? Json.readString?) (mergedMember named name old (patch.map writeTable)) =
      some (mergeTable stored patch) := by
  cases patch with
  | none => exact member?_mergedTable hd hread name none
  | some t => exact member?_mergedTable hd hread name (some (some t))

theorem Resources.ofJson?_empty : Resources.ofJson? (.record []) = some {} := rfl

theorem Resources.ofJson?_merged (byName : Bool) {j : Json}
    {stored : Resources} (hnamed : named (some "claims") = false) (hd : j.distinct = true)
    (hread : Resources.ofJson? j = some stored) (r : Resources)
    (hclaims : ∀ claims, r.claims = some claims →
      Schema.resourceClaims.plain? claims = some claims) :
    Resources.ofJson? (mergeNamed named byName j r.toJson) =
      mergeResources (some stored) (some r) := by
  obtain ⟨l, rfl, hnodup⟩ := exists_members hd hread
  obtain ⟨hpatch, hrequests, hlimits, hclaimed⟩ := resources_lookup r
  obtain ⟨merged, hmerged, hnodup', hlookup⟩ := Json.mergeNamed_record named byName hnodup hpatch
  simp only [Resources.ofJson?, objectMembers?_record, bind, Option.bind_some,
    Shape.lastMember?_eq hnodup, Option.bind_eq_some_iff, Option.some.injEq] at hread
  obtain ⟨requests, hrequestsRead, limits, hlimitsRead, claims, hclaimsRead, rfl⟩ := hread
  have hclaimsAfter : member? Schema.resourceClaims.plain? (merged.lookup "claims") =
      some (r.claims.orElse fun _ => claims) := by
    rw [hlookup, hclaimed]
    cases hc : r.claims with
    | none => exact hclaimsRead
    | some c =>
      obtain ⟨⟨items, rfl⟩, hplain⟩ := resourceClaims_plain (hclaims c hc)
      simp [mergedMember, mergeNamed, hnamed, member?, hplain]
  rw [toJson, hmerged]
  simp only [Resources.ofJson?, objectMembers?_record, bind, Option.bind_some,
    Shape.lastMember?_eq hnodup']
  rw [hclaimsAfter, hlookup, hlookup, hrequests, hlimits,
    member?_mergedResourceTable (distinct_lookup hd) hrequestsRead,
    member?_mergedResourceTable (distinct_lookup hd) hlimitsRead]
  rfl

def containerPatch (c : String × Option Resources) : Json :=
  .record [("name", .text c.1), ("resources", writeOptional Resources.toJson c.2)]

def PlainClaims (patches : List (String × Option Resources)) : Prop :=
  ∀ c ∈ patches, ∀ claims, c.2.bind (·.claims) = some claims →
    Schema.resourceClaims.plain? claims = some claims

theorem itemName_containerPatch (c : String × Option Resources) :
    Json.itemName (containerPatch c) = c.1 := rfl

theorem Container.ofJson?_members {l : Members} (hnodup : (l.map (·.1)).Nodup) {c : Container}
    (h : Container.ofJson? (.record l) = some c) :
    (∃ name, member? Json.readString? (l.lookup "name") = some name ∧ name.getD "" = c.name) ∧
      member? Resources.ofJson? (l.lookup "resources") = some c.resources := by
  simp only [ofJson?, objectMembers?_record, bind, Option.bind_some, readRequiredText?,
    Shape.lastMember?_eq hnodup, Option.bind_eq_some_iff, Option.map_eq_some_iff,
    Option.some.injEq] at h
  obtain ⟨_, ⟨name, hname, rfl⟩, _, -, _, -, _, hresources, _, -, _, -, rfl⟩ := h
  exact ⟨⟨name, hname, rfl⟩, hresources⟩

theorem Container.itemName_eq {v : Json} {c : Container} (hd : v.distinct = true)
    (hread : Container.ofJson? v = some c) : Json.itemName v = c.name := by
  obtain ⟨l, rfl, hnodup⟩ := exists_members hd hread
  obtain ⟨⟨name, hname, hc⟩, -⟩ := Container.ofJson?_members hnodup hread
  simp only [Json.itemName, Json.membersOf, record, Json.lookup_record, ← hc]
  cases hlookup : l.lookup "name" with
  | none =>
    rw [hlookup] at hname
    cases hname
    rfl
  | some value =>
    rw [hlookup] at hname
    cases value with
    | null =>
      cases hname
      rfl
    | str text =>
      obtain ⟨s, hs, rfl⟩ := Option.map_eq_some_iff.1 hname
      exact congrArg (·.getD "") hs
    | _ => cases hname

/-- A container merged with what a patch says of it. -/
theorem Container.ofJson?_merged {v : Json} {c : Container}
    (hnamed : named (some "claims") = false) (hd : v.distinct = true)
    (hread : Container.ofJson? v = some c) (resources : Option Resources)
    (hclaims : ∀ claims, resources.bind (·.claims) = some claims →
      Schema.resourceClaims.plain? claims = some claims) :
    Container.ofJson? (mergeNamed named false v (containerPatch (c.name, resources))) =
      some { c with resources := mergeResources c.resources resources } := by
  obtain ⟨l, rfl, hnodup⟩ := exists_members hd hread
  let patch : Members :=
    [("name", .text c.name), ("resources", writeOptional Resources.toJson resources)]
  obtain ⟨merged, hmerged, hnodup', hlookup⟩ :=
    Json.mergeNamed_record named false hnodup (p := patch) (by simp [patch])
  have hstored := (Container.ofJson?_members hnodup hread).2
  have hname : patch.lookup "name" = some (.text c.name) := Keyed.lookup_cons_ite _ _ _
  have hresources : patch.lookup "resources" = some (writeOptional Resources.toJson resources) := by
    simp [patch, Keyed.lookup_cons_ite]
  have hothers : ∀ n, n ≠ "name" → n ≠ "resources" → patch.lookup n = none := by
    intro n hn hr
    simp [patch, Keyed.lookup_cons_ite, hn, hr]
  have hbody : containerPatch (c.name, resources) = .record patch := rfl
  rw [hbody, hmerged]
  refine Container.ofJson?_changed hnodup hnodup' hread (fun n hn hr => ?_) ?_ ?_
  · rw [hlookup, hothers n hn hr]
    rfl
  · rw [hlookup, hname, mergedMember_text]
    rfl
  · rw [hlookup, hresources]
    cases resources with
    | none => rfl
    | some r =>
      have hread' := Resources.ofJson?_merged (named (some "resources")) hnamed
        (orEmpty_distinct (distinct_lookup hd)) (read_orEmpty Resources.ofJson?_empty hstored) r hclaims
      have hempty : mergeResources (some (c.resources.getD {})) (some r) =
          mergeResources c.resources (some r) := by
        cases c.resources <;> rfl
      rw [hempty] at hread'
      exact (congrArg _ (mergedMember_record _ _ _)).trans (member?_some hread' rfl)

theorem mergeInto_containerPatches (named : Option String → Bool) (v : Json)
    (patches : List (String × Option Resources)) :
    Json.mergeInto named v (patches.map containerPatch) =
      match patches.lookup (Json.itemName v) with
      | some resources => mergeNamed named false v (containerPatch (Json.itemName v, resources))
      | none => v := by
  induction patches with
  | nil => simp only [List.map_nil, Json.mergeInto, List.lookup_nil]
  | cons c rest ih =>
    simp only [List.map_cons, Json.mergeInto, itemName_containerPatch, Keyed.lookup_cons_ite, ih]
    by_cases hc : c.1 = Json.itemName v
    · simp only [hc, if_true]
      rw [← hc]
    · simp only [hc, if_neg (Ne.symm hc), if_false]

theorem mapM_map_eq_some {α β : Type} {f : α → Option β} {g : α → α} {h : β → β} {l : List α}
    {l' : List β} (hread : l.mapM f = some l')
    (hg : ∀ a ∈ l, ∀ b, f a = some b → f (g a) = some (h b)) :
    (l.map g).mapM f = some (l'.map h) := by
  induction l generalizing l' with
  | nil =>
    cases hread
    rfl
  | cons a rest ih =>
    simp only [List.mapM_cons, bind, Option.bind_eq_some_iff, pure, Option.some.injEq] at hread
    obtain ⟨first, hfirst, later, hlater, rfl⟩ := hread
    rw [List.forall_mem_cons] at hg
    rw [List.map_cons, List.mapM_cons, hg.1 first hfirst, ih hlater hg.2]
    rfl

theorem containers_merged {vs : List Json} {cs : List Container}
    (hnamed : named (some "claims") = false) (hd : ∀ v ∈ vs, v.distinct = true)
    (hread : vs.mapM Container.ofJson? = some cs) {patches : List (String × Option Resources)}
    (hclaims : PlainClaims patches) :
    (vs.map fun v => Json.mergeInto named v (patches.map containerPatch)).mapM
        Container.ofJson? = some (cs.map (·.mergeFrom patches)) := by
  refine mapM_map_eq_some hread fun v hv c hc => ?_
  rw [mergeInto_containerPatches, Container.itemName_eq (hd v hv) hc, Container.mergeFrom]
  cases hlookup : patches.lookup c.name with
  | none => exact hc
  | some resources =>
    refine Container.ofJson?_merged hnamed (hd v hv) hc resources ?_
    obtain ⟨before, after, hsplit, -⟩ := List.lookup_eq_some_iff.1 hlookup
    exact hclaims (c.name, resources) (by simp [hsplit])

/-- A patch of containers that are there adds none. -/
theorem newItems_containerPatches {vs : List Json} {cs : List Container}
    (hd : ∀ v ∈ vs, v.distinct = true) (hread : vs.mapM Container.ofJson? = some cs)
    {patches : List (String × Option Resources)} (hin : ∀ p ∈ patches, p.1 ∈ cs.map (·.name)) :
    Json.newItems vs (patches.map containerPatch) = [] := by
  rw [Json.newItems, List.filter_eq_nil_iff]
  intro item hitem hnew
  obtain ⟨p, hp, rfl⟩ := List.mem_map.1 hitem
  obtain ⟨c, hc, hname⟩ := List.mem_map.1 (hin p hp)
  obtain ⟨v, hv, hvc⟩ := Shape.exists_of_mem_mapM hread hc
  have hother := List.all_eq_true.1 hnew v hv
  rw [Container.itemName_eq (hd v hv) hvc, hname, itemName_containerPatch] at hother
  simp at hother

theorem Spec.ofJson?_empty : Spec.ofJson? (.record []) = some { containers := [] } := rfl

theorem Spec.containers_read {l : Members} {s : Spec} (hd : (Json.record l).distinct = true)
    (hread : Spec.ofJson? (.record l) = some s) :
    ∃ vs, Json.itemsOf ((l.lookup "containers").getD .null) = vs ∧
      (∀ v ∈ vs, v.distinct = true) ∧ vs.mapM Container.ofJson? = some s.containers := by
  simp only [ofJson?, objectMembers?_record, bind, Option.bind_some,
    Shape.lastMember?_eq (distinct_record hd).1, Option.bind_eq_some_iff, Option.some.injEq] at hread
  obtain ⟨stored, hstored, _, -, rfl⟩ := hread
  cases hlookup : l.lookup "containers" with
  | none =>
    rw [hlookup] at hstored
    cases hstored
    exact ⟨[], rfl, fun _ hv => absurd hv List.not_mem_nil, rfl⟩
  | some value =>
    have hvalue := distinct_lookup hd value hlookup
    rw [hlookup] at hstored
    cases value with
    | null =>
      cases hstored
      exact ⟨[], rfl, fun _ hv => absurd hv List.not_mem_nil, rfl⟩
    | arr values =>
      obtain ⟨containers, hcontainers, rfl⟩ := Option.map_eq_some_iff.1 hstored
      exact ⟨values, rfl, fun v hv => Json.distinct_of_mem_items hvalue hv, hcontainers⟩
    | _ => simp [member?, readList?] at hstored

theorem Spec.ofJson?_merged (byName : Bool) {j : Json} {s : Spec}
    (hnamed : named (some "claims") = false) (hcontainers : named (some "containers") = true)
    (hd : j.distinct = true) (hread : Spec.ofJson? j = some s)
    {patches : List (String × Option Resources)} (hclaims : PlainClaims patches)
    (hin : ∀ p ∈ patches, p.1 ∈ s.containers.map (·.name)) :
    Spec.ofJson? (mergeNamed named byName j
        (.record [("containers", .arr (patches.map containerPatch))])) =
      some { s with containers := s.containers.map (·.mergeFrom patches) } := by
  obtain ⟨l, rfl, hnodup⟩ := exists_members hd hread
  let patch : Members := [("containers", .arr (patches.map containerPatch))]
  obtain ⟨merged, hmerged, hnodup', hlookup⟩ :=
    Json.mergeNamed_record named byName hnodup (p := patch) (by simp [patch])
  obtain ⟨vs, hvs, hdistinct, hcs⟩ := Spec.containers_read hd hread
  rw [hmerged]
  refine Spec.ofJson?_changed hnodup hnodup' hread (fun n hn => ?_) ?_
  · rw [hlookup]
    simp [patch, Keyed.lookup_cons_ite, hn, mergedMember]
  · have hafter : merged.lookup "containers" =
        some (.arr (vs.map fun v => Json.mergeInto named v (patches.map containerPatch))) := by
      rw [hlookup]
      simp [patch, Keyed.lookup_cons_ite, mergedMember, mergeNamed, hcontainers, hvs,
        newItems_containerPatches hdistinct hcs hin]
    rw [hafter]
    exact congrArg (Option.map some) (containers_merged hnamed hdistinct hcs hclaims)

/-- A patch that can be applied is for containers of the pod. -/
theorem ResizePatch.names_of_merge? {r : ResizePatch} {p merged : Pod} (h : r.merge? p = some merged) :
    ∀ c ∈ r.containers, c.1 ∈ p.containers.map (·.name) := by
  intro c hc
  unfold merge? at h
  split at h
  · next hall =>
    have hpresent := List.all_eq_true.1 hall c hc
    simpa [Pod.isContainerInSpec, Pod.container?, List.find?_isSome] using hpresent
  · cases h

/-- The body of a patch of resources, merged into a pod's document with the containers by name, gives that
of the pod that the patch makes, under the version of the patch. -/
theorem ResizePatch.ofJson?_merge {doc : Json} {p merged : Pod} (hd : doc.distinct = true)
    (hread : Pod.ofJson? doc = some p) {r : ResizePatch} (hne : r.containers ≠ [])
    (hclaims : PlainClaims r.containers) (hmerge : r.merge? p = some merged) :
    Pod.ofJson? (doc.mergeStrategic r.toJson) =
      some (merged.withVersion (r.version.or p.resourceVersion)) := by
  have hin := ResizePatch.names_of_merge? hmerge
  -- some container is patched, so the pod has a specification
  obtain ⟨s, hs⟩ : ∃ s, p.spec = some s := by
    obtain ⟨c, hc⟩ := List.exists_mem_of_ne_nil _ hne
    cases hs : p.spec with
    | none => simpa [Pod.containers, hs] using hin c hc
    | some s => exact ⟨s, rfl⟩
  have hcontainers : p.containers = s.containers := by simp [Pod.containers, hs]
  let named : Option String → Bool := fun name => name = some "containers"
  let patch : Members :=
    [("metadata", .record (metadataMembers r.version none none)),
     ("spec", .record [("containers", .arr (r.containers.map containerPatch))])]
  have hbody : r.toJson = .record patch := by
    simp only [patch, toJson, metadataMembers, writeMember, List.append_nil]
    rfl
  have hspec (old : Option Json) (hold : ∀ j, old = some j → j.distinct = true)
      (hbefore : member? Spec.ofJson? old = some p.spec) :
      member? Spec.ofJson? (mergedMember named (some "spec") old (patch.lookup "spec")) =
        some (some { s with containers := s.containers.map (·.mergeFrom r.containers) }) := by
    have hlookup : patch.lookup "spec" =
        some (.record [("containers", .arr (r.containers.map containerPatch))]) := by
      simp [patch, Keyed.lookup_cons_ite]
    have hread' : Spec.ofJson? (orEmpty old) = some s := by
      rw [hs] at hbefore
      exact read_orEmpty Spec.ofJson?_empty hbefore
    rw [hlookup, mergedMember_record]
    exact member?_some (Spec.ofJson?_merged (named (some "spec")) rfl rfl (orEmpty_distinct hold)
      hread' hclaims (hcontainers ▸ hin)) rfl
  have hothers : ∀ n, n ≠ "metadata" → n ≠ "spec" → patch.lookup n = none := by
    intro n hm hs
    simp [patch, Keyed.lookup_cons_ite, hm, hs]
  have hafter := Pod.ofJson?_merged named hd hread (by simp [patch])
    (Keyed.lookup_cons_ite _ _ _) hspec hothers
  rw [hbody]
  refine hafter.trans ?_
  rw [ResizePatch.merge?_eq hmerge]
  simp [Pod.mapContainers, Pod.withVersion, Pod.resourceVersion, mergeMember, hs]

end PodSizing
