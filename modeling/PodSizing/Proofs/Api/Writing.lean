import PodSizing.Proofs.Api.OtherWriters
import PodSizing.Proofs.Api.ResizePatch
import PodSizing.Proofs.Status.Commanded

/-!
# What a write leaves behind

Each patch of a write takes the pod that was read last one step further: first its resources are set,
and then, in the pod that has them, the status. So where a status is stored that says so, the resources
have been set.
-/
namespace PodSizing
open Time (Instant)

/-- What is to be written: a status, perhaps together with resources of a container. -/
structure Writing where
  status : StatusUpdate
  resources : Option (String × List ResourceUpdate) := none

namespace Writing

def mutators (z : Writing) : List Mutator :=
  match z.resources with
  | none => [z.status.mutator]
  | some (name, updates) => [.resources name updates, z.status.mutator]

def resized (z : Writing) (p : Pod) : Pod :=
  match z.resources with
  | none => p
  | some (name, updates) => p.withResources name updates

def edited (z : Writing) (now : Instant) (p : Pod) : Pod := (z.status.apply now (z.resized p)).pod

def request (z : Writing) (context : Context) (base : Pod) (awaits : Bool) : PodRequest :=
  match z.resources with
  | none => .patch context base [z.status.mutator] false awaits
  | some (name, updates) => .resize context base name updates [z.status.mutator] awaits

/-- The two steps of a write. Another version of a pod is given with each. -/
inductive Leaves (z : Writing) (now : Instant) (base : Pod) : Patch → Pod → Pod → Prop where
  | resized {r : ResizePatch} {version : Option String} :
    z.resources.isSome = true →
    z.Leaves now base (.resize r) base ((z.resized base).withVersion version)
  | told {m : MetadataPatch} {version next : Option String} :
    z.Leaves now base (.metadata m) ((z.resized base).withVersion version)
      ((z.edited now base).withVersion next)

variable {z : Writing} {now : Instant} {base : Pod}

@[simp] theorem resized_metadata (z : Writing) (p : Pod) : (z.resized p).metadata = p.metadata := by
  unfold resized
  cases z.resources <;> rfl

theorem resized_status (z : Writing) (p : Pod) : (z.resized p).status = p.status := by
  unfold resized
  cases z.resources <;> rfl

theorem lastCommanded_resized (z : Writing) (p : Pod) :
    (z.resized p).lastCommanded = p.lastCommanded := by
  unfold resized
  cases z.resources <;> rfl

theorem lastCommanded_edited (z : Writing) (now : Instant) (p : Pod) :
    (z.edited now p).lastCommanded = z.status.scaleState.stampOver now p.lastCommanded := by
  rw [edited, StatusUpdate.apply_lastCommanded, lastCommanded_resized]

theorem edited_containers (z : Writing) (now : Instant) (p : Pod) :
    (z.edited now p).containers = (z.resized p).containers := by
  simp only [Pod.containers, edited, (z.status.apply_same now (z.resized p)).spec]

/-- The mutators make the edited pod, and they find the container if there is anything to set in it. -/
theorem applyAll_mutators {edit : Edit} (h : Mutator.applyAll z.mutators now base = .ok edit) :
    edit.pod = z.edited now base ∧
      ∀ name updates, z.resources = some (name, updates) → updates ≠ [] →
        base.isContainerInSpec name = true := by
  obtain ⟨status, resources⟩ := z
  cases resources with
  | none =>
    cases h
    exact ⟨rfl, fun _ _ hnone => by cases hnone⟩
  | some command =>
    obtain ⟨name, updates⟩ := command
    simp only [mutators, Mutator.applyAll, List.foldlM_cons, List.foldlM_nil] at h
    obtain ⟨set, hset, h⟩ := Except.bind_eq_ok.1 h
    obtain ⟨told, htold, h⟩ := Except.bind_eq_ok.1 h
    cases h
    obtain ⟨_, hmade, rfl⟩ := Except.map_eq_ok.1 hset
    obtain ⟨q, hq, rfl⟩ := Except.map_eq_ok.1 hmade
    obtain ⟨_, hmade', rfl⟩ := Except.map_eq_ok.1 htold
    cases hmade'
    obtain ⟨rfl, hpresent⟩ := Mutator.foldlM_setResource_ok hq
    exact ⟨rfl, fun _ _ hsome => by cases hsome; exact hpresent⟩

theorem edited_annotation?_isSome {key : String} (h : (base.annotation? key).isSome = true) :
    ((z.edited now base).annotation? key).isSome = true := by
  have hsets := z.status.onlySets now (z.resized base) _ rfl
  refine hsets.kept (.annotationOf key) ?_
  simpa [Pod.textAt?, Pod.annotation?] using h

/-- Merged into the pod that has the resources, the patch of the metadata gives the edited pod. -/
theorem merge_told {m : MetadataPatch} {version : Option String}
    (h : MetadataPatch.between? base (z.edited now base) version = some m) (stored : Option String) :
    m.merge ((z.resized base).withVersion stored) = (z.edited now base).withVersion stored := by
  obtain ⟨hlabels, hannotations⟩ := MetadataPatch.between?_members h
  have hlabels' : mergeMember (z.resized base).metadata.labels m.labels =
      (z.edited now base).metadata.labels := by
    rw [hlabels, resized_metadata, edited, ← (z.status.apply_same now (z.resized base)).labels]
    simp [MetadataPatch.changed?, mergeMember]
  have hannotations' : mergeMember (z.resized base).metadata.annotations m.annotations =
      (z.edited now base).metadata.annotations := by
    rw [hannotations, resized_metadata]
    exact mergeMember_changed fun key hkey => edited_annotation?_isSome hkey
  simp only [MetadataPatch.merge, Pod.withVersion, hlabels', hannotations']
  rcases z.status.apply_pod now (z.resized base) with hpod | ⟨value, hpod⟩
  · simp [edited, hpod]
  · simp [edited, hpod, Pod.setAnnotation]

/-- Merged into its pod, the patch of the resources gives the pod that has them. -/
theorem merge?_resized {r : ResizePatch} {version : Option String} {merged : Pod}
    (htouches : z.resources.isSome = true)
    (h : ResizePatch.between? base (z.edited now base) version = some r)
    (hnames : (base.containers.map (·.name)).Nodup) (hmerge : r.merge? base = some merged) :
    merged = z.resized base := by
  have hcontainers := z.edited_containers now base
  obtain ⟨command, hcommand⟩ := Option.isSome_iff_exists.1 htouches
  simp only [resized, hcommand] at hcontainers ⊢
  exact ResizePatch.merge?_command h hcontainers hnames hmerge

theorem resized_eq_self {version : Option String}
    (h : z.resources.isSome = true →
      ResizePatch.between? base (z.edited now base) version = none) : z.resized base = base := by
  have hcontainers := z.edited_containers now base
  cases hcommand : z.resources with
  | none => simp only [resized, hcommand]
  | some command =>
    have hnone := h (by rw [hcommand]; rfl)
    simp only [resized, hcommand] at hcontainers ⊢
    exact ResizePatch.withResources_of_between?_none hnone hcontainers

theorem merge?_isSome {r : ResizePatch} {version : Option String}
    (h : ResizePatch.between? base (z.edited now base) version = some r) :
    ∃ merged, r.merge? base = some merged := by
  have hnames : (z.edited now base).containers.map (·.name) = base.containers.map (·.name) := by
    rw [edited_containers, resized]
    cases z.resources with
    | none => rfl
    | some command => exact base.names_withResources command.1 command.2
  have hall : r.containers.all (fun c => base.isContainerInSpec c.1) = true := by
    rw [ResizePatch.between?_containers h, List.all_eq_true]
    intro e he
    obtain ⟨c, hc, rfl⟩ := List.mem_map.1 he
    have hpresent : ((z.edited now base).container? c.name).isSome = true :=
      List.find?_isSome.2 ⟨c, (List.mem_filter.1 hc).1, by simp⟩
    rwa [Pod.container?_isSome_of_names hnames] at hpresent
  exact ⟨_, if_pos hall⟩

theorem edited_eq_resized {version : Option String}
    (h : MetadataPatch.between? base (z.edited now base) version = none) :
    z.edited now base = z.resized base := by
  have hannotations : base.metadata.annotations = (z.edited now base).metadata.annotations := by
    unfold MetadataPatch.between? at h
    dsimp only at h
    split at h
    · next hnone =>
      rw [Bool.and_eq_true, Option.isNone_iff_eq_none, Option.isNone_iff_eq_none] at hnone
      have hsame := hnone.2
      unfold MetadataPatch.changed? at hsame
      split at hsame
      · next heq => exact heq
      · cases hsame
    · cases h
  rcases z.status.apply_pod now (z.resized base) with hpod | ⟨value, hpod⟩
  · exact hpod
  · rw [edited, hpod, ← z.resized_metadata] at hannotations
    rw [edited, hpod]
    simp only [Pod.setAnnotation] at hannotations ⊢
    rw [← hannotations]

/-- The mutators succeed where the container is there, and report no change only if there is none. -/
theorem applyAll_ok (hpresent : ∀ name updates, z.resources = some (name, updates) →
    base.isContainerInSpec name = true) (now : Instant) :
    ∃ edit, Mutator.applyAll z.mutators now base = .ok edit ∧
      (edit.changed = false → z.edited now base = base) := by
  obtain ⟨status, resources⟩ := z
  cases resources with
  | none =>
    refine ⟨_, rfl, fun hquiet => ?_⟩
    have hunchanged : (status.apply now base).changed = false := by
      simpa [StatusUpdate.mutator] using hquiet
    exact StatusUpdate.apply_unchanged hunchanged
  | some command =>
    obtain ⟨name, updates⟩ := command
    exact ⟨_, Mutator.applyAll_resources (hpresent name updates rfl) updates status.mutator now,
      fun hquiet => by cases hquiet⟩

end Writing

def Server.serve (w : World) (sync : CacheSync) (request : PodRequest) (s : Server) : Server :=
  ((ApiClient.handle sync request).run (Server.handle w) s).2

section Run
variable {w : World} {s t : Server} {given : Pod} {z : Writing}

theorem Writing.serve_going (z : Writing) (hs : s.Sound w) (hgiven : given ∈ s.history)
    (hlog : s.log = []) (sync : CacheSync) (context : Context) (awaits : Bool) :
    Going given z.mutators z.resources.isSome w
      (s.serve w sync (z.request context given awaits)) := by
  have hpatch (touchesResize : Bool) :
      (ApiClient.patch sync context given z.mutators touchesResize awaits).wp (Server.handle w)
        (fun _ t => Going given z.mutators touchesResize w t) s :=
    patch_going hs hgiven hlog sync context awaits
  obtain ⟨status, resources⟩ := z
  cases resources with
  | none =>
    obtain ⟨-, -, hend⟩ := (Program.wp_iff_run _ _ _ s).1 (hpatch false)
    exact hend
  | some command =>
    obtain ⟨-, -, hend⟩ := (Program.wp_iff_run _ _ _ s).1 (hpatch true)
    exact hend

theorem Server.Sound.resized (h : t.Sound w) {newer older : List Exchange} {id : PodId}
    {now : Instant} {r : ResizePatch} {version : Option String} {base after : Pod}
    (hlog : t.log = newer ++ .patched id (.resize r) base after :: older)
    (htouches : z.resources.isSome = true)
    (hbetween : ResizePatch.between? base (z.edited now base) version = some r) :
    after = (z.resized base).withVersion after.resourceVersion := by
  obtain ⟨hstored, merged, hmerge, hafter⟩ := h.merged hlog
  rwa [Writing.merge?_resized htouches hbetween (h.distinct base hstored) hmerge] at hafter

/-- A patch of the metadata that has been carried out on the pod with the resources gives the edited
pod. -/
theorem Server.Sound.told (h : t.Sound w) {newer older : List Exchange} {id : PodId}
    {now : Instant} {m : MetadataPatch} {version : Option String} {base before after : Pod}
    (hlog : t.log = newer ++ .patched id (.metadata m) before after :: older)
    (hbefore : before = (z.resized base).withVersion before.resourceVersion)
    (hbetween : MetadataPatch.between? base (z.edited now base) version = some m) :
    z.Leaves now base (.metadata m) before after := by
  obtain ⟨-, merged, hmerge, hafter⟩ := h.merged hlog
  cases hmerge
  rw [hbefore, Writing.merge_told hbetween] at hafter
  rw [hbefore, hafter]
  exact .told

/-- Every patch of a write that has been carried out is one of its steps. -/
theorem Going.leaves (h : Going given z.mutators z.resources.isSome w t)
    {newer older : List Exchange} {id : PodId} {patch : Patch} {before after : Pod}
    (hlog : t.log = newer ++ .patched id patch before after :: older) :
    ∃ now edit, lastTold older = some now ∧
      Mutator.applyAll z.mutators now (lastRead given older) = .ok edit ∧
      z.Leaves now (lastRead given older) patch before after := by
  cases h.faithful _ _ _ _ _ _ hlog with
  | resize horigin htouches hbetween =>
    obtain ⟨now, htold, hedit⟩ := horigin.applied
    rw [(Writing.applyAll_mutators hedit).1] at hbetween
    rw [horigin.read, h.sound.resized hlog htouches hbetween]
    exact ⟨now, _, htold, hedit, .resized htouches⟩
  | metadata horigin hnone hbetween =>
    obtain ⟨now, htold, hedit⟩ := horigin.applied
    rw [(Writing.applyAll_mutators hedit).1] at hnone hbetween
    rw [horigin.read]
    refine ⟨now, _, htold, hedit, h.sound.told hlog ?_ hbetween⟩
    rw [Writing.resized_eq_self hnone]
    rfl
  | @metadataNext base _ _ r m id' rest horigin htouches hbetween holder hnext =>
    obtain ⟨now, htold, hedit⟩ := horigin.applied
    rw [(Writing.applyAll_mutators hedit).1] at hbetween hnext
    rw [horigin.read]
    have hfirst : t.log = (newer ++ [.patched id (.metadata m) before after]) ++
        .patched id' (.resize r) base before :: rest := by
      rw [hlog, holder]
      simp
    exact ⟨now, _, htold, hedit,
      h.sound.told hlog (h.sound.resized hfirst htouches hbetween) hnext⟩

theorem mem_of_lastTold {now : Instant} {log : List Exchange} (h : lastTold log = some now) :
    .told now ∈ log := by
  induction log with
  | nil => cases h
  | cons e older ih =>
    cases e with
    | told latest =>
      cases h
      exact List.mem_cons_self
    | got id p => exact List.mem_cons_of_mem _ (ih h)
    | patched id patch before after => exact List.mem_cons_of_mem _ (ih h)

theorem Going.leaves_of_mem (h : Going given z.mutators z.resources.isSome w t) {id : PodId}
    {patch : Patch} {before after : Pod} (hmem : .patched id patch before after ∈ t.log) :
    ∃ now base edit, .told now ∈ t.log ∧ Mutator.applyAll z.mutators now base = .ok edit ∧
      z.Leaves now base patch before after := by
  obtain ⟨newer, older, hsplit⟩ := List.append_of_mem hmem
  obtain ⟨now, edit, htold, hedit, hstep⟩ := h.leaves hsplit
  refine ⟨now, _, edit, ?_, hedit, hstep⟩
  rw [hsplit]
  exact List.mem_append_right _ (List.mem_cons_of_mem _ (mem_of_lastTold htold))

theorem Writing.quantity?_resized (u : StatusUpdate) {name : String}
    (earlier : List ResourceUpdate) {later : List ResourceUpdate} {update : ResourceUpdate}
    (hlater : ∀ v ∈ later, v.resource ≠ update.resource) {base : Pod}
    (hpresent : base.isContainerInSpec name = true) (side : Side) :
    (Writing.resized ⟨u, some (name, earlier ++ update :: later)⟩ base).textAt?
      (.quantityOf name side update.resource.text) = some (update.quantity side) := by
  obtain ⟨c, hc⟩ := Option.isSome_iff_exists.1 hpresent
  have htexts : ∀ v ∈ later, v.resource.text ≠ update.resource.text :=
    fun v hv htext => hlater v hv (ResourceName.text_injective htext)
  simp only [resized, Pod.textAt?, Pod.container?_withResources, hc, Option.map_some,
    Option.bind_some]
  exact c.quantity?_withUpdates_last htexts side

def Exchange.isPatchOf (test : Patch → Pod → Bool) : Exchange → Bool
  | .patched _ patch before _ => test patch before
  | .told _ | .got .. => false

theorem exists_patch (log : List Exchange) (test : Patch → Pod → Bool)
    (h : log.any (Exchange.isPatchOf test) = true) :
    ∃ id patch before after, .patched id patch before after ∈ log ∧ test patch before = true := by
  obtain ⟨e, he, hpasses⟩ := List.any_eq_true.1 h
  cases e with
  | patched id patch before after => exact ⟨id, patch, before, after, he, hpasses⟩
  | told now => cases hpasses
  | got id p => cases hpasses

def processorCommand : Writing where
  status := ⟨"commanded", {}, .unknownCommanded, [.cpu]⟩
  resources := some ("app", [⟨.cpu, "2", "2"⟩])

def relabelledWorld : World := .putBefore 2 (processorCommand.resized (plainPod [("team", "blue")]))

/-- The status of a command is stored only in a pod that has the resources of the command: each time
that a patch of metadata is carried out, it stamps the command, and the container has the quantities that
have been commanded. Of several updates of one resource, the last counts. -/
theorem recorded_command_applied (hs : s.Sound w) (hgiven : given ∈ s.history) (hlog : s.log = [])
    (sync : CacheSync) (context : Context) (name : String) (updates : List ResourceUpdate)
    {u : StatusUpdate} (hcommand : u.scaleState.isCommand = true) (awaits : Bool)
    (ht : t = s.serve w sync (.resize context given name updates [u.mutator] awaits)) {id : PodId}
    {m : MetadataPatch} {before after : Pod}
    (hpatched : .patched id (.metadata m) before after ∈ t.log) :
    (∃ now, .told now ∈ t.log ∧ after.lastCommanded = Time.stamp now) ∧
    ∀ earlier update later, updates = earlier ++ update :: later →
      (∀ v ∈ later, v.resource ≠ update.resource) → ∀ side,
        before.textAt? (.quantityOf name side update.resource.text) = some (update.quantity side) ∧
        after.textAt? (.quantityOf name side update.resource.text) =
          some (update.quantity side) := by
  have hend := Writing.serve_going ⟨u, some (name, updates)⟩ hs hgiven hlog sync context awaits
  rw [Writing.request, ← ht] at hend
  obtain ⟨now, base, edit, htold, hedit, hstep⟩ := hend.leaves_of_mem hpatched
  obtain ⟨-, hpresent⟩ := Writing.applyAll_mutators hedit
  cases hstep with
  | @told _ version next =>
    refine ⟨⟨now, htold, ?_⟩, ?_⟩
    · rw [Pod.lastCommanded_withVersion, Writing.lastCommanded_edited]
      exact if_pos hcommand
    · rintro earlier update later rfl hlater side
      have hfound := Writing.quantity?_resized u earlier hlater
        (hpresent _ _ rfl (by simp)) side
      simp only [Pod.textAt?_withVersion]
      refine ⟨hfound, ?_⟩
      rw [Pod.textAt?, Pod.container?, Writing.edited_containers]
      exact hfound

/-- The resources have been set by the first attempt, and the second one, which starts from the labelled
pod, records that. -/
theorem relabelled_pod_recorded :
    ∃ t id m before after,
      t = (Server.holding relabelledWorld (plainPod [])).serve relabelledWorld {}
          (processorCommand.request ⟨⟨"ns", "pod"⟩, ⟨2, 0⟩⟩
            ((plainPod []).withVersion (some (tally 0))) true) ∧
        .patched id (.metadata m) before after ∈ t.log ∧ before.label? "team" = some "blue" ∧
        (∃ now, after.lastCommanded = Time.stamp now) ∧
        ∀ side, after.textAt? (.quantityOf "app" side "cpu") = some "2" := by
  have hs : (Server.holding relabelledWorld (plainPod [])).Sound relabelledWorld :=
    Server.store_sound (Server.empty_sound _) (by decide)
  obtain ⟨id, patch, before, after, hmem, htest⟩ := exists_patch
    ((Server.holding relabelledWorld (plainPod [])).serve relabelledWorld {}
      (processorCommand.request ⟨⟨"ns", "pod"⟩, ⟨2, 0⟩⟩
        ((plainPod []).withVersion (some (tally 0))) true)).log
    (fun patch p => match patch with
      | .metadata _ => p.label? "team" = some "blue"
      | .resize _ => false) (by decide +kernel)
  cases patch with
  | resize r => cases htest
  | metadata m =>
    obtain ⟨⟨now, -, hstamp⟩, hset⟩ := recorded_command_applied hs List.mem_cons_self rfl {}
      ⟨⟨"ns", "pod"⟩, ⟨2, 0⟩⟩ "app" [⟨.cpu, "2", "2"⟩]
      (u := ⟨"commanded", {}, .unknownCommanded, [.cpu]⟩) rfl true rfl hmem
    refine ⟨_, id, m, before, after, rfl, hmem, by simpa using htest, ⟨now, hstamp⟩, fun side => ?_⟩
    have hquantity := (hset [] ⟨.cpu, "2", "2"⟩ [] rfl (by simp) side).2
    cases side <;> exact hquantity

end Run
end PodSizing
