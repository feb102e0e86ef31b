import PodSizing.Proofs.Api.Merge

/-!
# No other writer's update is lost

However often a client retries, whatever fails, and whoever else writes in between: each patch that is
carried out leaves the entries that the mutators do not set as they were stored just before, and a
patch of metadata makes the labels and annotations those of the edited pod.
-/
namespace PodSizing
open Time (Instant)

section Kept
variable {w : World} {given : Pod} {mutators : List Mutator} {touchesResize : Bool} {t : Server}
  {footprint : Entry → Prop}

theorem Pod.textAt?_withVersion (p : Pod) (version : Option String) (e : Entry) :
    (p.withVersion version).textAt? e = p.textAt? e := by
  cases e <;> rfl

theorem Origin.sets {older : List Exchange} {base : Pod} {edit : Edit}
    (h : Origin given mutators older base edit) (hm : ∀ m ∈ mutators, m.OnlySets footprint) :
    Sets footprint base edit.pod := by
  obtain ⟨now, -, hedit⟩ := h.applied
  exact Mutator.applyAll_sets hm hedit

theorem Server.Sound.merged (h : t.Sound w) {newer older : List Exchange} {id : PodId}
    {patch : Patch} {before after : Pod}
    (hlog : t.log = newer ++ .patched id patch before after :: older) :
    before ∈ t.history ∧ ∃ merged, patch.merge? before = some merged ∧
      after = merged.withVersion after.resourceVersion := by
  have hmem : .patched id patch before after ∈ t.log := by rw [hlog]; simp
  obtain ⟨hbefore, -, -, -, hmerged⟩ := h.honest _ hmem
  exact ⟨hbefore, hmerged⟩

theorem Server.Sound.patched (h : t.Sound w) {newer older : List Exchange} {id : PodId}
    {patch : Patch} {before after : Pod}
    (hlog : t.log = newer ++ .patched id patch before after :: older) :
    before ∈ t.history ∧ ∃ merged, patch.merge? before = some merged ∧
      ∀ e, after.textAt? e = merged.textAt? e := by
  obtain ⟨hbefore, merged, hmerge, hafter⟩ := h.merged hlog
  refine ⟨hbefore, merged, hmerge, fun e => ?_⟩
  rw [hafter]
  exact merged.textAt?_withVersion _ e

/-- After a patch of resources, quantities are those of the edited pod, and the rest is as before. -/
theorem resized_entries {base edited after : Pod} {r : ResizePatch} {version : Option String}
    {older newer : List Exchange} {id : PodId} (h : t.Sound w)
    (hlog : t.log = newer ++ .patched id (.resize r) base after :: older)
    (hpatch : ResizePatch.between? base edited version = some r)
    (hsets : Sets footprint base edited) :
    (∀ container side resource, after.textAt? (.quantityOf container side resource) =
        edited.textAt? (.quantityOf container side resource)) ∧
      (∀ key, after.label? key = base.label? key) ∧
        ∀ key, after.annotation? key = base.annotation? key := by
  obtain ⟨hbase, merged, hmerge, hafter⟩ := h.patched hlog
  have hmetadata := ResizePatch.merge?_metadata hmerge
  refine ⟨fun container side resource => ?_, fun key => ?_, fun key => ?_⟩
  · rw [hafter]
    exact ResizePatch.merge?_quantity? hpatch hsets (h.distinct base hbase) hmerge _ _ _
  · have hentry := hafter (.labelOf key)
    simp only [Pod.textAt?, Pod.label?, hmetadata] at hentry ⊢
    exact hentry
  · have hentry := hafter (.annotationOf key)
    simp only [Pod.textAt?, Pod.annotation?, hmetadata] at hentry ⊢
    exact hentry

/-- After a patch of metadata, labels and annotations are those of the edited pod, and quantities as
before. -/
theorem annotated_entries {base edited before after : Pod} {m : MetadataPatch}
    {version : Option String} {older newer : List Exchange} {id : PodId} (h : t.Sound w)
    (hlog : t.log = newer ++ .patched id (.metadata m) before after :: older)
    (hpatch : MetadataPatch.between? base edited version = some m)
    (hsets : Sets footprint base edited) (hlabels : ∀ key, before.label? key = base.label? key)
    (hannotations : ∀ key, before.annotation? key = base.annotation? key) :
    (∀ container side resource, after.textAt? (.quantityOf container side resource) =
        before.textAt? (.quantityOf container side resource)) ∧
      (∀ key, after.label? key = edited.label? key) ∧
        ∀ key, after.annotation? key = edited.annotation? key := by
  obtain ⟨-, merged, hmerge, hafter⟩ := h.patched hlog
  cases hmerge
  refine ⟨fun container side resource => ?_, fun key => ?_, fun key => ?_⟩
  · rw [hafter]
    exact m.merge_quantity? before container side resource
  · exact (hafter (.labelOf key)).trans (MetadataPatch.merge_label? hpatch hsets hlabels key)
  · exact (hafter (.annotationOf key)).trans
      (MetadataPatch.merge_annotation? hpatch hsets hannotations key)

/-- A patch of metadata is for a pod that has the labels and annotations of the base, also if its
resources have been patched just before. -/
theorem Made.metadata_base {older newer : List Exchange} {id : PodId} {m : MetadataPatch}
    {before after : Pod} (h : t.Sound w)
    (hlog : t.log = newer ++ .patched id (.metadata m) before after :: older)
    (hmade : Made given mutators touchesResize older (.metadata m) before)
    (hm : ∀ m ∈ mutators, m.OnlySets footprint) :
    ∃ base edit version, Origin given mutators older base edit ∧
      MetadataPatch.between? base edit.pod version = some m ∧
      (∀ key, before.label? key = base.label? key) ∧
        ∀ key, before.annotation? key = base.annotation? key := by
  cases hmade with
  | metadata horigin _ hpatch =>
    exact ⟨before, _, _, horigin, hpatch, fun _ => rfl, fun _ => rfl⟩
  | @metadataNext base _ edit r _ id' rest horigin _ hresize holder hpatch =>
    have hsplit : t.log = (newer ++ [.patched id (.metadata m) before after]) ++
        .patched id' (.resize r) base before :: rest := by
      rw [hlog, holder]
      simp
    obtain ⟨-, hlabels, hannotations⟩ := resized_entries h hsplit hresize (horigin.sets hm)
    exact ⟨_, _, _, horigin, hpatch, hlabels, hannotations⟩

/-- A patch keeps the entries that no mutator sets, and those that the mutators do not change in the pod
that was read last. If it is one of metadata, labels and annotations become just what the mutators make
of them in that pod. -/
structure OnlyEdits (given : Pod) (mutators : List Mutator) (footprint : Entry → Prop)
    (older : List Exchange) (patch : Patch) (before after : Pod) : Prop where
  outside : ∀ e, ¬ footprint e → after.textAt? e = before.textAt? e
  edited : ∃ now edit, lastTold older = some now ∧
    Mutator.applyAll mutators now (lastRead given older) = .ok edit ∧
    (∀ e, edit.pod.textAt? e = (lastRead given older).textAt? e →
      after.textAt? e = before.textAt? e) ∧
    ∀ m, patch = .metadata m → (∀ key, after.label? key = edit.pod.label? key) ∧
      ∀ key, after.annotation? key = edit.pod.annotation? key

theorem Origin.onlyEdits {older : List Exchange} {base before after : Pod} {edit : Edit}
    {patch : Patch} (h : Origin given mutators older base edit)
    (hm : ∀ m ∈ mutators, m.OnlySets footprint)
    (hkept : ∀ e, edit.pod.textAt? e = base.textAt? e → after.textAt? e = before.textAt? e)
    (hmetadata : ∀ m, patch = .metadata m → (∀ key, after.label? key = edit.pod.label? key) ∧
      ∀ key, after.annotation? key = edit.pod.annotation? key) :
    OnlyEdits given mutators footprint older patch before after := by
  obtain ⟨now, htold, happlied⟩ := h.applied
  have hsets := h.sets hm
  refine ⟨fun e he => hkept e (hsets.outside e he), now, edit, htold, ?_, ?_, hmetadata⟩
  · rw [h.read]
    exact happlied
  · rw [h.read]
    exact hkept

/-- Whatever the client has made by its ways does no more than the mutators ask for. -/
theorem Made.onlyEdits {older newer : List Exchange} {id : PodId} {patch : Patch}
    {before after : Pod} (h : t.Sound w)
    (hlog : t.log = newer ++ .patched id patch before after :: older)
    (hmade : Made given mutators touchesResize older patch before)
    (hm : ∀ m ∈ mutators, m.OnlySets footprint) :
    OnlyEdits given mutators footprint older patch before after := by
  cases patch with
  | resize r =>
    cases hmade with
    | resize horigin htouches hpatch =>
      obtain ⟨hquantities, hlabels, hannotations⟩ :=
        resized_entries h hlog hpatch (horigin.sets hm)
      refine horigin.onlyEdits hm (fun e he => ?_) fun m hr => by cases hr
      cases e with
      | labelOf key => exact hlabels key
      | annotationOf key => exact hannotations key
      | quantityOf container side resource => exact (hquantities container side resource).trans he
  | metadata m =>
    obtain ⟨base, edit, version, horigin, hpatch, hlabels, hannotations⟩ :=
      Made.metadata_base h hlog hmade hm
    obtain ⟨hquantities, hlabels', hannotations'⟩ :=
      annotated_entries h hlog hpatch (horigin.sets hm) hlabels hannotations
    refine horigin.onlyEdits hm (fun e he => ?_) fun _ _ => ⟨hlabels', hannotations'⟩
    cases e with
    | labelOf key => exact (hlabels' key).trans (he.trans (hlabels key).symm)
    | annotationOf key => exact (hannotations' key).trans (he.trans (hannotations key).symm)
    | quantityOf container side resource => exact hquantities container side resource

end Kept

def tally (n : Nat) : String := String.ofList (List.replicate (n + 1) 'v')

theorem tally_injective (m n : Nat) (h : tally m = tally n) : m = n := by
  have hlength := congrArg String.length h
  simpa [tally] using hlength

def World.putBefore (turn : Nat) (p : Pod) : World where
  version := tally
  fresh := tally_injective
  others n := if n = turn then [.put p] else []
  verdict _ := .answer
  renews _ := true
  clock _ := ⟨0⟩
  cached _ := none

def Server.holding (w : World) (p : Pod) : Server := Server.store w p {}

def plainPod (labels : List (String × String)) : Pod where
  metadata :=
    { namespaceName := some "ns"
      name := some "pod"
      labels := some (.ofList labels) }
  spec := some { containers := [{ name := "app" }, { name := "side" }] }

def labelledMeanwhile : World := .putBefore 1 (plainPod [("team", "blue")])

def processorMutators : List Mutator :=
  [.resources "app" [⟨.cpu, "2", "2"⟩],
    StatusUpdate.mutator ⟨"commanded", {}, .notApplicable, [.cpu]⟩]

def Exchange.isMetadataPatch : Exchange → Bool
  | .patched _ (.metadata _) _ _ => true
  | _ => false

/-- Whatever happens between and to the requests of a call, and however often it is tried again: each
patch that is carried out does no more than the mutators ask for. -/
theorem patch_keeps_others (w : World) (s : Server) (sync : CacheSync) (context : Context)
    (given : Pod) (mutators : List Mutator) (touchesResize awaits : Bool)
    (footprint : Entry → Prop) (hs : s.Sound w) (hgiven : given ∈ s.history) (hlog : s.log = [])
    (hm : ∀ m ∈ mutators, m.OnlySets footprint) :
    ∀ newer older id patch before after,
      ((ApiClient.patch sync context given mutators touchesResize awaits).run
        (Server.handle w) s).2.log = newer ++ .patched id patch before after :: older →
      OnlyEdits given mutators footprint older patch before after := by
  intro newer older id patch before after hafter
  obtain ⟨-, -, hend⟩ := (Program.wp_iff_run _ _ _ s).1
    (patch_going hs hgiven hlog sync context awaits)
  exact Made.onlyEdits hend.sound hafter (hend.faithful _ _ _ _ _ _ hafter) hm

/-- The resources are tried twice, as the pod has been labelled meanwhile, and the label is kept. -/
theorem labelled_pod_keeps_others :
    let given := (plainPod []).withVersion (some (tally 0))
    let program := ApiClient.patch {} ⟨⟨"ns", "pod"⟩, ⟨2, 0⟩⟩ given processorMutators true true
    let log := (program.run (Server.handle labelledMeanwhile)
      (Server.holding labelledMeanwhile (plainPod []))).2.log
    log.any Exchange.isMetadataPatch = true ∧
      ∀ newer older id patch before after, log = newer ++ .patched id patch before after :: older →
        OnlyEdits given processorMutators
          (fun e => e = .annotationOf Key.status ∨
            ∃ u ∈ [⟨.cpu, "2", "2"⟩], ∃ side, e = .quantityOf "app" side
              (ResourceUpdate.resource u).text)
          older patch before after := by
  refine ⟨by decide +kernel, ?_⟩
  have hs : (Server.holding labelledMeanwhile (plainPod [])).Sound labelledMeanwhile :=
    Server.store_sound (Server.empty_sound _) (by decide)
  exact patch_keeps_others labelledMeanwhile _ {} ⟨⟨"ns", "pod"⟩, ⟨2, 0⟩⟩ _ processorMutators true
    true _ hs List.mem_cons_self rfl (Mutator.command_onlySets "app" _ _)

end PodSizing
