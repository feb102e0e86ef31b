import PodSizing.Proofs.Api.Writing

/-!
# What a write may change

A write changes the status annotation, the version, and the quantities that it is to set in one
container. Every other part of the pod is as it was read.
-/
namespace PodSizing

/-- Only the container of the name differs in the second pod, and has the quantities of the updates. -/
structure Pod.SetIn (name : String) (updates : List ResourceUpdate) (p q : Pod) : Prop where
  target : ∃ c d, p.container? name = some c ∧ q.container? name = some d ∧ c.SetTo updates d
  others : ∀ n, n ≠ name → q.container? n = p.container? n
  names : q.containers.map (·.name) = p.containers.map (·.name)
  frame : q.spec = p.spec.map fun s => { s with containers := q.containers }

/-- The second pod is the first one but for the status annotation, the version, and the resources that
are to be set, if there are any. -/
structure Confined (resources : Option (String × List ResourceUpdate)) (p q : Pod) : Prop where
  annotations : ∀ key, key ≠ Key.status → q.annotation? key = p.annotation? key
  metadata : q.metadata =
    { p.metadata with
      annotations := q.metadata.annotations
      resourceVersion := q.metadata.resourceVersion }
  status : q.status = p.status
  unresized : resources = none → q.spec = p.spec
  resized : ∀ name updates, resources = some (name, updates) → p.SetIn name updates q

theorem Pod.setIn_withResources {p : Pod} {name : String} {updates : List ResourceUpdate}
    (h : updates.Pairwise fun u v => u.resource.text ≠ v.resource.text)
    (hpresent : p.isContainerInSpec name = true) : p.SetIn name updates (p.withResources name updates) := by
  obtain ⟨c, hc⟩ := Option.isSome_iff_exists.1 hpresent
  refine ⟨⟨c, c.withUpdates updates, hc, Pod.container?_withResources_of_some hc updates,
      c.setTo_withUpdates h⟩,
    fun n hn => p.container?_withResources_of_ne hn updates, p.names_withResources name updates, ?_⟩
  · obtain ⟨metadata, spec, status⟩ := p
    cases spec <;> rfl

theorem Pod.SetIn.congr {p q r : Pod} {name : String} {updates : List ResourceUpdate}
    (h : p.SetIn name updates r) (hspec : q.spec = r.spec) : p.SetIn name updates q := by
  have hcontainers : q.containers = r.containers := by simp only [Pod.containers, hspec]
  have hfind (n : String) : q.container? n = r.container? n := by
    simp only [Pod.container?, hcontainers]
  obtain ⟨⟨c, d, hc, hd, hset⟩, hothers, hnames, hframe⟩ := h
  exact ⟨⟨c, d, hc, (hfind name).trans hd, hset⟩, fun n hn => (hfind n).trans (hothers n hn),
    hcontainers ▸ hnames, by rw [hspec, hframe, hcontainers]⟩

namespace Writing

def Proper (z : Writing) : Prop :=
  ∀ name updates, z.resources = some (name, updates) →
    updates ≠ [] ∧ updates.Pairwise fun u v => u.resource.text ≠ v.resource.text

variable {z : Writing} {now : Time.Instant} {base before after : Pod} {patch : Patch}

theorem Leaves.cases_after (h : z.Leaves now base patch before after) :
    ∃ version, after = (z.resized base).withVersion version ∨
      ∃ value, after =
        ( Pod.setAnnotation (z.resized base) Key.status value).withVersion version := by
  cases h with
  | @resized r version htouches => exact ⟨version, .inl rfl⟩
  | @told m version next =>
    refine ⟨next, ?_⟩
    rcases z.status.apply_pod now (z.resized base) with hpod | ⟨value, hpod⟩
    · exact .inl (by rw [edited, hpod])
    · exact .inr ⟨value, by rw [edited, hpod]⟩

/-- Nothing but the status annotation and the version sets what a step leaves apart from the pod with
the resources. -/
theorem Leaves.frame (h : z.Leaves now base patch before after) :
    after.spec = (z.resized base).spec ∧ after.status = base.status ∧
      after.metadata = { base.metadata with
        annotations := after.metadata.annotations
        resourceVersion := after.metadata.resourceVersion } ∧
      ∀ key, key ≠ Key.status → after.annotation? key = base.annotation? key := by
  have hread (key : String) : (z.resized base).annotation? key = base.annotation? key := by
    rw [Pod.annotation?, z.resized_metadata]
    rfl
  rw [← z.resized_status base, ← z.resized_metadata base]
  obtain ⟨version, rfl | ⟨value, rfl⟩⟩ := h.cases_after
  · exact ⟨rfl, rfl, rfl, fun key _ => hread key⟩
  · refine ⟨rfl, rfl, rfl, fun key hkey => ?_⟩
    have hset := (z.resized base).annotation?_afterSet Key.status value key
    exact hset.trans ((if_neg hkey).trans (hread key))

/-- A step of a write that has found its container is confined to it. -/
theorem Leaves.confined (h : z.Leaves now base patch before after) (hz : z.Proper)
    (hpresent : ∀ name updates, z.resources = some (name, updates) →
      base.isContainerInSpec name = true) : Confined z.resources base after := by
  obtain ⟨hspec, hstatus, hmetadata, hannotations⟩ := h.frame
  refine ⟨hannotations, hmetadata, hstatus, fun hnone => ?_, fun name updates hsome => ?_⟩
  · rw [hspec, Writing.resized, hnone]
  · have hset := Pod.setIn_withResources (hz name updates hsome).2 (hpresent name updates hsome)
    refine hset.congr ?_
    rw [hspec, Writing.resized, hsome]

end Writing

/-- Every patch of a write that has been carried out is confined to what is to be written, against the
pod that was read last. -/
theorem Going.confined {w : World} {t : Server} {given : Pod} {z : Writing} (hz : z.Proper)
    (h : Going given z.mutators z.resources.isSome w t) {newer older : List Exchange} {id : PodId}
    {patch : Patch} {before after : Pod}
    (hlog : t.log = newer ++ .patched id patch before after :: older) :
    Confined z.resources (lastRead given older) after := by
  obtain ⟨now, edit, -, hedit, hstep⟩ := h.leaves hlog
  obtain ⟨-, hpresent⟩ := Writing.applyAll_mutators hedit
  exact hstep.confined hz fun name updates hsome =>
    hpresent name updates hsome (hz name updates hsome).1

/-- What comes next is made of the pod that was first read: so far it has not been read again. -/
def OnFirstRead (log : List Exchange) : Prop := ∀ id p, .got id p ∉ log

theorem OnFirstRead.lastRead_eq {given : Pod} {log : List Exchange} (h : OnFirstRead log) :
    lastRead given log = given := by
  induction log with
  | nil => rfl
  | cons e older ih =>
    have hlater := ih fun id p hmem => h id p (List.mem_cons_of_mem e hmem)
    cases e with
    | told now => exact hlater
    | got id p => exact absurd List.mem_cons_self (h id p)
    | patched id patch before after => exact hlater

end PodSizing
