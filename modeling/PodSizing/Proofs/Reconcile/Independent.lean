import PodSizing.Proofs.Mutation.Footprint
import PodSizing.Proofs.Reconcile.Guard
import PodSizing.Proofs.Store

/-!
# Servers that keep pods apart

A request is for one pod if it names no other and its mutators leave the name alone. A server keeps pods
apart if such a request changes nothing of other pods, and if what is answered and what is stored go by what
the server holds of that pod. It may still share counters between pods, as it does for their versions.
-/
namespace PodSizing
open Time (Instant)

def Mutator.KeepsId (m : Mutator) : Prop := ∀ now p edit, m now p = .ok edit → edit.pod.id = p.id

namespace Mutator
variable {mutators : List Mutator} {now : Instant} {p : Pod} {edit : Edit}

theorem applyAll_id (h : ∀ m ∈ mutators, m.KeepsId) (hedit : applyAll mutators now p = .ok edit) :
    edit.pod.id = p.id :=
  applyAll_rel (R := fun p q => q.id = p.id) (fun _ => rfl) (fun h h' => h'.trans h) h hedit

theorem keepsId_status (u : StatusUpdate) : u.mutator.KeepsId := by
  intro now p edit hedit
  cases hedit
  exact (u.apply_same now p).id_eq.symm

theorem keepsId_resources (name : String) (updates : List ResourceUpdate) :
    (resources name updates).KeepsId := by
  intro now p edit hedit
  obtain ⟨q, hq, rfl⟩ := Except.map_eq_ok.1 hedit
  rw [(foldlM_setResource_ok hq).1]
  rfl

theorem keepsId_resources_cons (h : ∀ m ∈ mutators, m.KeepsId) (name : String)
    (updates : List ResourceUpdate) : ∀ m ∈ resources name updates :: mutators, m.KeepsId :=
  List.forall_mem_cons.2 ⟨keepsId_resources name updates, h⟩

end Mutator

namespace PodRequest

def IsFor (id : PodId) : PodRequest → Prop
  | .get context => context.id = id
  | .patch context base mutators .. | .resize context base _ _ mutators _ =>
    context.id = id ∧ base.id = id ∧ ∀ m ∈ mutators, m.KeepsId
  | .record _ => True

def Alike : (request : PodRequest) → (a b : podSignature.Answer request) → Prop
  | .get _, a, b => a = b
  | .patch .., a, b | .resize .., a, b =>
    Except.map Written.observations a = Except.map Written.observations b
  | .record _, _, _ => True

def Fits : (request : PodRequest) → podSignature.Answer request → Prop
  | .get context, answer => ∀ p, answer = .ok (some p) → p.id = context.id
  | .patch .., _ | .resize .., _ | .record _, _ => True

end PodRequest

structure Pod.Content where
  labels : Option (Keyed String)
  annotations : Option (Keyed String)
  spec : Option Spec
  status : Option PodStatus
  deriving DecidableEq

def Pod.content (p : Pod) : Pod.Content :=
  ⟨p.metadata.labels, p.metadata.annotations, p.spec, p.status⟩

structure PodServer (σ V : Type) where
  handle : Instant → (request : PodRequest) → σ → podSignature.Answer request × σ
  view : σ → PodId → V
  /-- Of what is held of a pod, the pod that is stored. -/
  pod? : V → Option Pod

namespace PodServer
variable {σ V : Type}

def content? (server : PodServer σ V) (s : σ) (id : PodId) : Option Pod.Content :=
  (server.pod? (server.view s id)).map Pod.content

/-- A request for a pod tells nothing of other pods and does nothing to them. -/
structure KeepsApart (server : PodServer σ V) : Prop where
  /-- Only a write changes what is held of pods. -/
  quiet : ∀ {request : PodRequest}, request.isWrite = false → ∀ now s id,
    server.view (server.handle now request s).2 id = server.view s id
  elsewhere : ∀ {request : PodRequest} {id other : PodId}, request.IsFor id → other ≠ id →
    ∀ now s, server.view (server.handle now request s).2 other = server.view s other
  answers : ∀ {request : PodRequest} {id : PodId} {s t : σ}, request.IsFor id →
    server.view s id = server.view t id →
      ∀ now, request.Alike (server.handle now request s).1 (server.handle now request t).1
  stores : ∀ {request : PodRequest} {id : PodId} {s t : σ}, request.IsFor id →
    server.view s id = server.view t id → ∀ now,
      server.content? (server.handle now request s).2 id =
        server.content? (server.handle now request t).2 id
  fits : ∀ now (request : PodRequest) s, request.Fits (server.handle now request s).1

end PodServer

namespace Store

/-- Answers by the pod and by the faults that are injected. -/
def server : PodServer Store (Option Pod × Faults) where
  handle now request s := handle request { s with now }
  view s id := (s.find? id, s.faults)
  pod? := Prod.fst

theorem answerGet_congr {s t : Store} {id : PodId} (h : server.view s id = server.view t id) :
    s.answerGet id = t.answerGet id := by
  obtain ⟨hfound, hfaults⟩ : s.find? id = t.find? id ∧ s.faults = t.faults := Prod.ext_iff.1 h
  rw [answerGet, answerGet, hfaults, hfound]

theorem answerGet_id {s : Store} {id : PodId} {p : Pod} (h : s.answerGet id = .ok (some p)) :
    p.id = id := by
  unfold answerGet at h
  split at h
  · cases h
  · simpa using List.find?_some (Except.ok.inj h)

section Patch
variable {s t : Store} {context : Context} {base : Pod} {mutators : List Mutator}
  {touchesResize awaitsSync : Bool}

theorem patch_elsewhere (hkeeps : ∀ m ∈ mutators, m.KeepsId) {other : PodId}
    (hother : other ≠ base.id) :
    server.view (s.patch context base mutators touchesResize awaitsSync).2 other =
      server.view s other := by
  rcases write_cases s base mutators touchesResize with ⟨e, hfails⟩ | ⟨edit, hedit, hwrites⟩
  · simp only [patch, hfails s rfl rfl]
    rfl
  · obtain ⟨q, hwritten⟩ := hwrites s rfl rfl
    have hid : edit.pod.id ≠ other := (Mutator.applyAll_id hkeeps hedit).trans_ne hother.symm
    simp only [patch, hwritten]
    exact Prod.ext (find?_applied_of_ne hid) (s.applied_faults edit)

/-- Where the pod and the faults are the same, a patch is answered alike and stores the same. -/
theorem patch_alike (hkeeps : ∀ m ∈ mutators, m.KeepsId)
    (hview : server.view s base.id = server.view t base.id) (hnow : s.now = t.now) :
    (s.patch context base mutators touchesResize awaitsSync).1.map Written.observations =
        (t.patch context base mutators touchesResize awaitsSync).1.map Written.observations ∧
      server.content? (s.patch context base mutators touchesResize awaitsSync).2 base.id =
        server.content? (t.patch context base mutators touchesResize awaitsSync).2 base.id := by
  obtain ⟨hfound, hfaults⟩ := Prod.ext_iff.1 hview
  rcases write_cases s base mutators touchesResize with ⟨e, hfails⟩ | ⟨edit, hedit, hwrites⟩
  · simp only [patch, hfails s rfl rfl, hfails t hfaults.symm hnow.symm]
    exact ⟨trivial, congrArg (Option.map Pod.content) hfound⟩
  · obtain ⟨q, hs⟩ := hwrites s rfl rfl
    obtain ⟨q', ht⟩ := hwrites t hfaults.symm hnow.symm
    simp only [patch, hs, ht]
    refine ⟨rfl, ?_⟩
    show ((s.applied edit).find? base.id).map Pod.content =
      ((t.applied edit).find? base.id).map Pod.content
    cases hchanged : edit.changed with
    | false =>
      rw [applied_unchanged hchanged, applied_unchanged hchanged]
      exact congrArg (Option.map Pod.content) hfound
    | true =>
      rw [← Mutator.applyAll_id hkeeps hedit, find?_applied hchanged, find?_applied hchanged]
      rfl

end Patch

theorem server_keepsApart : server.KeepsApart where
  quiet {request} hquiet now s id := by
    cases request with
    | get context => rfl
    | record events => rfl
    | patch context base mutators touchesResize awaitsSync => cases hquiet
    | resize context base container updates mutators awaitsSync => cases hquiet
  elsewhere {request id other} hfor hother now s := by
    cases request with
    | get context => rfl
    | record events => rfl
    | patch context base mutators touchesResize awaitsSync =>
      obtain ⟨-, rfl, hkeeps⟩ := hfor
      exact patch_elsewhere hkeeps hother
    | resize context base container updates mutators awaitsSync =>
      obtain ⟨-, rfl, hkeeps⟩ := hfor
      exact patch_elsewhere (Mutator.keepsId_resources_cons hkeeps _ _) hother
  answers {request id s t} hfor hview now := by
    cases request with
    | get context =>
      cases hfor
      exact answerGet_congr (s := { s with now }) (t := { t with now }) hview
    | record events => trivial
    | patch context base mutators touchesResize awaitsSync =>
      obtain ⟨-, rfl, hkeeps⟩ := hfor
      exact (patch_alike (s := { s with now }) (t := { t with now }) hkeeps hview rfl).1
    | resize context base container updates mutators awaitsSync =>
      obtain ⟨-, rfl, hkeeps⟩ := hfor
      exact (patch_alike (s := { s with now }) (t := { t with now })
        (Mutator.keepsId_resources_cons hkeeps _ _) hview rfl).1
  stores {request id s t} hfor hview now := by
    cases request with
    | get context => exact congrArg (fun v => (server.pod? v).map Pod.content) hview
    | record events => exact congrArg (fun v => (server.pod? v).map Pod.content) hview
    | patch context base mutators touchesResize awaitsSync =>
      obtain ⟨-, rfl, hkeeps⟩ := hfor
      exact (patch_alike (s := { s with now }) (t := { t with now }) hkeeps hview rfl).2
    | resize context base container updates mutators awaitsSync =>
      obtain ⟨-, rfl, hkeeps⟩ := hfor
      exact (patch_alike (s := { s with now }) (t := { t with now })
        (Mutator.keepsId_resources_cons hkeeps _ _) hview rfl).2
  fits now request s := by
    cases request with
    | get context => exact fun p hp => answerGet_id hp
    | record events => trivial
    | patch context base mutators touchesResize awaitsSync => trivial
    | resize context base container updates mutators awaitsSync => trivial

end Store
end PodSizing
