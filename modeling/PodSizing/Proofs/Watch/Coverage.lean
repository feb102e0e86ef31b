import Mathlib.Tactic.Tauto
import PodSizing.Proofs.PodEvent
import PodSizing.Watch

/-!
# No change is lost by the watch

Every pod in the cache that is not being deleted was handed on by a trigger, up to its version, its
managed fields and its status annotation. For a list that is still coming in, the pods that wait for
its end make up for the triggers that have not been sent. Both halves are kept by every report, in
whatever order reports come.
-/
namespace PodSizing

namespace Cache
variable {c : Cache} {key : CacheKey} {p q : Pod} {pods : List Pod}

theorem mem_without : q ∈ without key pods ↔ q ∈ pods ∧ q.cacheKey ≠ key := by
  simp [without]

theorem mem_withPod : q ∈ withPod p pods ↔ q = p ∨ q ∈ pods ∧ q.cacheKey ≠ p.cacheKey := by
  simp [withPod, mem_without]

theorem lookup?_some (h : c.lookup? key = some p) : p ∈ c.pods ∧ p.cacheKey = key := by
  refine ⟨List.mem_of_find?_eq_some h, ?_⟩
  simpa using List.find?_some h

theorem get?_some (h : c.get? key = some p) :
    p ∈ c.pods ∧ (p.cacheKey = key ∨ p.cacheKey = { key with namespaceName := none }) := by
  unfold get? at h
  cases hexact : c.lookup? key with
  | some q =>
    rw [hexact] at h
    cases h
    exact (lookup?_some hexact).imp id .inl
  | none =>
    rw [hexact] at h
    exact (lookup?_some h).imp id .inr

end Cache

namespace WatchEvent

def pods : WatchEvent → List Pod
  | .initApply p | .apply p | .delete p => [p]
  | .init | .initDone => []

end WatchEvent

namespace Watch

def triggered (actions : List Action) : List Pod :=
  actions.filterMap fun
    | .trigger p => some p
    | .publish _ => none

/-- The actions that reports call for in turn, all of them carried out, and the watch after them. -/
def run : List WatchEvent → Watch → List Action × Watch
  | [], w => ([], w)
  | report :: rest, w =>
    let (actions, w) := w.observe report
    let (later, w) := run rest w
    (actions ++ later, w)

/-- A version of a pod stands for one content wherever it is reported. -/
def VersionsIdentify (pods : List Pod) : Prop :=
  ∀ p ∈ pods, ∀ q ∈ pods, p.cacheKey = q.cacheKey → p.resourceVersion = q.resourceVersion → p = q

instance (pods : List Pod) : Decidable (VersionsIdentify pods) :=
  inferInstanceAs
    (Decidable (∀ p ∈ pods, ∀ q ∈ pods,
      p.cacheKey = q.cacheKey → p.resourceVersion = q.resourceVersion → p = q))

/-- Every pod carries a namespace. -/
def Placed (pods : List Pod) : Prop := ∀ p ∈ pods, p.metadata.namespaceName.isSome = true

instance (pods : List Pod) : Decidable (Placed pods) :=
  inferInstanceAs (Decidable (∀ p ∈ pods, p.metadata.namespaceName.isSome = true))

def IsCovered (handed : List Pod) (p : Pod) : Prop :=
  p.metadata.deletionTimestamp = none → ∃ t ∈ handed, SameButStatus t p

theorem IsCovered.mono {handed more : List Pod} {p : Pod} (h : IsCovered handed p)
    (hsub : ∀ t ∈ handed, t ∈ more) : IsCovered more p := by
  intro hp
  obtain ⟨t, ht, hsame⟩ := h hp
  exact ⟨t, hsub t ht, hsame⟩

/-- What triggers owe to the cache: those sent cover its content, and together with the pods that
wait for the end of a list they cover the list. -/
structure Covered (w : Watch) (sent : List Pod) : Prop where
  cached : ∀ p ∈ w.cache.pods, IsCovered sent p
  listed : ∀ p ∈ w.cache.listed, IsCovered (sent ++ w.awaiting) p

@[simp] theorem triggered_nil : triggered [] = [] := rfl

@[simp] theorem triggered_map_trigger (pods : List Pod) :
    triggered (pods.map .trigger) = pods := by
  induction pods with
  | nil => rfl
  | cons p rest ih => exact congrArg (List.cons p) ih

@[simp] theorem triggered_append (a b : List Action) :
    triggered (a ++ b) = triggered a ++ triggered b := by
  simp [triggered]

@[simp] theorem triggered_publication (e : PodEvent) (actions : List Action) :
    triggered (publication e :: actions) = triggered actions := rfl

/-- Among pods that carry a namespace, none is found but under its own key. -/
theorem Placed.get?_some {c : Cache} (h : Placed c.pods) {key : CacheKey} {p : Pod}
    (hp : c.get? key = some p) : p ∈ c.pods ∧ p.cacheKey = key := by
  obtain ⟨hmem, hkey | hnone⟩ := Cache.get?_some hp
  · exact ⟨hmem, hkey⟩
  · have hplaced := h p hmem
    have hlost : p.metadata.namespaceName = none := congrArg CacheKey.namespaceName hnone
    rw [hlost] at hplaced
    cases hplaced

/-- A reported pod is wanted, or the cache has made up for it: then the cached pod of its name is
the same but for the status, and had to be covered itself. -/
theorem wanted_or_same {w : Watch} {p : Pod} (hplaced : Placed w.cache.pods)
    (hversion : ∀ old ∈ w.cache.pods, old.cacheKey = p.cacheKey →
      old.resourceVersion = p.resourceVersion → old = p)
    (hp : p.metadata.deletionTimestamp = none) :
    p ∈ wanted (w.change p) ∨ ∃ old ∈ w.cache.pods, SameButStatus old p := by
  unfold change
  split
  · next old hold =>
    obtain ⟨hmem, hkey⟩ := hplaced.get?_some hold
    cases hd : (PodEvent.updated old p).decide.1 with
    | reconcile => left; simp [wanted, hd, PodEvent.pod]
    | skip =>
      right
      refine ⟨old, hmem, ?_⟩
      rcases PodEvent.decide_updated_skip hd with hv | hgoing | hsame
      · rw [hversion old hmem hkey hv]
        exact SameButStatus.refl p
      · rw [hp] at hgoing
        cases hgoing
      · exact hsame
  · left; simp [wanted, PodEvent.decide, PodEvent.pod]

theorem isCovered_reported {w : Watch} {sent : List Pod} {p : Pod} (h : Covered w sent)
    (hplaced : Placed w.cache.pods)
    (hversion : ∀ old ∈ w.cache.pods, old.cacheKey = p.cacheKey →
      old.resourceVersion = p.resourceVersion → old = p) :
    IsCovered (sent ++ wanted (w.change p)) p := by
  intro hp
  rcases wanted_or_same hplaced hversion hp with hwanted | ⟨old, hmem, hsame⟩
  · exact ⟨p, List.mem_append_right _ hwanted, SameButStatus.refl p⟩
  · obtain ⟨t, ht, hto⟩ := h.cached old hmem (hsame.deletionTimestamp.trans hp)
    exact ⟨t, List.mem_append_left _ ht, hto.trans hsame⟩

/-- Each report keeps the cache and the list covered. -/
theorem observe_covered {w : Watch} {sent : List Pod} (report : WatchEvent) (h : Covered w sent)
    (hplaced : Placed w.cache.pods)
    (hversion : ∀ p ∈ report.pods, ∀ old ∈ w.cache.pods, old.cacheKey = p.cacheKey →
      old.resourceVersion = p.resourceVersion → old = p) :
    Covered (w.observe report).2 (sent ++ triggered (w.observe report).1) := by
  cases report with
  | init =>
    refine ⟨fun p hp => (h.cached p hp).mono (by simp [observe]), ?_⟩
    intro p hp
    simp [observe, Cache.observe] at hp
  | initDone =>
    -- the list takes the place of the cache just when those who wait for its end are triggered
    refine ⟨fun p hp => (h.listed p hp).mono (by simp [observe]), ?_⟩
    intro p hp
    simp [observe, Cache.observe] at hp
  | initApply p =>
    refine ⟨fun q hq => (h.cached q hq).mono (by simp [observe]), fun q hq => ?_⟩
    rcases Cache.mem_withPod.1 hq with rfl | ⟨hq, -⟩
    · refine (isCovered_reported h hplaced (hversion q (by simp [WatchEvent.pods]))).mono
        fun t ht => ?_
      simp only [observe, triggered_publication, List.mem_append] at ht ⊢
      tauto
    · refine (h.listed q hq).mono fun t ht => ?_
      simp only [observe, triggered_publication, List.mem_append] at ht ⊢
      tauto
  | apply p =>
    refine ⟨fun q hq => ?_, fun q hq => (h.listed q hq).mono fun t ht => ?_⟩
    · rcases Cache.mem_withPod.1 hq with rfl | ⟨hq, -⟩
      · simpa [observe] using isCovered_reported h hplaced (hversion q (by simp [WatchEvent.pods]))
      · exact (h.cached q hq).mono fun t ht => List.mem_append_left _ ht
    · simp only [observe, List.mem_append] at ht ⊢
      tauto
  | delete p =>
    refine ⟨fun q hq => ?_, fun q hq => (h.listed q hq).mono (by simp [observe])⟩
    exact (h.cached q (Cache.mem_without.1 hq).1).mono fun t ht => List.mem_append_left _ ht

theorem observe_reported {w : Watch} {report : WatchEvent} {pods : List Pod}
    (hcached : ∀ p ∈ w.cache.pods, p ∈ pods) (hlisted : ∀ p ∈ w.cache.listed, p ∈ pods)
    (hreport : ∀ p ∈ report.pods, p ∈ pods) :
    (∀ p ∈ (w.observe report).2.cache.pods, p ∈ pods) ∧
      ∀ p ∈ (w.observe report).2.cache.listed, p ∈ pods := by
  cases report with
  | init => exact ⟨hcached, by simp [observe, Cache.observe]⟩
  | initDone => exact ⟨hlisted, by simp [observe, Cache.observe]⟩
  | initApply p =>
    refine ⟨hcached, fun q hq => ?_⟩
    rcases Cache.mem_withPod.1 hq with rfl | ⟨hq, -⟩
    · exact hreport q (by simp [WatchEvent.pods])
    · exact hlisted q hq
  | apply p =>
    refine ⟨fun q hq => ?_, hlisted⟩
    rcases Cache.mem_withPod.1 hq with rfl | ⟨hq, -⟩
    · exact hreport q (by simp [WatchEvent.pods])
    · exact hcached q hq
  | delete p => exact ⟨fun q hq => hcached q (Cache.mem_without.1 hq).1, hlisted⟩

theorem run_covered {pods sent : List Pod} (hplaced : Placed pods)
    (hversions : VersionsIdentify pods) (reports : List WatchEvent) (w : Watch)
    (hreports : ∀ r ∈ reports, ∀ p ∈ r.pods, p ∈ pods) (hcached : ∀ p ∈ w.cache.pods, p ∈ pods)
    (hlisted : ∀ p ∈ w.cache.listed, p ∈ pods) (h : Covered w sent) :
    Covered (run reports w).2 (sent ++ triggered (run reports w).1) := by
  induction reports generalizing w sent with
  | nil => simpa [run, triggered] using h
  | cons report rest ih =>
    have hreport := hreports report List.mem_cons_self
    have hstep := observe_covered report h (fun old hold => hplaced old (hcached old hold))
      fun p hp old hold => hversions old (hcached old hold) p (hreport p hp)
    obtain ⟨hcached', hlisted'⟩ := observe_reported hcached hlisted hreport
    have hrest := ih _ (fun r hr => hreports r (List.mem_cons_of_mem _ hr)) hcached' hlisted' hstep
    simpa [run, List.append_assoc] using hrest

/-- After any reports, in any order and with lists broken off and started again, every cached pod
that is not being deleted has been triggered: a trigger sent for it carried a pod that differs from
it at most in its version, its managed fields and its status annotation. -/
theorem cached_pod_was_triggered (reports : List WatchEvent)
    (hplaced : Placed (reports.flatMap WatchEvent.pods))
    (hversions : VersionsIdentify (reports.flatMap WatchEvent.pods)) :
    ∀ p ∈ (run reports {}).2.cache.pods, p.metadata.deletionTimestamp = none →
      ∃ t ∈ triggered (run reports {}).1, t.id = p.id ∧ SameButStatus t p := by
  intro p hp hkept
  have hstart : Covered {} [] := ⟨by simp, by simp⟩
  have hcovered := run_covered hplaced hversions reports {}
    (fun r hr p hp => List.mem_flatMap.2 ⟨r, hr, hp⟩) (by simp) (by simp) hstart
  obtain ⟨t, ht, hsame⟩ := hcovered.cached p hp hkept
  exact ⟨t, by simpa using ht, hsame.id_eq, hsame⟩

/-- A list that is broken off and started again, a status write seen in the middle of it, a change
of a label, and a stray end of a list that never began. -/
def brokenOffList : List WatchEvent :=
  let pod (version label status : String) : Pod :=
    { metadata :=
        { namespaceName := some "ns-0", name := some "pod-0", resourceVersion := some version
          labels := some (.ofList [("tier", label)])
          annotations := some (.ofList [(Key.status, status)]) } }
  [.init, .initApply (pod "1" "front" "a"), .init, .initApply (pod "1" "front" "a"), .initDone,
    .apply (pod "2" "front" "b"), .init, .initApply (pod "3" "back" "b"), .delete (pod "2" "front" "b"),
    .initDone, .apply (pod "4" "back" "c")]

theorem brokenOffList_was_triggered :
    Placed (brokenOffList.flatMap WatchEvent.pods) ∧
      VersionsIdentify (brokenOffList.flatMap WatchEvent.pods) ∧
      (run brokenOffList {}).2.cache.pods.map (·.resourceVersion) = [some "4"] ∧
      ∀ p ∈ (run brokenOffList {}).2.cache.pods,
        p.metadata.deletionTimestamp = none ∧
          ∃ t ∈ triggered (run brokenOffList {}).1, t.id = p.id ∧ SameButStatus t p := by
  have hplaced : Placed (brokenOffList.flatMap WatchEvent.pods) := by decide +kernel
  have hversions : VersionsIdentify (brokenOffList.flatMap WatchEvent.pods) := by decide +kernel
  have hkept : ∀ p ∈ (run brokenOffList {}).2.cache.pods,
      p.metadata.deletionTimestamp = none := by decide +kernel
  refine ⟨hplaced, hversions, by decide +kernel, fun p hp => ⟨hkept p hp, ?_⟩⟩
  exact cached_pod_was_triggered brokenOffList hplaced hversions p hp (hkept p hp)

/-- A pod without a namespace would stand for one of the same name that comes later. -/
example :
    let p : Pod := { metadata := { name := some "pod", resourceVersion := some "1" } }
    let q : Pod := .bare ⟨"ns", "pod"⟩ (some "1")
    VersionsIdentify [p, q] ∧ triggered (run [.apply p, .apply q] {}).1 = [p] ∧
      q ∈ (run [.apply p, .apply q] {}).2.cache.pods := by
  decide +kernel

end Watch
end PodSizing
