import PodSizing.Proofs.Pod.Frame
import PodSizing.Proofs.Program
import PodSizing.Store

/-!
# What a store keeps

A pod that is put is found under its name, and a write that no fault stops puts what the mutators make
of a pod, or nothing if they change nothing.
-/
namespace PodSizing
open Time (Instant)

theorem PodId.compare_self (id : PodId) : id.compare id = .eq := by
  simp [PodId.compare]

theorem PodId.eq_of_compare {a b : PodId} (h : a.compare b = .eq) : a = b := by
  obtain ⟨hnamespace, hname⟩ := Ordering.then_eq_eq.1 h
  obtain ⟨namespaceName, name⟩ := a
  obtain ⟨namespaceName', name'⟩ := b
  cases Std.LawfulEqOrd.eq_of_compare hnamespace
  cases Std.LawfulEqOrd.eq_of_compare hname
  rfl

namespace Call

def isWrite : Call → Bool
  | .patch _ _ _ _ (.ok changed) => changed
  | .patch _ _ _ _ (.error _) => false
  | .get _ => false

/-- Whether the call was to set resources. -/
def isCommand : Call → Bool
  | .patch _ _ touchesResize _ _ => touchesResize
  | .get _ => false

end Call

namespace Store

/-- No fault stops a request, and the pod is stored under the name. -/
structure Holds (s : Store) (id : PodId) (p : Pod) : Prop where
  faults : s.faults = {}
  found : s.find? id = some p

theorem Holds.id_eq {s : Store} {id : PodId} {p : Pod} (h : s.Holds id p) : p.id = id := by
  simpa using List.find?_some h.found

theorem find?_place (p : Pod) (l : List Pod) :
    (place p l).find? (fun q => q.id = p.id) = some p := by
  induction l with
  | nil => simp [place]
  | cons q rest ih =>
    unfold place
    split
    · simp
    · simp
    · next hgt =>
      have hne : q.id ≠ p.id := fun heq => by
        rw [heq, PodId.compare_self] at hgt
        cases hgt
      simpa [hne] using ih

theorem find?_place_of_ne {p : Pod} {id : PodId} (h : p.id ≠ id) (l : List Pod) :
    (place p l).find? (fun q => q.id = id) = l.find? fun q => q.id = id := by
  induction l with
  | nil => simp [place, h]
  | cons q rest ih =>
    unfold place
    split
    · simp [h]
    · next heq =>
      have hq : q.id ≠ id := PodId.eq_of_compare heq ▸ h
      simp [h, hq]
    · simp only [List.find?_cons, ih]

def applied (s : Store) (edit : Edit) : Store := if edit.changed then (s.put edit.pod).2 else s

theorem applied_changed {s : Store} {edit : Edit} (h : edit.changed = true) :
    s.applied edit = (s.put edit.pod).2 := by
  simp [applied, h]

theorem applied_unchanged {s : Store} {edit : Edit} (h : edit.changed = false) :
    s.applied edit = s := by
  simp [applied, h]

@[simp] theorem applied_faults (s : Store) (edit : Edit) : (s.applied edit).faults = s.faults := by
  unfold applied
  split <;> rfl

@[simp] theorem applied_calls (s : Store) (edit : Edit) : (s.applied edit).calls = s.calls := by
  unfold applied
  split <;> rfl

@[simp] theorem applied_events (s : Store) (edit : Edit) : (s.applied edit).events = s.events := by
  unfold applied
  split <;> rfl

@[simp] theorem applied_uptime (s : Store) (edit : Edit) : (s.applied edit).uptime = s.uptime := by
  unfold applied
  split <;> rfl

theorem find?_applied {s : Store} {edit : Edit} (h : edit.changed = true) :
    (s.applied edit).find? edit.pod.id =
      some (edit.pod.withVersion (some (toString s.nextVersion))) := by
  rw [applied_changed h]
  exact find?_place (edit.pod.withVersion (some (toString s.nextVersion))) s.pods

theorem find?_applied_of_ne {s : Store} {edit : Edit} {id : PodId} (h : edit.pod.id ≠ id) :
    (s.applied edit).find? id = s.find? id := by
  unfold applied
  split
  · exact find?_place_of_ne (p := edit.pod.withVersion (some (toString s.nextVersion))) h s.pods
  · rfl

/-- A write fails, or puts what the mutators make of the pod that is given; which of the two, and with what
observations, is the same for all stores with the same faults at the same time. -/
theorem write_cases (s : Store) (base : Pod) (mutators : List Mutator) (touchesResize : Bool) :
    (∃ e, ∀ t : Store, t.faults = s.faults → t.now = s.now →
      t.write base mutators touchesResize = (.error e, t)) ∨
    ∃ edit, Mutator.applyAll mutators s.now base = .ok edit ∧
      ∀ t : Store, t.faults = s.faults → t.now = s.now →
        ∃ q, t.write base mutators touchesResize =
          (.ok (edit.changed, ⟨q, edit.observations⟩), t.applied edit) := by
  cases hcode : if touchesResize then s.faults.resizeCode else s.faults.patchCode with
  | some code =>
    refine .inl ⟨injected code, fun t hfaults hnow => ?_⟩
    simp only [write, hfaults, hcode]
  | none =>
    cases hedit : Mutator.applyAll mutators s.now base with
    | error e =>
      refine .inl ⟨.shape e, fun t hfaults hnow => ?_⟩
      simp only [write, hfaults, hcode, hnow, hedit]
    | ok edit =>
      refine .inr ⟨edit, rfl, fun t hfaults hnow => ?_⟩
      simp only [write, hfaults, hcode, hnow, hedit]
      cases hchanged : edit.changed with
      | true => exact ⟨_, by rw [applied_changed hchanged]; rfl⟩
      | false => exact ⟨_, by rw [applied_unchanged hchanged]; rfl⟩

/-- Without faults, a write applies the mutators and puts the result. -/
theorem patch_eq {s : Store} (hfaults : s.faults = {}) (context : Context) {base : Pod}
    {mutators : List Mutator} {edit : Edit}
    (h : Mutator.applyAll mutators s.now base = .ok edit) (touchesResize awaitsSync : Bool) :
    ∃ q, s.patch context base mutators touchesResize awaitsSync =
      (.ok ⟨q, edit.observations⟩, (s.applied edit).log
        (.patch context mutators.length touchesResize awaitsSync (.ok edit.changed))) := by
  by_cases hchanged : edit.changed = true
  · exact ⟨_, by simp [patch, write, hfaults, h, hchanged, applied, Except.map]; rfl⟩
  · exact ⟨_, by simp [patch, write, hfaults, h, hchanged, applied, Except.map]; rfl⟩

theorem run_patch (s : Store) (context : Context) (base : Pod) (mutators : List Mutator)
    (touchesResize awaitsSync : Bool) :
    (PodProgram.patch context base mutators touchesResize awaitsSync).run handle s =
      (.ok (s.patch context base mutators touchesResize awaitsSync).1,
        (s.patch context base mutators touchesResize awaitsSync).2) := rfl

theorem run_resize (s : Store) (context : Context) (base : Pod) (container : String)
    (updates : List ResourceUpdate) (mutators : List Mutator) (awaitsSync : Bool) :
    (PodProgram.resize context base container updates mutators awaitsSync).run handle s =
      (.ok (s.patch context base (.resources container updates :: mutators) true awaitsSync).1,
        (s.patch context base (.resources container updates :: mutators) true awaitsSync).2) := rfl

end Store
end PodSizing
