import PodSizing.Proofs.Except
import PodSizing.Proofs.Mutation.Resources
import PodSizing.Proofs.Status.Again

/-!
# What mutators set

The labels, the annotations and the resources of containers are entries of a pod. A mutator that only
sets entries adds or replaces those of its footprint, leaves every other entry as it is, and removes
none. Mutators in a row do the same.
-/
namespace PodSizing
open Time (Instant)

/-- A place in a pod that holds a text or nothing. -/
inductive Entry where
  | labelOf (key : String)
  | annotationOf (key : String)
  | quantityOf (container : String) (side : Side) (resource : String)
  deriving DecidableEq

/-- What a pod holds in a place; of containers with one name, the first is meant. -/
def Pod.textAt? (p : Pod) : Entry → Option String
  | .labelOf key => p.label? key
  | .annotationOf key => p.annotation? key
  | .quantityOf container side resource => (p.container? container).bind (·.quantity? side resource)

/-- The second pod has the entries of the first, but for those of the footprint, which may be new or
other ones, and it has the same containers. -/
structure Sets (footprint : Entry → Prop) (p q : Pod) : Prop where
  outside : ∀ e, ¬ footprint e → q.textAt? e = p.textAt? e
  kept : ∀ e, (p.textAt? e).isSome = true → (q.textAt? e).isSome = true
  names : q.containers.map (·.name) = p.containers.map (·.name)

namespace Sets
variable {footprint : Entry → Prop} {p q r : Pod}

theorem refl (footprint : Entry → Prop) (p : Pod) : Sets footprint p p :=
  ⟨fun _ _ => rfl, fun _ h => h, rfl⟩

theorem mono {larger : Entry → Prop} (hsub : ∀ e, footprint e → larger e)
    (h : Sets footprint p q) : Sets larger p q :=
  ⟨fun e he => h.outside e fun hf => he (hsub e hf), h.kept, h.names⟩

theorem trans (h : Sets footprint p q) (k : Sets footprint q r) : Sets footprint p r where
  outside e he := (k.outside e he).trans (h.outside e he)
  kept e he := k.kept e (h.kept e he)
  names := k.names.trans h.names

end Sets

namespace Mutator
variable {footprint : Entry → Prop} {mutators : List Mutator} {p : Pod} {edit : Edit}

/-- The mutator adds or replaces entries of the footprint, and that is all. -/
def OnlySets (footprint : Entry → Prop) (m : Mutator) : Prop :=
  ∀ now p edit, m now p = .ok edit → Sets footprint p edit.pod

theorem foldlM_andThen_rel {R : Pod → Pod → Prop} (hrefl : ∀ p, R p p)
    (htrans : ∀ {p q r}, R p q → R q r → R p r)
    (h : ∀ m ∈ mutators, ∀ now p edit, m now p = .ok edit → R p edit.pod) {now : Instant}
    {before : Edit} (hedit : mutators.foldlM (andThen now) before = .ok edit) :
    R before.pod edit.pod := by
  induction mutators generalizing before with
  | nil =>
    cases hedit
    exact hrefl _
  | cons m rest ih =>
    rw [List.foldlM_cons] at hedit
    obtain ⟨next, hnext, hrest⟩ := Except.bind_eq_ok.1 hedit
    obtain ⟨made, hmade, rfl⟩ := Except.map_eq_ok.1 hnext
    have hfirst := h m List.mem_cons_self now before.pod made hmade
    have hlast := ih (fun m hm => h m (List.mem_cons_of_mem _ hm)) hrest
    exact htrans hfirst hlast

/-- What each mutator does to a pod at most, they do at most in a row. -/
theorem applyAll_rel {R : Pod → Pod → Prop} (hrefl : ∀ p, R p p)
    (htrans : ∀ {p q r}, R p q → R q r → R p r)
    (h : ∀ m ∈ mutators, ∀ now p edit, m now p = .ok edit → R p edit.pod) {now : Instant}
    (hedit : applyAll mutators now p = .ok edit) : R p edit.pod :=
  foldlM_andThen_rel hrefl htrans h hedit

theorem applyAll_sets (h : ∀ m ∈ mutators, OnlySets footprint m) {now : Instant}
    (hedit : applyAll mutators now p = .ok edit) : Sets footprint p edit.pod :=
  applyAll_rel (Sets.refl footprint) Sets.trans h hedit

end Mutator

theorem Pod.textAt?_annotation_after (p : Pod) (key value : String) (e : Entry)
    (he : e ≠ .annotationOf key) : (p.setAnnotation key value).textAt? e = p.textAt? e := by
  cases e with
  | annotationOf k =>
    have hk : k ≠ key := fun h => he (congrArg Entry.annotationOf h)
    simp only [Pod.textAt?, Pod.annotation?_afterSet, if_neg hk]
  | labelOf k => rfl
  | quantityOf container side resource => rfl

theorem StatusUpdate.onlySets (u : StatusUpdate) :
    u.mutator.OnlySets (· = .annotationOf Key.status) := by
  intro now p edit hedit
  cases hedit
  rcases u.apply_pod now p with hpod | ⟨value, hpod⟩
  · rw [hpod]
    exact Sets.refl _ p
  · rw [hpod]
    refine ⟨fun e he => p.textAt?_annotation_after _ _ e he, fun e he => ?_, rfl⟩
    by_cases hstatus : e = .annotationOf Key.status
    · simp [hstatus, Pod.textAt?]
    · rw [p.textAt?_annotation_after _ _ e hstatus]
      exact he

namespace Pod

theorem container?_withResources_of_ne (p : Pod) {name n : String} (h : n ≠ name)
    (updates : List ResourceUpdate) :
    (p.withResources name updates).container? n = p.container? n := by
  simp only [container?, containers, withResources, mapContainers]
  cases p.spec with
  | none => rfl
  | some s =>
    refine find?_updateFirst_of_ne (by simp) (fun c hc => ?_) s.containers
    simp only [decide_eq_true_eq] at hc
    simpa [hc] using h.symm

theorem names_withResources (p : Pod) (name : String) (updates : List ResourceUpdate) :
    (p.withResources name updates).containers.map (·.name) = p.containers.map (·.name) := by
  simp only [containers, withResources, mapContainers]
  cases p.spec with
  | none => rfl
  | some s => exact map_updateFirst (by simp) s.containers

end Pod

namespace Mutator

theorem foldlM_setResource_ok {p q : Pod} {name : String} {updates : List ResourceUpdate}
    (h : updates.foldlM (setResource name) p = .ok q) :
    q = p.withResources name updates ∧ (updates ≠ [] → p.isContainerInSpec name = true) := by
  cases hpresent : p.isContainerInSpec name with
  | true =>
    rw [foldlM_setResource hpresent] at h
    cases h
    exact ⟨rfl, fun _ => rfl⟩
  | false =>
    cases updates with
    | nil =>
      cases h
      exact ⟨(Pod.withResources_nil p name).symm, fun hne => absurd rfl hne⟩
    | cons u rest =>
      rw [List.foldlM_cons] at h
      obtain ⟨next, hnext, -⟩ := Except.bind_eq_ok.1 h
      simp [setResource, Pod.setContainerResource, hpresent] at hnext

theorem resources_onlySets (name : String) (updates : List ResourceUpdate) :
    (resources name updates).OnlySets fun e =>
      ∃ u ∈ updates, ∃ side, e = .quantityOf name side u.resource.text := by
  intro now p edit hedit
  obtain ⟨q, hq, rfl⟩ := Except.map_eq_ok.1 hedit
  rw [(foldlM_setResource_ok hq).1]
  refine ⟨fun e he => ?_, fun e he => ?_, p.names_withResources name updates⟩
  · cases e with
    | labelOf key => rfl
    | annotationOf key => rfl
    | quantityOf container side resource =>
      simp only [Pod.textAt?]
      by_cases hc : container = name
      · have hne : ∀ u ∈ updates, u.resource.text ≠ resource := fun u hu heq =>
          he ⟨u, hu, side, by rw [heq, hc]⟩
        rw [hc, Pod.container?_withResources]
        cases p.container? name with
        | none => rfl
        | some c => exact Container.quantity?_withUpdates_of_ne hne c side
      · rw [p.container?_withResources_of_ne hc]
  · cases e with
    | labelOf key => exact he
    | annotationOf key => exact he
    | quantityOf container side resource =>
      simp only [Pod.textAt?] at he ⊢
      by_cases hc : container = name
      · rw [hc] at he ⊢
        rw [Pod.container?_withResources]
        cases hfound : p.container? name with
        | none => simp [hfound] at he
        | some c =>
          rw [hfound] at he
          exact Container.quantity?_withUpdates_isSome updates he
      · rwa [p.container?_withResources_of_ne hc]

/-- Setting resources and a status in one go sets the quantities and the status annotation. -/
theorem command_onlySets (name : String) (updates : List ResourceUpdate) (u : StatusUpdate) :
    ∀ m ∈ [resources name updates, u.mutator], m.OnlySets fun e =>
      e = .annotationOf Key.status ∨
        ∃ u ∈ updates, ∃ side, e = .quantityOf name side u.resource.text := by
  intro m hm now p edit hedit
  simp only [List.mem_cons, List.not_mem_nil, or_false] at hm
  rcases hm with rfl | rfl
  · exact (resources_onlySets name updates now p edit hedit).mono fun e he => .inr he
  · exact (u.onlySets now p edit hedit).mono fun e he => .inl he

end Mutator
end PodSizing
