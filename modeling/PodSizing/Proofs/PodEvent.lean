import PodSizing.PodEvent
import PodSizing.Proofs.Keyed

/-!
# Changes of nothing but the status

Two pods that say the same but for their version, their managed fields and the status annotation.
The comparison that passes events over decides exactly this relation, which is an equivalence: a
chain of passed-over changes adds up to nothing.
-/
namespace PodSizing

/-- Pods that differ at most in what writing a status changes; no table of annotations and an empty
one hold the same annotations. -/
structure SameButStatus (a b : Pod) : Prop where
  spec : a.spec = b.spec
  status : a.status = b.status
  namespaceName : a.metadata.namespaceName = b.metadata.namespaceName
  name : a.metadata.name = b.metadata.name
  generateName : a.metadata.generateName = b.metadata.generateName
  labels : a.metadata.labels = b.metadata.labels
  deletionTimestamp : a.metadata.deletionTimestamp = b.metadata.deletionTimestamp
  other : a.metadata.other = b.metadata.other
  annotations : ∀ key, key ≠ Key.status → a.annotation? key = b.annotation? key

namespace SameButStatus

theorem refl (a : Pod) : SameButStatus a a := by
  constructor <;> intros <;> rfl

theorem trans {a b c : Pod} (h : SameButStatus a b) (k : SameButStatus b c) :
    SameButStatus a c where
  spec := h.spec.trans k.spec
  status := h.status.trans k.status
  namespaceName := h.namespaceName.trans k.namespaceName
  name := h.name.trans k.name
  generateName := h.generateName.trans k.generateName
  labels := h.labels.trans k.labels
  deletionTimestamp := h.deletionTimestamp.trans k.deletionTimestamp
  other := h.other.trans k.other
  annotations key hkey := (h.annotations key hkey).trans (k.annotations key hkey)

theorem id_eq {a b : Pod} (h : SameButStatus a b) : a.id = b.id := by
  simp only [Pod.id, Pod.effectiveName, h.namespaceName, h.name, h.generateName]

end SameButStatus

namespace Metadata

theorem foreignAnnotations_get? (m : Metadata) (key : String) :
    m.foreignAnnotations.bind (·.get? key) =
      if key = Key.status then none else m.annotations.bind (·.get? key) := by
  unfold foreignAnnotations
  cases hm : m.annotations with
  | none => simp
  | some table =>
    have hget := table.get?_erase Key.status key
    simp only [Option.map_some]
    split
    · next hempty =>
      have hnone := (Keyed.isEmpty_iff _).1 hempty key
      exact hnone.symm.trans hget
    · simpa using hget

theorem foreignAnnotations_isEmpty {m : Metadata} {table : Keyed String}
    (h : m.foreignAnnotations = some table) : table.isEmpty = false := by
  unfold foreignAnnotations at h
  split at h
  · split at h
    · cases h
    · next hempty =>
      cases h
      simpa using hempty
  · cases h

theorem foreignAnnotations_eq_iff (m n : Metadata) :
    m.foreignAnnotations = n.foreignAnnotations ↔
      ∀ key, key ≠ Key.status →
        m.annotations.bind (·.get? key) = n.annotations.bind (·.get? key) := by
  constructor
  · intro h key hkey
    have hm := m.foreignAnnotations_get? key
    rw [h, n.foreignAnnotations_get?] at hm
    simpa [hkey] using hm.symm
  · intro h
    have hget (key : String) :
        m.foreignAnnotations.bind (·.get? key) = n.foreignAnnotations.bind (·.get? key) := by
      rw [foreignAnnotations_get?, foreignAnnotations_get?]
      by_cases hkey : key = Key.status
      · simp [hkey]
      · simpa [hkey] using h key hkey
    -- neither side is an empty table, which would have the lookups of no table
    have hempty (a : Metadata) (t : Keyed String) (ha : a.foreignAnnotations = some t)
        (hnone : ∀ key, t.get? key = none) : False := by
      have htrue := t.isEmpty_iff.2 hnone
      rw [foreignAnnotations_isEmpty ha] at htrue
      cases htrue
    cases hm : m.foreignAnnotations with
    | none =>
      cases hn : n.foreignAnnotations with
      | none => rfl
      | some u => exact (hempty n u hn fun key => by simpa [hm, hn] using (hget key).symm).elim
    | some t =>
      cases hn : n.foreignAnnotations with
      | none => exact (hempty m t hm fun key => by simpa [hm, hn] using hget key).elim
      | some u => exact congrArg some (Keyed.ext_get? fun key => by simpa [hm, hn] using hget key)

end Metadata

namespace PodEvent

theorem withoutStatus_eq_iff (a b : Metadata) :
    a.withoutStatus = b.withoutStatus ↔
      a.namespaceName = b.namespaceName ∧ a.name = b.name ∧ a.generateName = b.generateName ∧
        a.labels = b.labels ∧ a.foreignAnnotations = b.foreignAnnotations ∧
        a.deletionTimestamp = b.deletionTimestamp ∧ a.other = b.other := by
  simp only [Metadata.withoutStatus, Metadata.mk.injEq, true_and]

/-- The comparison of pods decides whether they are the same but for the status. -/
theorem onlyStatusChanged_iff (a b : Pod) : onlyStatusChanged a b = true ↔ SameButStatus a b := by
  simp only [onlyStatusChanged, Bool.and_eq_true, decide_eq_true_eq, withoutStatus_eq_iff,
    Metadata.foreignAnnotations_eq_iff]
  constructor
  · rintro ⟨⟨hspec, hstatus⟩, hns, hname, hgen, hlabels, hann, hdel, hother⟩
    exact ⟨hspec, hstatus, hns, hname, hgen, hlabels, hdel, hother, hann⟩
  · intro h
    exact ⟨⟨h.spec, h.status⟩, h.namespaceName, h.name, h.generateName, h.labels,
      h.annotations, h.deletionTimestamp, h.other⟩

/-- When an update is passed over: its version is known, the pod is going, or nothing but a status that
one of the two bears has changed. -/
theorem decide_updated_skip_iff {old new : Pod} :
    (updated old new).decide.1 = .skip ↔
      old.resourceVersion = new.resourceVersion ∨ new.metadata.deletionTimestamp.isSome = true ∨
        SameButStatus old new ∧ ∃ p ∈ [old, new], p.hasAnnotation Key.status = true := by
  simp only [decide, List.mem_cons, List.not_mem_nil, or_false, exists_eq_or_imp, exists_eq_left]
  split
  · next hversion => simp [hversion]
  · next hversion =>
    split
    · next hgoing => simp [hgoing]
    · next hgoing =>
      split
      · next hbare =>
        have hneither : old.hasAnnotation Key.status = false ∧
            new.hasAnnotation Key.status = false := by simpa using hbare
        simp [hversion, hgoing, hneither]
      · next hbare =>
        have heither : old.hasAnnotation Key.status = true ∨
            new.hasAnnotation Key.status = true := by
          cases hold : old.hasAnnotation Key.status <;> simp_all
        split
        · next hsame => simp [heither, (onlyStatusChanged_iff old new).1 hsame]
        · next hdiffers =>
          have hother : ¬ SameButStatus old new := fun h =>
            hdiffers ((onlyStatusChanged_iff old new).2 h)
          simp [hversion, hgoing, hother]

/-- An update is passed over because its version is known, because the pod is going, or because
nothing but the status has changed. -/
theorem decide_updated_skip {old new : Pod} (h : (updated old new).decide.1 = .skip) :
    old.resourceVersion = new.resourceVersion ∨ new.metadata.deletionTimestamp.isSome = true ∨
      SameButStatus old new := by
  rcases decide_updated_skip_iff.1 h with hversion | hgoing | ⟨hsame, -⟩
  · exact .inl hversion
  · exact .inr (.inl hgoing)
  · exact .inr (.inr hsame)

theorem decide_eq_reconcile_iff {e : PodEvent} : e.decide.1 = .reconcile ↔ e.decide.1 ≠ .skip := by
  cases e.decide.1 <;> simp

end PodEvent
end PodSizing
