import PodSizing.Proofs.Api.Sound

/-!
# Versions do not go back

A stored pod is the newest of all pods that were ever stored under its name, whatever others write and
delete. So what a server answers is never older than what it has answered before for that name.
-/
namespace PodSizing

/-- Both pods have versions of the server, and the first one's was given earlier. -/
def World.Older (w : World) (p q : Pod) : Prop :=
  ∃ m n, p.resourceVersion = some (w.version m) ∧ q.resourceVersion = some (w.version n) ∧ m < n

theorem World.Older.irrefl {w : World} {p : Pod} : ¬ w.Older p p := by
  rintro ⟨m, n, hm, hn, hlt⟩
  have hsame := w.fresh m n (Option.some.inj (hm.symm.trans hn))
  omega

theorem World.Older.congr {w : World} {p p' q : Pod} (h : p'.resourceVersion = p.resourceVersion) :
    w.Older p' q ↔ w.Older p q := by
  simp only [World.Older, h]

namespace Server
variable {w : World} {s : Server}

/-- A stored pod is not older than any that was stored under its name. -/
def Newest (w : World) (s : Server) : Prop :=
  ∀ id p, s.pods id = some p → ∀ q ∈ s.history, q.id = id → ¬ w.Older p q

theorem empty_newest (w : World) : Newest w {} := fun _ _ h => by cases h

theorem store_newest (hs : s.Sound w) (h : s.Newest w) (p : Pod) : (s.store w p).Newest w := by
  have hlast : ∀ q ∈ s.history, ¬ w.Older (p.withVersion (some (w.version s.writes))) q := by
    rintro q hq ⟨m, n, hm, hn, hlt⟩
    obtain ⟨k, hk, hversion⟩ := hs.versioned q hq
    have hnew := w.fresh _ _ (Option.some.inj hm)
    have hold := w.fresh _ _ (Option.some.inj (hversion.symm.trans hn))
    omega
  intro id q hstored r hr hid
  simp only [store] at hstored hr
  split at hstored
  · -- the pod that has just been stored
    cases hstored
    rcases List.mem_cons.1 hr with rfl | hr
    · exact World.Older.irrefl
    · exact hlast r hr
  · next hother =>
    rcases List.mem_cons.1 hr with rfl | hr
    · exact absurd hid.symm hother
    · exact h id q hstored r hr hid

theorem change_newest (hs : s.Sound w) (h : s.Newest w) (c : Change) : (s.change w c).Newest w := by
  cases c with
  | put p =>
    simp only [change]
    split
    · exact store_newest hs h p
    · exact h
  | delete id =>
    intro i p hp q hq hid
    simp only [change] at hp
    split at hp
    · cases hp
    · exact h i p hp q hq hid

theorem advance_newest (hs : s.Sound w) (h : s.Newest w) : (s.advance w).Newest w := by
  have hchanges (changes : List Change) (t : Server) (ht : t.Sound w) (hnewest : t.Newest w) :
      (changes.foldl (change w) t).Newest w := by
    induction changes generalizing t with
    | nil => exact hnewest
    | cons c rest ih => exact ih _ (change_sound ht c) (change_newest ht hnewest c)
  exact hchanges _ _ (hs.atTurn _) h

theorem get_newest (hs : s.Sound w) (h : s.Newest w) (id : PodId) :
    (s.get w id).2.Newest w ∧ ∀ p, (s.get w id).1 = .ok p → (s.get w id).2.pods id = some p := by
  have hadvanced := advance_newest hs h
  unfold get
  dsimp only
  split
  · next p hp hstored =>
    refine ⟨hadvanced, fun q hq => ?_⟩
    cases hq
    exact hstored
  · exact ⟨hadvanced, fun q hq => by cases hq⟩
  · exact ⟨hadvanced, fun q hq => by cases hq⟩
  · exact ⟨hadvanced, fun q hq => by cases hq⟩

theorem carryOut_newest (hs : s.Sound w) (h : s.Newest w) (renews : Bool) (id : PodId)
    (patch : Patch) :
    (s.carryOut w renews id patch).2.Newest w ∧ ∀ p, (s.carryOut w renews id patch).1 = .ok p →
      (s.carryOut w renews id patch).2.pods id = some p := by
  cases hbefore : s.pods id with
  | none =>
    simp only [carryOut, hbefore]
    exact ⟨h, fun p hp => by cases hp⟩
  | some before =>
    by_cases hconflict : (patch.version.isSome && patch.version ≠ before.resourceVersion) = true
    · simp only [carryOut, hbefore, hconflict, if_true]
      exact ⟨h, fun p hp => by cases hp⟩
    · cases hmerge : patch.merge? before with
      | none =>
        simp only [carryOut, hbefore, hconflict, hmerge]
        exact ⟨h, fun p hp => by cases hp⟩
      | some merged =>
        have hid : merged.id = id := (Patch.merge?_frame hmerge).1.trans (hs.stored id before hbefore).2
        rw [carryOut_merged hbefore hconflict hmerge]
        by_cases hkeeps : (merged = before && !renews) = true
        · have hcommit : s.commit w renews before merged = (before, s) := if_pos hkeeps
          rw [hcommit]
          refine ⟨h, fun p hp => ?_⟩
          cases hp
          exact hbefore
        · have hcommit : s.commit w renews before merged =
              (merged.withVersion (some (w.version s.writes)), s.store w merged) := if_neg hkeeps
          rw [hcommit]
          refine ⟨store_newest hs h merged, fun p hp => ?_⟩
          cases hp
          exact if_pos (hid.symm.trans (merged.withVersion_id _).symm)

theorem patch_newest (hs : s.Sound w) (h : s.Newest w) (id : PodId) (patch : Patch) :
    (s.patch w id patch).2.Newest w ∧ ∀ p, (s.patch w id patch).1 = .ok p →
      (s.patch w id patch).2.pods id = some p := by
  have hadvanced := advance_newest hs h
  have hcarried := carryOut_newest (advance_later hs).sound hadvanced (w.renews s.turn) id patch
  unfold Server.patch
  dsimp only
  cases w.verdict s.turn with
  | answer => exact hcarried
  | refuse failure => exact ⟨hadvanced, fun p hp => by cases hp⟩
  | lose failure => exact ⟨hcarried.1, fun p hp => by cases hp⟩

end Server
end PodSizing
