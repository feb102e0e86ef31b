import PodSizing.Proofs.Api.Server

/-!
# What holds of every server

A version belongs to one pod only, so a patch that is carried out meets the pod that it was made for.
Other writers and failures keep this, and so does every request.
-/
namespace PodSizing

theorem Container.mergeFrom_name (c : Container) (patches : List (String × Option Resources)) :
    (c.mergeFrom patches).name = c.name := by
  unfold mergeFrom
  split <;> rfl

theorem Patch.merge?_frame {patch : Patch} {p q : Pod} (h : patch.merge? p = some q) :
    q.id = p.id ∧ q.containers.map (·.name) = p.containers.map (·.name) := by
  cases patch with
  | metadata patch =>
    cases h
    exact ⟨rfl, rfl⟩
  | resize patch =>
    simp only [Patch.merge?, ResizePatch.merge?] at h
    split at h
    · cases h
      refine ⟨rfl, ?_⟩
      unfold Pod.containers Pod.mapContainers
      cases p.spec with
      | none => rfl
      | some spec => simp [Container.mergeFrom_name]
    · cases h

def Exchange.Honest (history : List Pod) : Exchange → Prop
  | .told _ => True
  | .got id p => p ∈ history ∧ p.id = id
  | .patched id patch before after =>
    before ∈ history ∧ after ∈ history ∧ before.id = id ∧
      (patch.version.isSome = true → patch.version = before.resourceVersion) ∧
      ∃ merged, patch.merge? before = some merged ∧ after = merged.withVersion after.resourceVersion

theorem Exchange.Honest.mono {history later : List Pod} (hsub : ∀ p ∈ history, p ∈ later)
    {e : Exchange} (h : e.Honest history) : e.Honest later := by
  cases e with
  | told now => trivial
  | got id p => exact ⟨hsub p h.1, h.2⟩
  | patched id patch before after =>
    obtain ⟨hbefore, hafter, hrest⟩ := h
    exact ⟨hsub _ hbefore, hsub _ hafter, hrest⟩

namespace Server
variable {w : World} {s : Server}

/-- Stored pods are where their names say, a version belongs to one pod only, the containers of a pod
have different names, and the log is true. -/
structure Sound (w : World) (s : Server) : Prop where
  stored : ∀ id p, s.pods id = some p → p ∈ s.history ∧ p.id = id
  versioned : ∀ p ∈ s.history, ∃ n, n < s.writes ∧ p.resourceVersion = some (w.version n)
  identified : ∀ p ∈ s.history, ∀ q ∈ s.history, p.resourceVersion = q.resourceVersion → p = q
  distinct : ∀ p ∈ s.history, (p.containers.map (·.name)).Nodup
  honest : ∀ e ∈ s.log, e.Honest s.history

theorem empty_sound (w : World) : ({} : Server).Sound w where
  stored _ _ h := by cases h
  versioned _ h := by cases h
  identified _ h := by cases h
  distinct _ h := by cases h
  honest _ h := by cases h

theorem Sound.atTurn (h : s.Sound w) (turn : Nat) : Server.Sound w { s with turn } :=
  ⟨h.stored, h.versioned, h.identified, h.distinct, h.honest⟩

theorem Sound.logged (h : s.Sound w) {e : Exchange} (he : e.Honest s.history) :
    Server.Sound w { s with log := e :: s.log } where
  stored := h.stored
  versioned := h.versioned
  identified := h.identified
  distinct := h.distinct
  honest e' he' := by
    rcases List.mem_cons.1 he' with rfl | he'
    · exact he
    · exact h.honest e' he'

theorem Sound.clocked (h : s.Sound w) :
    Server.Sound w { s with turn := s.turn + 1, log := .told (w.clock s.turn) :: s.log } :=
  (h.atTurn (s.turn + 1)).logged (e := .told (w.clock s.turn)) trivial

theorem store_sound (h : s.Sound w) {p : Pod} (hp : (p.containers.map (·.name)).Nodup) :
    (s.store w p).Sound w := by
  have hfresh : ∀ q ∈ s.history, q.resourceVersion ≠ some (w.version s.writes) := by
    intro q hq heq
    obtain ⟨n, hn, hversion⟩ := h.versioned q hq
    have hsame : w.version n = w.version s.writes := Option.some.inj (hversion.symm.trans heq)
    exact absurd (w.fresh _ _ hsame) (by omega)
  constructor
  · intro id q hq
    simp only [store] at hq ⊢
    split at hq
    · next hid =>
      cases hq
      exact ⟨List.mem_cons_self, hid.symm⟩
    · exact ⟨List.mem_cons_of_mem _ (h.stored id q hq).1, (h.stored id q hq).2⟩
  · intro q hq
    rcases List.mem_cons.1 hq with rfl | hq
    · exact ⟨s.writes, Nat.lt_succ_self _, rfl⟩
    · obtain ⟨n, hn, hversion⟩ := h.versioned q hq
      exact ⟨n, Nat.lt_succ_of_lt hn, hversion⟩
  · intro q hq r hr heq
    rcases List.mem_cons.1 hq with rfl | hq
    · rcases List.mem_cons.1 hr with rfl | hr
      · rfl
      · exact absurd heq.symm (hfresh r hr)
    · rcases List.mem_cons.1 hr with rfl | hr
      · exact absurd heq (hfresh q hq)
      · exact h.identified q hq r hr heq
  · intro q hq
    rcases List.mem_cons.1 hq with rfl | hq
    · exact hp
    · exact h.distinct q hq
  · intro e he
    exact (h.honest e he).mono fun q hq => List.mem_cons_of_mem _ hq

theorem change_sound (h : s.Sound w) (c : Change) : (s.change w c).Sound w := by
  cases c with
  | put p =>
    by_cases haccepts : accepts p = true
    · simpa [change, haccepts] using store_sound h (by simpa [accepts] using haccepts)
    · simpa [change, haccepts] using h
  | delete id =>
    refine ⟨fun i p hp => ?_, h.versioned, h.identified, h.distinct, h.honest⟩
    simp only [change] at hp
    split at hp
    · cases hp
    · exact h.stored i p hp

theorem change_log (s : Server) (c : Change) : (s.change w c).log = s.log := by
  unfold change
  split
  · split <;> rfl
  · rfl

theorem mem_history_change (c : Change) {p : Pod} (h : p ∈ s.history) :
    p ∈ (s.change w c).history := by
  unfold change
  split
  · split
    · exact List.mem_cons_of_mem _ h
    · exact h
  · exact h

/-- The states that a server can come to from another, while it is told nothing new by the client. -/
structure Later (w : World) (s t : Server) : Prop where
  sound : t.Sound w
  history : ∀ p ∈ s.history, p ∈ t.history
  log : t.log = s.log

theorem Later.changes (changes : List Change) {t : Server} (h : Later w s t) :
    Later w s (changes.foldl (change w) t) := by
  induction changes generalizing t with
  | nil => exact h
  | cons c rest ih =>
    exact ih ⟨change_sound h.sound c, fun p hp => mem_history_change c (h.history p hp),
      (change_log t c).trans h.log⟩

theorem advance_later (h : s.Sound w) : Later w s (s.advance w) :=
  Later.changes _ ⟨h.atTurn _, fun _ hp => hp, rfl⟩

theorem get_cases (h : s.Sound w) (id : PodId) :
    (∃ failure, (s.get w id).1 = .error failure ∧ Later w s (s.get w id).2) ∨
      ∃ p, (s.get w id).1 = .ok p ∧ (s.get w id).2.Sound w ∧
        (∀ q ∈ s.history, q ∈ (s.get w id).2.history) ∧
          (s.get w id).2.log = .got id p :: s.log := by
  have hlater := advance_later h
  unfold get
  dsimp only
  split
  · next p _ hp =>
    have hstored := hlater.sound.stored id p hp
    exact .inr ⟨p, rfl, hlater.sound.logged hstored, hlater.history, by rw [hlater.log]⟩
  · exact .inl ⟨_, rfl, hlater⟩
  · exact .inl ⟨_, rfl, hlater⟩
  · exact .inl ⟨_, rfl, hlater⟩

/-- What is stored after a merge is the merged pod, under a version that belongs to it. -/
theorem commit_spec (h : s.Sound w) (renews : Bool) {before merged : Pod}
    (hbefore : before ∈ s.history) (hnames : (merged.containers.map (·.name)).Nodup) :
    Later w s (s.commit w renews before merged).2 ∧
      (s.commit w renews before merged).1 ∈ (s.commit w renews before merged).2.history ∧
      (s.commit w renews before merged).1 =
        merged.withVersion (s.commit w renews before merged).1.resourceVersion := by
  by_cases hkeeps : (merged = before && !renews) = true
  · have hsame : merged = before := by
      simp only [Bool.and_eq_true, decide_eq_true_eq] at hkeeps
      exact hkeeps.1
    have hcommit : s.commit w renews before merged = (before, s) := if_pos hkeeps
    rw [hcommit, hsame]
    exact ⟨⟨h, fun _ hq => hq, rfl⟩, hbefore, rfl⟩
  · have hcommit : s.commit w renews before merged =
        (merged.withVersion (some (w.version s.writes)), s.store w merged) := if_neg hkeeps
    rw [hcommit]
    exact ⟨⟨store_sound h hnames, fun _ hq => List.mem_cons_of_mem _ hq, rfl⟩,
      List.mem_cons_self, rfl⟩

theorem carryOut_merged {renews : Bool} {id : PodId} {patch : Patch} {before merged : Pod}
    (hbefore : s.pods id = some before)
    (hmatches : ¬ (patch.version.isSome && patch.version ≠ before.resourceVersion) = true)
    (hmerge : patch.merge? before = some merged) :
    s.carryOut w renews id patch =
      (.ok (s.commit w renews before merged).1,
        { (s.commit w renews before merged).2 with
          log := .patched id patch before (s.commit w renews before merged).1 ::
            (s.commit w renews before merged).2.log }) := by
  simp only [carryOut, hbefore, hmatches, hmerge]
  rfl

/-- A patch is not carried out, or is the newest entry of the log. -/
theorem carryOut_cases (h : s.Sound w) (renews : Bool) (id : PodId) (patch : Patch) :
    (∃ failure, s.carryOut w renews id patch = (.error failure, s)) ∨
      ∃ before after, (s.carryOut w renews id patch).1 = .ok after ∧
        (s.carryOut w renews id patch).2.Sound w ∧
        (∀ q ∈ s.history, q ∈ (s.carryOut w renews id patch).2.history) ∧
        (s.carryOut w renews id patch).2.log = .patched id patch before after :: s.log := by
  cases hbefore : s.pods id with
  | none => exact .inl ⟨missing, by simp [carryOut, hbefore]⟩
  | some before =>
    obtain ⟨hmem, hid⟩ := h.stored id before hbefore
    by_cases hconflict : (patch.version.isSome && patch.version ≠ before.resourceVersion) = true
    · exact .inl ⟨conflict, by simp only [carryOut, hbefore, hconflict, if_true]⟩
    · have hversion : patch.version.isSome = true → patch.version = before.resourceVersion := by
        intro hsome
        simpa [hsome] using hconflict
      cases hmerge : patch.merge? before with
      | none => exact .inl ⟨invalid, by simp only [carryOut, hbefore, hconflict, hmerge]; rfl⟩
      | some merged =>
        have hnames : (merged.containers.map (·.name)).Nodup := by
          rw [(Patch.merge?_frame hmerge).2]
          exact h.distinct before hmem
        obtain ⟨hlater, hafter, hmerged⟩ := commit_spec h renews hmem hnames
        rw [carryOut_merged hbefore hconflict hmerge]
        exact .inr ⟨before, _, rfl, hlater.sound.logged
          ⟨hlater.history before hmem, hafter, hid, hversion, merged, hmerge, hmerged⟩,
          hlater.history, by rw [hlater.log]⟩

/-- A patch that is sent is not carried out and answered with a failure, or carried out. Even then the
answer may be a failure. -/
theorem patch_cases (h : s.Sound w) (id : PodId) (patch : Patch) :
    (∃ failure, (s.patch w id patch).1 = .error failure ∧ Later w s (s.patch w id patch).2) ∨
      ∃ before after, ((s.patch w id patch).1 = .ok after ∨
          ∃ failure, (s.patch w id patch).1 = .error failure) ∧
        (s.patch w id patch).2.Sound w ∧
        (∀ q ∈ s.history, q ∈ (s.patch w id patch).2.history) ∧
        (s.patch w id patch).2.log = .patched id patch before after :: s.log := by
  have hlater := advance_later h
  unfold Server.patch
  dsimp only
  rcases carryOut_cases hlater.sound (w.renews s.turn) id patch with
    ⟨failure, hfailed⟩ | ⟨before, after, hanswer, hsound, hhistory, hlog⟩
  · left
    cases w.verdict s.turn with
    | answer =>
      rw [hfailed]
      exact ⟨failure, rfl, hlater⟩
    | refuse failure => exact ⟨failure, rfl, hlater⟩
    | lose lost =>
      rw [hfailed]
      exact ⟨lost, rfl, hlater⟩
  · cases w.verdict s.turn with
    | answer =>
      exact .inr ⟨before, after, .inl hanswer, hsound,
        fun q hq => hhistory q (hlater.history q hq), hlog.trans (by rw [hlater.log])⟩
    | refuse failure => exact .inl ⟨failure, rfl, hlater⟩
    | lose failure =>
      exact .inr ⟨before, after, .inr ⟨failure, rfl⟩, hsound,
        fun q hq => hhistory q (hlater.history q hq), hlog.trans (by rw [hlater.log])⟩

end Server
end PodSizing
