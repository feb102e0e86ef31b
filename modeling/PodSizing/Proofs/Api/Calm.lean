import PodSizing.Proofs.Api.Writing

/-!
# A pod that nobody else changes

While no request fails and no other writer touches a pod, reading it gives what is stored, and a write
goes through at the first attempt: the edited pod is stored.
-/
namespace PodSizing
open Time (Instant)

namespace Server
variable {w : World}

theorem advance_log (w : World) (s : Server) : (s.advance w).log = s.log := by
  have hchanges (changes : List Change) (t : Server) :
      (changes.foldl (change w) t).log = t.log := by
    induction changes generalizing t with
    | nil => rfl
    | cons c rest ih => exact (ih (t.change w c)).trans (change_log t c)
  exact hchanges _ _

theorem carryOut_log (w : World) (renews : Bool) (id : PodId) (patch : Patch) (s : Server) :
    s.log <:+ (s.carryOut w renews id patch).2.log := by
  have hcommit (before merged : Pod) : (s.commit w renews before merged).2.log = s.log := by
    unfold commit
    split <;> rfl
  unfold carryOut
  split
  · exact List.suffix_rfl
  · split
    · exact List.suffix_rfl
    · split
      · exact List.suffix_rfl
      · next before _ merged _ =>
        dsimp only
        rw [hcommit]
        exact List.suffix_cons _ _

theorem handle_log (w : World) (request : ApiRequest) (s : Server) :
    s.log <:+ (handle w request s).2.log := by
  have hpatch (id : PodId) (patch : Patch) : s.log <:+ (s.patch w id patch).2.log := by
    have hcarried := (s.advance w).carryOut_log w (w.renews s.turn) id patch
    rw [advance_log] at hcarried
    unfold Server.patch
    dsimp only
    cases w.verdict s.turn with
    | answer => exact hcarried
    | refuse failure => exact (advance_log w s).symm ▸ List.suffix_rfl
    | lose failure => exact hcarried
  cases request with
  | get id =>
    simp only [handle, get]
    split
    · exact (advance_log w s).symm ▸ List.suffix_cons _ _
    · exact (advance_log w s).symm ▸ List.suffix_rfl
    · exact (advance_log w s).symm ▸ List.suffix_rfl
    · exact (advance_log w s).symm ▸ List.suffix_rfl
  | resize id patch => exact hpatch id _
  | patchMetadata id patch => exact hpatch id _
  | clock => exact List.suffix_cons _ _
  | sleep millis => exact List.suffix_rfl
  | cachedVersion id => exact List.suffix_rfl
  | record events => exact List.suffix_rfl

/-- Whatever is asked of the server, the log keeps what it had. -/
theorem run_log {α : Type} (w : World) (p : ApiProgram α) (s : Server) :
    s.log <:+ (p.run (handle w) s).2.log := by
  induction p generalizing s with
  | done a => exact List.suffix_rfl
  | fault message => exact List.suffix_rfl
  | call request next ih => exact (handle_log w request s).trans (ih _ _)

end Server

def Change.podId : Change → PodId
  | .put p => p.id
  | .delete id => id

/-- From a request on, all requests are answered, and nobody else changes the pod of a name. -/
structure World.CalmFrom (w : World) (id : PodId) (turn : Nat) : Prop where
  answers : ∀ n, turn ≤ n → w.verdict n = .answer
  alone : ∀ n, turn ≤ n → ∀ c ∈ w.others n, c.podId ≠ id

theorem World.CalmFrom.later {w : World} {id : PodId} {turn next : Nat} (h : w.CalmFrom id turn)
    (hnext : turn ≤ next) : w.CalmFrom id next :=
  ⟨fun n hn => h.answers n (Nat.le_trans hnext hn), fun n hn => h.alone n (Nat.le_trans hnext hn)⟩

namespace Server

/-- The pod is stored under the name, and will not be disturbed. -/
structure Settled (w : World) (id : PodId) (q : Pod) (s : Server) : Prop where
  sound : s.Sound w
  stored : s.pods id = some q
  calm : w.CalmFrom id s.turn

namespace Settled
variable {w : World} {id : PodId} {q : Pod} {s t : Server}

theorem id_eq (h : s.Settled w id q) : q.id = id := (h.sound.stored id q h.stored).2

theorem mem_history (h : s.Settled w id q) : q ∈ s.history := (h.sound.stored id q h.stored).1

theorem change_pods {c : Change} (hc : c.podId ≠ id) (s : Server) :
    (s.change w c).pods id = s.pods id := by
  cases c with
  | put p =>
    have hid : id ≠ (p.withVersion (some (w.version s.writes))).id := fun h => hc h.symm
    unfold change
    dsimp only
    split
    · exact if_neg hid
    · rfl
  | delete i => exact if_neg fun h => hc h.symm

theorem advance (h : s.Settled w id q) : (s.advance w).Settled w id q := by
  have hchanges (changes : List Change) (hother : ∀ c ∈ changes, c.podId ≠ id) (t : Server) :
      (changes.foldl (change w) t).pods id = t.pods id ∧
        (changes.foldl (change w) t).turn = t.turn := by
    induction changes generalizing t with
    | nil => exact ⟨rfl, rfl⟩
    | cons c rest ih =>
      obtain ⟨hpods, hturn⟩ := ih (fun d hd => hother d (List.mem_cons_of_mem c hd)) (t.change w c)
      refine ⟨hpods.trans (change_pods (hother c List.mem_cons_self) t), hturn.trans ?_⟩
      cases c with
      | put p =>
        unfold change
        dsimp only
        split <;> rfl
      | delete i => rfl
  obtain ⟨hpods, hturn⟩ := hchanges _ (h.calm.alone s.turn (Nat.le_refl _))
    { s with turn := s.turn + 1 }
  have hcalm := h.calm.later (Nat.le_succ s.turn)
  exact ⟨(advance_later h.sound).sound, hpods.trans h.stored, by
    rw [Server.advance, hturn]
    exact hcalm⟩

theorem get (h : s.Settled w id q) :
    (s.get w id).1 = .ok q ∧ (s.get w id).2.Settled w id q := by
  have hafter := h.advance
  have hanswer : s.get w id =
      (.ok q, { s.advance w with log := .got id q :: (s.advance w).log }) := by
    simp only [Server.get, h.calm.answers s.turn (Nat.le_refl _), hafter.stored]
  have hsound : (s.get w id).2.Sound w := by
    rcases get_cases h.sound id with ⟨failure, hfailed, -⟩ | ⟨p, -, hsound, -⟩
    · rw [hanswer] at hfailed
      cases hfailed
    · exact hsound
  refine ⟨by rw [hanswer], hsound, ?_, ?_⟩
  · rw [hanswer]
    exact hafter.stored
  · rw [hanswer]
    exact hafter.calm

theorem patch (h : s.Settled w id q) (patch : Patch) {merged : Pod}
    (hversion : patch.version = q.resourceVersion) (hmerge : patch.merge? q = some merged) :
    ∃ after, (s.patch w id patch).1 = .ok after ∧ (s.patch w id patch).2.Settled w id after ∧
      after = merged.withVersion after.resourceVersion := by
  have hafter := h.advance
  have hid : merged.id = id := (Patch.merge?_frame hmerge).1.trans h.id_eq
  have hprecondition : (patch.version.isSome && patch.version ≠ q.resourceVersion) = false := by
    simp [hversion]
  have hcarried : s.patch w id patch = (s.advance w).carryOut w (w.renews s.turn) id patch := by
    simp only [Server.patch, h.calm.answers s.turn (Nat.le_refl _)]
  have hcommit : (s.advance w).carryOut w (w.renews s.turn) id patch =
      (.ok ((s.advance w).commit w (w.renews s.turn) q merged).1,
        { ((s.advance w).commit w (w.renews s.turn) q merged).2 with
          log := .patched id patch q ((s.advance w).commit w (w.renews s.turn) q merged).1 ::
            ((s.advance w).commit w (w.renews s.turn) q merged).2.log }) := by
    simp only [carryOut, hafter.stored, hprecondition, hmerge]
    rfl
  have hsound : (s.patch w id patch).2.Sound w := by
    rcases carryOut_cases hafter.sound (w.renews s.turn) id patch with
      ⟨failure, hfailed⟩ | ⟨before, after, -, hsound, -⟩
    · rw [hcommit] at hfailed
      cases hfailed
    · rw [hcarried]
      exact hsound
  have hnames : (merged.containers.map (·.name)).Nodup := by
    rw [(Patch.merge?_frame hmerge).2]
    exact h.sound.distinct q h.mem_history
  obtain ⟨-, -, hmerged⟩ := commit_spec hafter.sound (w.renews s.turn) hafter.mem_history hnames
  rw [hcarried, hcommit] at hsound ⊢
  refine ⟨_, rfl, ⟨hsound, ?_, ?_⟩, hmerged⟩
  · unfold commit
    split
    · exact hafter.stored
    · exact if_pos hid.symm
  · unfold commit
    split
    · exact hafter.calm
    · exact hafter.calm

end Settled
end Server

section Write
variable {w : World} {id : PodId} {base : Pod} {s : Server} {z : Writing}
open Server (Settled)

theorem sendResize_calm (h : s.Settled w id base) (hname : id.name.isEmpty = false)
    {r : ResizePatch} {merged : Pod} (hversion : r.version = base.resourceVersion)
    (hmerge : r.merge? base = some merged) :
    (ApiClient.sendResize id (some r)).wp (Server.handle w) (fun result t =>
      ∃ after, result = .ok (some after) ∧ t.Settled w id after ∧
        after = merged.withVersion after.resourceVersion) s := by
  obtain ⟨after, hanswer, hsettled, hafter⟩ := h.patch (.resize r) hversion hmerge
  simp only [ApiClient.sendResize, ApiProgram.resize, ApiProgram.named, hname]
  exact ⟨after, congrArg (fun answer => (Except.map some answer).mapError ClientError.api) hanswer,
    hsettled, hafter⟩

theorem sendMetadata_calm (h : s.Settled w id base) (hname : id.name.isEmpty = false)
    {m : MetadataPatch} (hversion : m.version = base.resourceVersion) :
    (ApiClient.sendMetadata id (some m)).wp (Server.handle w) (fun result t =>
      ∃ after, result = .ok (some after) ∧ t.Settled w id after ∧
        after = (m.merge base).withVersion after.resourceVersion) s := by
  obtain ⟨after, hanswer, hsettled, hafter⟩ := h.patch (.metadata m) hversion rfl
  simp only [ApiClient.sendMetadata, ApiProgram.patchMetadata, ApiProgram.named, hname]
  exact ⟨after, congrArg (fun answer => (Except.map some answer).mapError ClientError.api) hanswer,
    hsettled, hafter⟩

theorem sendMetadata_edited (z : Writing) (base : Pod) (now : Instant) {p : Pod} (h : s.Settled w id p)
    (hname : id.name.isEmpty = false) (hp : p = (z.resized base).withVersion p.resourceVersion) :
    (ApiClient.sendMetadata id
      (MetadataPatch.between? base (z.edited now base) p.resourceVersion)).wp (Server.handle w)
      (fun result t => (∃ written, result = .ok written) ∧
        ∃ q, t.Settled w id q ∧ q = (z.edited now base).withVersion q.resourceVersion) s := by
  cases hbetween : MetadataPatch.between? base (z.edited now base) p.resourceVersion with
  | none =>
    refine ⟨⟨none, rfl⟩, p, h, ?_⟩
    rw [Writing.edited_eq_resized hbetween]
    exact hp
  | some m =>
    refine Program.wp_mono (sendMetadata_calm h hname (MetadataPatch.between?_version hbetween)) ?_
    rintro result t ⟨after, hresult, hsettled, hafter⟩
    rw [hp, Writing.merge_told hbetween] at hafter
    exact ⟨⟨_, hresult⟩, after, hsettled, hafter⟩

/-- Whatever needs to be written is, and nothing else is stored. -/
theorem send_calm (now : Instant) (h : s.Settled w id base) (hname : id.name.isEmpty = false) :
    (ApiClient.send id base (z.edited now base) z.resources.isSome).wp (Server.handle w)
      (fun result t => (∃ p, result = .ok p) ∧
        ∃ q, t.Settled w id q ∧ q = (z.edited now base).withVersion q.resourceVersion) s := by
  simp only [ApiClient.send, bind, Program.wp_bind]
  cases hbetween : if z.resources.isSome = true then
      ResizePatch.between? base (z.edited now base) base.resourceVersion else none with
  | none =>
    have hresized : z.resized base = base := Writing.resized_eq_self fun htouches => by
      simpa [htouches] using hbetween
    have hlast := sendMetadata_edited z base now h hname (by rw [hresized]; rfl)
    show Program.wp _ (Program.bind (ApiClient.sendMetadata id
      (MetadataPatch.between? base (z.edited now base) base.resourceVersion)) _) _ s
    rw [Program.wp_bind]
    refine Program.wp_mono hlast ?_
    rintro result t ⟨⟨written, hresult⟩, hq⟩
    rw [hresult]
    exact ⟨⟨_, rfl⟩, hq⟩
  | some r =>
    have htouches : z.resources.isSome = true := by
      cases htouches : z.resources.isSome with
      | true => rfl
      | false => simp [htouches] at hbetween
    rw [if_pos htouches] at hbetween
    obtain ⟨merged, hmerge⟩ := Writing.merge?_isSome hbetween
    have hmerged := Writing.merge?_resized htouches hbetween
      (h.sound.distinct base h.mem_history) hmerge
    refine Program.wp_mono
      (sendResize_calm h hname (ResizePatch.between?_version hbetween) hmerge) ?_
    rintro result t ⟨after, hresult, hsettled, hafter⟩
    rw [hmerged] at hafter
    rw [hresult]
    have hlast := sendMetadata_edited z base now hsettled hname hafter
    show Program.wp _ (Program.bind (ApiClient.sendMetadata id
      (MetadataPatch.between? base (z.edited now base) after.resourceVersion)) _) _ t
    rw [Program.wp_bind]
    refine Program.wp_mono hlast ?_
    rintro result u ⟨⟨written, hresult⟩, hq⟩
    rw [hresult]
    exact ⟨⟨_, rfl⟩, hq⟩

theorem wp_log {α : Type} {p : ApiProgram α} {Q : α → Server → Prop}
    (h : p.wp (Server.handle w) Q s) :
    p.wp (Server.handle w) (fun a t => Q a t ∧ s.log <:+ t.log) s := by
  obtain ⟨a, hrun, hQ⟩ := (Program.wp_iff_run _ _ _ s).1 h
  exact (Program.wp_iff_run _ _ _ s).2 ⟨a, hrun, hQ, Server.run_log w p s⟩

/-- What a write has led to when it has gone through: the pod that was stored has been edited, at a
time that was told. -/
def WentThrough (w : World) (id : PodId) (z : Writing) (base : Pod) (t : Server) : Prop :=
  ∃ now q, .told now ∈ t.log ∧ t.Settled w id q ∧
    q = (z.edited now base).withVersion q.resourceVersion

theorem write_calm (h : s.Settled w id base) (hname : id.name.isEmpty = false)
    (hpresent : ∀ name updates, z.resources = some (name, updates) →
      base.isContainerInSpec name = true) :
    (ApiClient.write id.namespaceName base z.mutators z.resources.isSome).wp (Server.handle w)
      (fun result t => (∃ attempt, result = .ok attempt) ∧ WentThrough w id z base t) s := by
  have hid : (⟨id.namespaceName, base.effectiveName⟩ : PodId) = id := by
    rw [← h.id_eq]
    rfl
  have htold : Server.Settled w id base
      { s with turn := s.turn + 1, log := .told (w.clock s.turn) :: s.log } :=
    ⟨h.sound.clocked, h.stored, h.calm.later (Nat.le_succ s.turn)⟩
  obtain ⟨edit, hedit, hquiet⟩ := Writing.applyAll_ok hpresent (w.clock s.turn)
  simp only [ApiClient.write, bind, Program.wp_bind, ApiProgram.clock, Program.wp, Server.handle,
    hedit]
  by_cases hchanged : edit.changed = true
  · simp only [hchanged, if_true, Program.wp_bind, hid, (Writing.applyAll_mutators hedit).1]
    refine Program.wp_mono (wp_log (send_calm (z := z) (w.clock s.turn) htold hname)) ?_
    rintro result t ⟨⟨⟨p, hresult⟩, q, hq, hstored⟩, hlog⟩
    rw [hresult]
    exact ⟨⟨_, rfl⟩, _, q, hlog.subset List.mem_cons_self, hq, hstored⟩
  · simp only [hchanged]
    refine ⟨⟨_, rfl⟩, _, base, List.mem_cons_self, htold, ?_⟩
    rw [hquiet (by simpa using hchanged)]
    rfl

theorem WentThrough.poll {t : Server} (h : WentThrough w id z base t) :
    WentThrough w id z base { t with turn := t.turn + 1 } := by
  obtain ⟨now, q, htold, hq, hstored⟩ := h
  exact ⟨now, q, htold, ⟨hq.sound.atTurn _, hq.stored, hq.calm.later (Nat.le_succ t.turn)⟩,
    hstored⟩

/-- A request to write goes through at once, with its retries and its wait for the cache. -/
theorem request_calm (h : s.Settled w id base) (hname : id.name.isEmpty = false)
    (hpresent : ∀ name updates, z.resources = some (name, updates) →
      base.isContainerInSpec name = true)
    (sync : CacheSync) (context : Context) (hcontext : context.id = id) (awaits : Bool) :
    (ApiClient.patch sync context base z.mutators z.resources.isSome awaits).wp (Server.handle w)
      (fun _ t => WentThrough w id z base t) s := by
  have hretried : (ApiClient.retried context.retry
      (ApiClient.attempt context.id base z.mutators z.resources.isSome)).wp (Server.handle w)
        (fun _ t => WentThrough w id z base t) s := by
    -- there is no attempt but the first
    refine retried_wp (I := fun n t => n = 1 ∧ t = s)
      (fun _ _ t hpause ht => (Server.handle_pause hpause t).symm ▸ ht) (fun n t ht => ?_) _ s
      ⟨rfl, rfl⟩
    rw [ht.1, ht.2, hcontext]
    simp only [ApiClient.attempt, if_true]
    refine Program.wp_mono (write_calm h hname hpresent) ?_
    rintro result t ⟨⟨attempt, hresult⟩, hdone⟩
    refine ⟨hdone, fun e he => ?_⟩
    rw [hresult] at he
    cases he
  simp only [ApiClient.patch, bind, Program.wp_bind]
  refine Program.wp_mono hretried fun result t hdone => ?_
  cases result with
  | error e => exact hdone
  | ok attempt =>
    obtain ⟨written, observations⟩ := attempt
    cases written with
    | none => exact hdone
    | some p =>
      simp only [Program.wp_bind]
      exact Program.wp_mono (awaitSync_wp
        (fun _ u hpause hu => (Server.handle_pause hpause u).symm ▸ hu) (fun _ _ hp => hp.poll)
        sync _ awaits p t hdone) fun _ u hu => hu

theorem get_calm (h : s.Settled w id base) (hname : id.name.isEmpty = false) (sync : CacheSync)
    (retry : RetryPolicy) :
    (ApiClient.handle sync (.get ⟨id, retry⟩)).wp (Server.handle w)
      (fun answer t => answer = .ok (some base) ∧ t.Settled w id base) s := by
  obtain ⟨hanswer, hsettled⟩ := h.get
  refine retried_wp (I := fun _ t => t = s)
    (fun _ _ t hpause ht => (Server.handle_pause hpause t).symm ▸ ht) (fun n t ht => ?_) _ s rfl
  rw [ht]
  simp only [ApiClient.fetch, ApiProgram.get, ApiProgram.named, hname, bind, Program.wp_bind]
  simp only [Bool.false_eq_true, if_false, Program.wp, Server.handle]
  rw [hanswer]
  exact ⟨⟨rfl, hsettled⟩, fun e he => by cases he⟩

end Write
end PodSizing
