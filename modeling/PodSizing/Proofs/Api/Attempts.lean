import PodSizing.Proofs.Api.Sound
import PodSizing.Proofs.Program

/-!
# What a client brings about

Every patch that a client's write has carried out is the difference between a pod and what the mutators
make of it, and the server has applied it to that very pod: the pod that the client was given or has
read last, or that pod as it is after the patch of its resources. This holds for any retries, failures
and other writers.
-/
namespace PodSizing
open Time (Instant)

def ApiRequest.isPause : ApiRequest → Bool
  | .sleep _ | .record _ => true
  | .get _ | .resize _ _ | .patchMetadata _ _ | .clock | .cachedVersion _ => false

section Retried
variable {α σ : Type} {answer : (request : ApiRequest) → σ → apiSignature.Answer request × σ}

/-- What holds before each attempt holds again before the next one, when the attempt has failed. -/
theorem attemptsFrom_wp {operation : Nat → ApiProgram (Except ClientError α)}
    {I : Nat → σ → Prop} {Q : Except ClientError α → σ → Prop}
    (hpause : ∀ n request s, request.isPause = true → I n s → I n (answer request s).2)
    (hop : ∀ n s, I n s → (operation n).wp answer
      (fun r t => Q r t ∧ ∀ e, r = .error e → I (n + 1) t) s)
    (reason : ClientError → Option RetryReason) (delayMillis left n : Nat) (s : σ) (h : I n s) :
    ((Retry.attemptsFrom reason delayMillis left n).interpret (ApiClient.retryStep operation)).wp
      answer Q s := by
  induction left generalizing n s with
  | zero =>
    simp only [Retry.attemptsFrom, Program.interpret, ApiClient.retryStep, Program.wp_bind]
    exact Program.wp_mono (hop n s h) fun r t hr => hr.1
  | succ left ih =>
    simp only [Retry.attemptsFrom, Program.interpret, ApiClient.retryStep, Program.wp_bind]
    refine Program.wp_mono (hop n s h) fun r t hr => ?_
    cases r with
    | ok a => exact hr.1
    | error e =>
      cases hreason : reason e with
      | none =>
        simp only [hreason]
        exact hr.1
      | some r =>
        have hcounted := hpause (n + 1) (.record [.retried r]) t rfl (hr.2 e rfl)
        simp only [hreason, Program.interpret_bind, Program.wp_bind, Retry.beforeNext]
        by_cases hdelay : delayMillis = 0
        · rw [if_pos hdelay]
          exact ih (n + 1) _ hcounted
        · rw [if_neg hdelay]
          exact ih (n + 1) _ (hpause (n + 1) (.sleep delayMillis) _ rfl hcounted)

theorem retried_wp {operation : Nat → ApiProgram (Except ClientError α)}
    {I : Nat → σ → Prop} {Q : Except ClientError α → σ → Prop}
    (hpause : ∀ n request s, request.isPause = true → I n s → I n (answer request s).2)
    (hop : ∀ n s, I n s → (operation n).wp answer
      (fun r t => Q r t ∧ ∀ e, r = .error e → I (n + 1) t) s)
    (policy : RetryPolicy) (s : σ) (h : I 1 s) :
    (ApiClient.retried policy operation).wp answer Q s :=
  attemptsFrom_wp hpause hop _ _ _ 1 s h

theorem waitFrom_wp {P : σ → Prop}
    (hpause : ∀ request s, request.isPause = true → P s → P (answer request s).2)
    (hlook : ∀ id s, P s → P (answer (.cachedVersion id) s).2)
    (sync : CacheSync) (id : PodId) (written : String) (polls remaining : Nat) (s : σ) (h : P s) :
    (sync.waitFrom id written polls remaining).wp answer (fun _ t => P t) s := by
  induction remaining using Nat.strongRecOn generalizing polls s with
  | ind remaining ih =>
    unfold CacheSync.waitFrom
    simp only [Program.wp]
    have hlooked := hlook id s h
    split
    · exact hpause (.record [.syncPolled (polls + 1)]) _ rfl hlooked
    · split
      · exact hpause (.record [.syncTimedOut]) _ rfl hlooked
      · next hremaining =>
        have hstep := sync.step_pos
        exact ih _ (by omega) _ _ (hpause (.sleep (min sync.stepMillis remaining)) _ rfl hlooked)

theorem awaitSync_wp {P : σ → Prop}
    (hpause : ∀ request s, request.isPause = true → P s → P (answer request s).2)
    (hlook : ∀ id s, P s → P (answer (.cachedVersion id) s).2)
    (sync : CacheSync) (id : PodId) (awaits : Bool) (p : Pod) (s : σ) (h : P s) :
    (ApiClient.awaitSync sync id awaits p).wp answer (fun _ t => P t) s := by
  unfold ApiClient.awaitSync
  split
  · simp only [bind, Program.wp_bind]
    exact Program.wp_mono (waitFrom_wp hpause hlook sync id _ _ _ s h) fun _ t ht => ht
  · exact h

theorem Server.handle_pause {w : World} {request : ApiRequest} (h : request.isPause = true)
    (s : Server) : (Server.handle w request s).2 = s := by
  cases request with
  | sleep millis => rfl
  | record events => rfl
  | _ => cases h

end Retried

def lastRead (given : Pod) : List Exchange → Pod
  | [] => given
  | .got _ p :: _ => p
  | .told _ :: older | .patched .. :: older => lastRead given older

def lastTold : List Exchange → Option Instant
  | [] => none
  | .told now :: _ => some now
  | .got .. :: older | .patched .. :: older => lastTold older

section Made
variable (given : Pod) (mutators : List Mutator) (touchesResize : Bool)

/-- The edit is what the mutators make of the pod that was read last. -/
structure Origin (older : List Exchange) (base : Pod) (edit : Edit) : Prop where
  read : lastRead given older = base
  applied : ∃ now, lastTold older = some now ∧ Mutator.applyAll mutators now base = .ok edit

/-- How a patch that was carried out on a pod has been made, by the log up to then. -/
inductive Made (older : List Exchange) : Patch → Pod → Prop where
  | resize {base : Pod} {edit : Edit} {r : ResizePatch} :
    Origin given mutators older base edit → touchesResize = true →
    ResizePatch.between? base edit.pod base.resourceVersion = some r →
    Made older (.resize r) base
  /-- The resources need no patch. -/
  | metadata {base : Pod} {edit : Edit} {m : MetadataPatch} :
    Origin given mutators older base edit →
    (touchesResize = true → ResizePatch.between? base edit.pod base.resourceVersion = none) →
    MetadataPatch.between? base edit.pod base.resourceVersion = some m →
    Made older (.metadata m) base
  /-- The resources have been patched just before. -/
  | metadataNext {base resized : Pod} {edit : Edit} {r : ResizePatch} {m : MetadataPatch}
    {id : PodId} {rest : List Exchange} :
    Origin given mutators older base edit → touchesResize = true →
    ResizePatch.between? base edit.pod base.resourceVersion = some r →
    older = .patched id (.resize r) base resized :: rest →
    MetadataPatch.between? base edit.pod resized.resourceVersion = some m →
    Made older (.metadata m) resized

def Faithful (log : List Exchange) : Prop :=
  ∀ newer older id patch before after, log = newer ++ .patched id patch before after :: older →
    Made given mutators touchesResize older patch before

/-- The given pod has been stored, and so far the client has kept to its ways. -/
structure Going (w : World) (s : Server) : Prop where
  sound : s.Sound w
  given_mem : given ∈ s.history
  faithful : Faithful given mutators touchesResize s.log

end Made

section Write
variable {w : World} {given : Pod} {mutators : List Mutator} {touchesResize : Bool} {s t : Server}

theorem Faithful.nil : Faithful given mutators touchesResize [] := by
  intro newer older id patch before after h
  cases newer <;> cases h

theorem Faithful.cons {log : List Exchange} (h : Faithful given mutators touchesResize log)
    {e : Exchange} (he : ∀ id patch before after, e ≠ .patched id patch before after) :
    Faithful given mutators touchesResize (e :: log) := by
  intro newer older id patch before after heq
  cases newer with
  | nil =>
    cases heq
    exact absurd rfl (he id patch before after)
  | cons d newer =>
    cases heq
    exact h newer older id patch before after rfl

theorem Faithful.patched {log : List Exchange} (h : Faithful given mutators touchesResize log)
    {id : PodId} {patch : Patch} {before after : Pod}
    (hmade : Made given mutators touchesResize log patch before) :
    Faithful given mutators touchesResize (.patched id patch before after :: log) := by
  intro newer older id' patch' before' after' heq
  cases newer with
  | nil =>
    cases heq
    exact hmade
  | cons d newer =>
    cases heq
    exact h newer older id' patch' before' after' rfl

theorem Origin.afterPatch {log : List Exchange} {base : Pod} {edit : Edit}
    (h : Origin given mutators log base edit) (id : PodId) (patch : Patch) (before after : Pod) :
    Origin given mutators (.patched id patch before after :: log) base edit :=
  ⟨h.read, h.applied⟩

theorem Going.later (h : Going given mutators touchesResize w s) (hlater : Server.Later w s t) :
    Going given mutators touchesResize w t :=
  ⟨hlater.sound, hlater.history given h.given_mem, hlater.log ▸ h.faithful⟩

theorem Going.poll (h : Going given mutators touchesResize w s) :
    Going given mutators touchesResize w { s with turn := s.turn + 1 } :=
  ⟨h.sound.atTurn _, h.given_mem, h.faithful⟩

/-- A patch for the version of a pod that has been stored is carried out on that pod. -/
theorem Server.Sound.before_eq (h : t.Sound w) {id : PodId} {patch : Patch} {before after : Pod}
    {older : List Exchange} (hlog : t.log = .patched id patch before after :: older) {q : Pod}
    (hq : q ∈ t.history) (hversion : patch.version = q.resourceVersion) :
    before = q ∧ after ∈ t.history := by
  have hhonest := h.honest (.patched id patch before after) (by rw [hlog]; exact List.mem_cons_self)
  obtain ⟨hbefore, hafter, -, hprecondition, -⟩ := hhonest
  obtain ⟨n, -, hn⟩ := h.versioned q hq
  have hsome : patch.version.isSome = true := by rw [hversion, hn]; rfl
  exact ⟨h.identified before hbefore q hq ((hprecondition hsome).symm.trans hversion), hafter⟩

theorem sendPatch_wp {Q : Except ClientError (Option Pod) → Server → Prop} (hs : s.Sound w)
    (id : PodId) (patch : Patch)
    (hfailed : ∀ failure t, Server.Later w s t → Q (.error (.api failure)) t)
    (hdone : ∀ before after t, t.Sound w → (∀ q ∈ s.history, q ∈ t.history) →
      t.log = .patched id patch before after :: s.log →
        Q (.ok (some after)) t ∧ ∀ failure, Q (.error (.api failure)) t) :
    Q (((s.patch w id patch).1.map some).mapError .api) (s.patch w id patch).2 := by
  rcases Server.patch_cases hs id patch with
    ⟨failure, hanswer, hlater⟩ | ⟨before, after, hanswer, hsound, hhistory, hlog⟩
  · rw [hanswer]
    exact hfailed failure _ hlater
  · obtain ⟨hok, herror⟩ := hdone before after _ hsound hhistory hlog
    rcases hanswer with hanswer | ⟨failure, hanswer⟩
    · rw [hanswer]
      exact hok
    · rw [hanswer]
      exact herror failure

theorem sendResize_wp {Q : Except ClientError (Option Pod) → Server → Prop} (hs : s.Sound w)
    (id : PodId) (patch : ResizePatch)
    (hfailed : ∀ failure t, Server.Later w s t → Q (.error (.api failure)) t)
    (hdone : ∀ before after t, t.Sound w → (∀ q ∈ s.history, q ∈ t.history) →
      t.log = .patched id (.resize patch) before after :: s.log →
        Q (.ok (some after)) t ∧ ∀ failure, Q (.error (.api failure)) t) :
    (ApiClient.sendResize id (some patch)).wp (Server.handle w) Q s := by
  by_cases hname : id.name.isEmpty = true
  · simp only [ApiClient.sendResize, ApiProgram.resize, ApiProgram.named, hname, if_true]
    exact hfailed .unaskable s ⟨hs, fun _ hq => hq, rfl⟩
  · simp only [ApiClient.sendResize, ApiProgram.resize, ApiProgram.named, hname]
    exact sendPatch_wp hs id (.resize patch) hfailed hdone

theorem sendMetadata_wp {Q : Except ClientError (Option Pod) → Server → Prop} (hs : s.Sound w)
    (id : PodId) (patch : MetadataPatch)
    (hfailed : ∀ failure t, Server.Later w s t → Q (.error (.api failure)) t)
    (hdone : ∀ before after t, t.Sound w → (∀ q ∈ s.history, q ∈ t.history) →
      t.log = .patched id (.metadata patch) before after :: s.log →
        Q (.ok (some after)) t ∧ ∀ failure, Q (.error (.api failure)) t) :
    (ApiClient.sendMetadata id (some patch)).wp (Server.handle w) Q s := by
  by_cases hname : id.name.isEmpty = true
  · simp only [ApiClient.sendMetadata, ApiProgram.patchMetadata, ApiProgram.named, hname, if_true]
    exact hfailed .unaskable s ⟨hs, fun _ hq => hq, rfl⟩
  · simp only [ApiClient.sendMetadata, ApiProgram.patchMetadata, ApiProgram.named, hname]
    exact sendPatch_wp hs id (.metadata patch) hfailed hdone

theorem ResizePatch.between?_version {before after : Pod} {version : Option String}
    {patch : ResizePatch} (h : ResizePatch.between? before after version = some patch) :
    patch.version = version := by
  unfold ResizePatch.between? at h
  split at h
  · cases h
  · cases h
    rfl

theorem MetadataPatch.between?_version {before after : Pod} {version : Option String}
    {patch : MetadataPatch} (h : MetadataPatch.between? before after version = some patch) :
    patch.version = version := by
  unfold MetadataPatch.between? at h
  dsimp only at h
  split at h
  · cases h
  · cases h
    rfl

/-- A patch of metadata that is made in the client's ways, for a stored pod, may be sent. -/
theorem sendMetadata_going (hs : Going given mutators touchesResize w s) {base edited p : Pod}
    (hp : p ∈ s.history) (hmade : ∀ m, MetadataPatch.between? base edited p.resourceVersion = some m →
      Made given mutators touchesResize s.log (.metadata m) p) (id : PodId) :
    (ApiClient.sendMetadata id (MetadataPatch.between? base edited p.resourceVersion)).wp
      (Server.handle w) (fun _ t => Going given mutators touchesResize w t) s := by
  cases hpatch : MetadataPatch.between? base edited p.resourceVersion with
  | none => exact hs
  | some m =>
    refine sendMetadata_wp hs.sound id m (fun failure t hlater => hs.later hlater) ?_
    intro before after t hsound hhistory hlog
    obtain ⟨rfl, -⟩ := hsound.before_eq hlog (hhistory p hp) (MetadataPatch.between?_version hpatch)
    have hnext : Going given mutators touchesResize w t :=
      ⟨hsound, hhistory given hs.given_mem, hlog ▸ hs.faithful.patched (hmade m hpatch)⟩
    exact ⟨hnext, fun _ => hnext⟩

/-- To send what the mutators make of the pod that was read last is to keep to the client's ways. -/
theorem send_going (hs : Going given mutators touchesResize w s) {base : Pod} {edit : Edit}
    (hbase : base ∈ s.history) (horigin : Origin given mutators s.log base edit) (id : PodId) :
    (ApiClient.send id base edit.pod touchesResize).wp (Server.handle w)
      (fun _ t => Going given mutators touchesResize w t) s := by
  simp only [ApiClient.send, bind, Program.wp_bind]
  cases hpatch : if touchesResize then ResizePatch.between? base edit.pod base.resourceVersion
      else none with
  | none =>
    have hresize : touchesResize = true →
        ResizePatch.between? base edit.pod base.resourceVersion = none := fun htouches => by
      simpa [htouches] using hpatch
    have hlast := sendMetadata_going hs hbase (fun m hm => .metadata horigin hresize hm) id
    show Program.wp _ (Program.bind (ApiClient.sendMetadata id
      (MetadataPatch.between? base edit.pod base.resourceVersion)) _) _ s
    rw [Program.wp_bind]
    exact Program.wp_mono hlast fun r t ht => by cases r <;> exact ht
  | some r =>
    have htouches : touchesResize = true := by
      cases touchesResize with
      | true => rfl
      | false => cases hpatch
    rw [if_pos htouches] at hpatch
    refine sendResize_wp hs.sound id r (fun failure t hlater => hs.later hlater) ?_
    intro before resized t hsound hhistory hlog
    obtain ⟨rfl, hresized⟩ :=
      hsound.before_eq hlog (hhistory base hbase) (ResizePatch.between?_version hpatch)
    have hnext : Going given mutators touchesResize w t :=
      ⟨hsound, hhistory given hs.given_mem,
        hlog ▸ hs.faithful.patched (.resize horigin htouches hpatch)⟩
    have hlast := sendMetadata_going hnext hresized (fun m hm =>
      .metadataNext (hlog ▸ horigin.afterPatch ..) htouches hpatch hlog hm) id
    refine ⟨?_, fun _ => hnext⟩
    show Program.wp _ (Program.bind (ApiClient.sendMetadata id
      (MetadataPatch.between? before edit.pod resized.resourceVersion)) _) _ t
    rw [Program.wp_bind]
    exact Program.wp_mono hlast fun r u hu => by cases r <;> exact hu

theorem write_going (hs : Going given mutators touchesResize w s) {base : Pod}
    (hbase : base ∈ s.history) (hread : lastRead given s.log = base) (namespaceName : String) :
    (ApiClient.write namespaceName base mutators touchesResize).wp (Server.handle w)
      (fun _ t => Going given mutators touchesResize w t) s := by
  have htold : Going given mutators touchesResize w
      { s with turn := s.turn + 1, log := .told (w.clock s.turn) :: s.log } := by
    exact ⟨hs.sound.clocked, hs.given_mem,
      hs.faithful.cons fun _ _ _ _ h => by cases h⟩
  simp only [ApiClient.write, bind, Program.wp_bind, ApiProgram.clock, Program.wp, Server.handle]
  cases hedit : Mutator.applyAll mutators (w.clock s.turn) base with
  | error e => exact htold
  | ok edit =>
    by_cases hchanged : edit.changed = true
    · have horigin : Origin given mutators (.told (w.clock s.turn) :: s.log) base edit :=
        ⟨hread, _, rfl, hedit⟩
      simp only [hchanged, if_true, Program.wp_bind]
      exact Program.wp_mono (send_going htold hbase horigin _) fun r t ht => ht
    · simp only [hchanged]
      exact htold

theorem fetch_wp {Q : Except ClientError (Option Pod) → Server → Prop} (hs : s.Sound w)
    (id : PodId) (hnone : ∀ r t, (∀ p, r ≠ .ok (some p)) → Server.Later w s t → Q r t)
    (hread : ∀ p t, t.Sound w → (∀ q ∈ s.history, q ∈ t.history) →
      t.log = .got id p :: s.log → Q (.ok (some p)) t) :
    (ApiClient.fetch id).wp (Server.handle w) Q s := by
  by_cases hname : id.name.isEmpty = true
  · simp only [ApiClient.fetch, ApiProgram.get, ApiProgram.named, hname, if_true]
    exact hnone _ s (by simp) ⟨hs, fun _ hq => hq, rfl⟩
  · simp only [ApiClient.fetch, ApiProgram.get, ApiProgram.named, hname, bind, Program.wp_bind]
    simp only [Bool.false_eq_true, if_false, Program.wp, Server.handle]
    rcases Server.get_cases hs id with ⟨failure, hanswer, hlater⟩ | ⟨p, hanswer, hsound, hhistory, hlog⟩
    · rw [hanswer]
      cases failure with
      | refused code reason message =>
        dsimp only
        split
        · exact hnone _ _ (by simp) hlater
        · exact hnone _ _ (by simp) hlater
      | transport => exact hnone _ _ (by simp) hlater
      | unreadable => exact hnone _ _ (by simp) hlater
      | unaskable => exact hnone _ _ (by simp) hlater
      | other => exact hnone _ _ (by simp) hlater
    · rw [hanswer]
      exact hread p _ hsound hhistory hlog

theorem attempt_going (hs : Going given mutators touchesResize w s) (id : PodId) (n : Nat)
    (hfirst : n = 1 → lastRead given s.log = given) :
    (ApiClient.attempt id given mutators touchesResize n).wp (Server.handle w)
      (fun _ t => Going given mutators touchesResize w t) s := by
  by_cases hn : n = 1
  · simp only [ApiClient.attempt, hn, if_true]
    exact write_going hs hs.given_mem (hfirst hn) _
  · simp only [ApiClient.attempt, hn, if_false, bind, Program.wp_bind]
    refine fetch_wp hs.sound id (fun r t hr hlater => ?_) fun p t hsound hhistory hlog => ?_
    · cases r with
      | error e => exact hs.later hlater
      | ok found =>
        cases found with
        | none => exact hs.later hlater
        | some p => exact absurd rfl (hr p)
    · have hgoing : Going given mutators touchesResize w t :=
        ⟨hsound, hhistory given hs.given_mem, hlog ▸ hs.faithful.cons fun _ _ _ _ h => by cases h⟩
      have hp := hsound.honest (.got id p) (by rw [hlog]; exact List.mem_cons_self)
      exact write_going hgoing hp.1 (by rw [hlog]; rfl) _

/-- A call of the client, with its retries and its wait for the cache, keeps to its ways. -/
theorem call_going (hstart : Going given mutators touchesResize w s)
    (hunread : lastRead given s.log = given) (sync : CacheSync) (context : Context)
    (awaits : Bool) :
    (ApiClient.patch sync context given mutators touchesResize awaits).wp (Server.handle w)
      (fun _ t => Going given mutators touchesResize w t) s := by
  have hretried : (ApiClient.retried context.retry
      (ApiClient.attempt context.id given mutators touchesResize)).wp (Server.handle w)
        (fun _ t => Going given mutators touchesResize w t) s := by
    -- only the first attempt starts from the given pod
    refine retried_wp (I := fun n t => Going given mutators touchesResize w t ∧ 1 ≤ n ∧
      (n = 1 → lastRead given t.log = given))
      (fun _ _ t hpause ht => (Server.handle_pause hpause t).symm ▸ ht) (fun n t ht => ?_) _ s
      ⟨hstart, Nat.le_refl 1, fun _ => hunread⟩
    obtain ⟨hgoing, hn, hfirst⟩ := ht
    exact Program.wp_mono (attempt_going hgoing context.id n hfirst) fun r u hu =>
      ⟨hu, fun _ _ => ⟨hu, by omega, fun h => absurd h (by omega)⟩⟩
  simp only [ApiClient.patch, bind, Program.wp_bind]
  refine Program.wp_mono hretried fun r t ht => ?_
  cases r with
  | error e => exact ht
  | ok attempt =>
    obtain ⟨written, observations⟩ := attempt
    cases written with
    | none => exact ht
    | some p =>
      simp only [Program.wp_bind]
      exact Program.wp_mono (awaitSync_wp
        (fun _ u hpause hu => (Server.handle_pause hpause u).symm ▸ hu) (fun _ _ h => h.poll)
        sync _ awaits p t ht) fun _ u hu => hu

theorem patch_going (hs : s.Sound w) (hgiven : given ∈ s.history) (hlog : s.log = [])
    (sync : CacheSync) (context : Context) (awaits : Bool) :
    (ApiClient.patch sync context given mutators touchesResize awaits).wp (Server.handle w)
      (fun _ t => Going given mutators touchesResize w t) s :=
  call_going ⟨hs, hgiven, hlog ▸ Faithful.nil⟩ (by rw [hlog]; rfl) sync context awaits

theorem Server.Later.trans {u : Server} (h : Server.Later w s t) (k : Server.Later w t u) :
    Server.Later w s u :=
  ⟨k.sound, fun p hp => k.history p (h.history p hp), k.log.trans h.log⟩

/-- Reading a pod, with retries, gives a pod that is stored, or leaves no trace. -/
theorem get_going (hs : s.Sound w) (sync : CacheSync) (id : PodId) (retry : RetryPolicy) :
    (ApiClient.handle sync (.get ⟨id, retry⟩)).wp (Server.handle w) (fun answer t =>
      (∀ p, answer = .ok (some p) → id.name.isEmpty = false ∧ t.Sound w ∧ p ∈ t.history ∧
        t.log = .got id p :: s.log) ∧
      ((∀ p, answer ≠ .ok (some p)) → Server.Later w s t)) s := by
  refine retried_wp (I := fun _ t => Server.Later w s t)
    (fun _ _ t hpause ht => (Server.handle_pause hpause t).symm ▸ ht) (fun n t ht => ?_) _ s
    ⟨hs, fun _ hp => hp, rfl⟩
  by_cases hname : id.name.isEmpty = true
  · simp only [ApiClient.fetch, ApiProgram.get, ApiProgram.named, hname, if_true]
    exact ⟨⟨fun p hp => (by cases hp), fun _ => ht⟩, fun _ _ => ht⟩
  · refine fetch_wp ht.sound id (fun r u hr hlater => ?_) fun p u hsound hhistory hlog => ?_
    · exact ⟨⟨fun p hp => absurd hp (hr p), fun _ => ht.trans hlater⟩, fun _ _ => ht.trans hlater⟩
    · have hp := hsound.honest (.got id p) (by rw [hlog]; exact List.mem_cons_self)
      refine ⟨⟨fun q hq => ?_, fun hnone => absurd rfl (hnone p)⟩, fun e he => by cases he⟩
      cases hq
      exact ⟨by simpa using hname, hsound, hp.1, by rw [hlog, ht.log]⟩

end Write
end PodSizing
