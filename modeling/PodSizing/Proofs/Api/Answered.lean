import PodSizing.Proofs.Api.Newest
import PodSizing.Proofs.Api.OtherWriters

/-!
# What a write is answered with

A write that succeeds is answered with the pod as its last attempt has left it: the server's answer to the
last patch of that attempt, or the edited pod where no patch was needed. Only where the mutators ask for
no change in the last attempt, the answer is the pod that the call was given, which may be older than the
pods that the call has read.
-/
namespace PodSizing
open Time (Instant)
open Program (Turn logged)

/-- What the turns of a client come to in the attempt that is under way: the pod that it starts from, the
time that the mutators are told, and the server's last answer to a patch. -/
structure LastAttempt where
  base : Pod
  told : Option Instant := none
  stored : Option Pod := none

namespace LastAttempt

/-- An attempt begins with the pod that it reads; only the first one starts from the given pod. -/
def after (a : LastAttempt) : Turn apiSignature → LastAttempt
  | ⟨.get _, .ok p⟩ => { base := p }
  | ⟨.clock, now⟩ => { a with told := some now }
  | ⟨.resize _ _, .ok p⟩ | ⟨.patchMetadata _ _, .ok p⟩ => { a with stored := some p }
  | ⟨.get _, .error _⟩ | ⟨.resize _ _, .error _⟩ | ⟨.patchMetadata _ _, .error _⟩
  | ⟨.sleep _, _⟩ | ⟨.cachedVersion _, _⟩ | ⟨.record _, _⟩ => a

def along (given : Pod) (turns : List (Turn apiSignature)) : LastAttempt :=
  turns.foldl after { base := given }

@[simp] theorem along_concat (given : Pod) (turns : List (Turn apiSignature))
    (turn : Turn apiSignature) : along given (turns ++ [turn]) = (along given turns).after turn := by
  simp [along]

/-- The edit is what the mutators make of the pod that the attempt starts from. -/
def Applies (a : LastAttempt) (mutators : List Mutator) (edit : Edit) : Prop :=
  ∃ now, a.told = some now ∧ Mutator.applyAll mutators now a.base = .ok edit

structure Gives (a : LastAttempt) (mutators : List Mutator) (edit : Edit) (written : Option Pod) :
    Prop where
  applies : a.Applies mutators edit
  written_eq : written = if edit.changed then some (a.stored.getD edit.pod) else none
  unsent : edit.changed = false → a.stored = none

end LastAttempt

section Client
variable {σ : Type} {answer : (request : ApiRequest) → σ → apiSignature.Answer request × σ}
  {id : PodId} {given : Pod} {mutators : List Mutator} {touchesResize : Bool}
  {J : σ × List (Turn apiSignature) → Prop} {s : σ × List (Turn apiSignature)} {a : LastAttempt}

/-- What a client may ask in a call for a pod: that pod alone is read, and patches are for the pod that
the attempt starts from. -/
def InCall (id : PodId) (given : Pod) (turns : List (Turn apiSignature)) : ApiRequest → Prop
  | .get i => i = id
  | .resize i _ | .patchMetadata i _ =>
    i = ⟨id.namespaceName, (LastAttempt.along given turns).base.effectiveName⟩
  | .clock | .sleep _ | .cachedVersion _ | .record _ => True

def KeptInCall (answer : (request : ApiRequest) → σ → apiSignature.Answer request × σ) (id : PodId)
    (given : Pod) (J : σ × List (Turn apiSignature) → Prop) : Prop :=
  ∀ request s, InCall id given s.2 request → J s → J (logged answer request s).2

/-- The turns so far come to the attempt, and the property holds. -/
structure Attempting (given : Pod) (J : σ × List (Turn apiSignature) → Prop) (a : LastAttempt)
    (s : σ × List (Turn apiSignature)) : Prop where
  along : LastAttempt.along given s.2 = a
  kept : J s

theorem Attempting.turn (hJ : KeptInCall answer id given J) (h : Attempting given J a s)
    (request : ApiRequest) (hcall : InCall id given s.2 request) :
    Attempting given J (a.after ⟨request, (answer request s.1).1⟩) (logged answer request s).2 :=
  ⟨by simp [logged, h.along], hJ request s hcall h.kept⟩

theorem named_attempting (h : Attempting given J a s)
    {request : ApiProgram (Except ApiFailure Pod)}
    (hrequest : request.wp (logged answer) (fun r t => J t ∧ ∀ p, r = .ok p →
      Attempting given J { a with stored := some p } t) s) (i : PodId) :
    ((ApiProgram.named i request).bind fun r => .done ((r.map some).mapError ClientError.api)).wp
      (logged answer) (fun r t => J t ∧ ∀ sent, r = .ok sent →
        Attempting given J { a with stored := sent.or a.stored } t) s := by
  unfold ApiProgram.named
  split
  · exact ⟨h.kept, fun sent hsent => by cases hsent⟩
  · rw [Program.wp_bind]
    refine Program.wp_mono hrequest fun r t ht => ⟨ht.1, fun sent hsent => ?_⟩
    obtain ⟨p, hp, rfl⟩ := Except.map_eq_ok.1 (Except.mapError_eq_ok.1 hsent)
    exact ht.2 p hp

theorem sendResize_attempting (hJ : KeptInCall answer id given J) (h : Attempting given J a s)
    (patch : Option ResizePatch) :
    (ApiClient.sendResize ⟨id.namespaceName, a.base.effectiveName⟩ patch).wp (logged answer)
      (fun r t => J t ∧ ∀ sent, r = .ok sent →
        Attempting given J { a with stored := sent.or a.stored } t) s := by
  cases patch with
  | none =>
    refine ⟨h.kept, fun sent hsent => ?_⟩
    cases hsent
    exact h
  | some patch =>
    let request : ApiRequest := .resize ⟨id.namespaceName, a.base.effectiveName⟩ patch
    have hnext := h.turn hJ request (by simp [request, InCall, h.along])
    refine named_attempting h ?_ _
    refine And.intro hnext.kept fun p hp => ?_
    have hp' : (answer request s.1).1 = .ok p := hp
    simpa [request, LastAttempt.after, hp'] using hnext

theorem sendMetadata_attempting (hJ : KeptInCall answer id given J) (h : Attempting given J a s)
    (patch : Option MetadataPatch) :
    (ApiClient.sendMetadata ⟨id.namespaceName, a.base.effectiveName⟩ patch).wp (logged answer)
      (fun r t => J t ∧ ∀ sent, r = .ok sent →
        Attempting given J { a with stored := sent.or a.stored } t) s := by
  cases patch with
  | none =>
    refine ⟨h.kept, fun sent hsent => ?_⟩
    cases hsent
    exact h
  | some patch =>
    let request : ApiRequest := .patchMetadata ⟨id.namespaceName, a.base.effectiveName⟩ patch
    have hnext := h.turn hJ request (by simp [request, InCall, h.along])
    refine named_attempting h ?_ _
    refine And.intro hnext.kept fun p hp => ?_
    have hp' : (answer request s.1).1 = .ok p := hp
    simpa [request, LastAttempt.after, hp'] using hnext

/-- What is sent is answered with the server's last answer, or with the pod itself if there was nothing
to send. -/
theorem send_attempting (hJ : KeptInCall answer id given J) (h : Attempting given J a s)
    (hunsent : a.stored = none) (edited : Pod) :
    (ApiClient.send ⟨id.namespaceName, a.base.effectiveName⟩ a.base edited touchesResize).wp
      (logged answer) (fun r t => J t ∧ ∀ p, r = .ok p →
        ∃ stored, Attempting given J { a with stored } t ∧ p = stored.getD edited) s := by
  simp only [ApiClient.send, bind, Program.wp_bind]
  refine Program.wp_mono (sendResize_attempting hJ h _) fun r t ht => ?_
  cases r with
  | error e => exact ⟨ht.1, fun p hp => by cases hp⟩
  | ok resized =>
    have hresized := ht.2 resized rfl
    simp only [Program.wp_bind]
    refine Program.wp_mono (sendMetadata_attempting hJ hresized _) fun r u hu => ?_
    cases r with
    | error e => exact ⟨hu.1, fun p hp => by cases hp⟩
    | ok patched =>
      refine ⟨hu.1, fun p hp => ?_⟩
      cases hp
      refine ⟨_, hu.2 patched rfl, ?_⟩
      cases patched <;> cases resized <;> simp [hunsent]

theorem write_gives (hJ : KeptInCall answer id given J) {base : Pod}
    (h : Attempting given J { base } s) :
    (ApiClient.write id.namespaceName base mutators touchesResize).wp (logged answer) (fun r t =>
      J t ∧ ∀ attempt, r = .ok attempt →
        ∃ edit, (LastAttempt.along given t.2).Gives mutators edit attempt.written) s := by
  have htold := h.turn hJ .clock trivial
  simp only [ApiClient.write, bind, Program.wp_bind, ApiProgram.clock, Program.wp]
  cases hedit : Mutator.applyAll mutators (logged answer ApiRequest.clock s).1 base with
  | error e => exact ⟨htold.kept, fun attempt hattempt => by cases hattempt⟩
  | ok edit =>
    by_cases hchanged : edit.changed = true
    · simp only [hchanged, if_true, Program.wp_bind]
      refine Program.wp_mono (send_attempting hJ htold rfl edit.pod) fun r t ht => ?_
      cases r with
      | error e => exact ⟨ht.1, fun attempt hattempt => by cases hattempt⟩
      | ok p =>
        refine ⟨ht.1, fun attempt hattempt => ?_⟩
        cases hattempt
        obtain ⟨stored, hstored, rfl⟩ := ht.2 p rfl
        refine ⟨edit, ?_⟩
        rw [hstored.along]
        exact ⟨⟨_, rfl, hedit⟩, by simp [hchanged], by simp [hchanged]⟩
    · simp only [hchanged]
      refine ⟨htold.kept, fun attempt hattempt => ?_⟩
      cases hattempt
      refine ⟨edit, ?_⟩
      rw [htold.along]
      exact ⟨⟨_, rfl, hedit⟩, by simp [hchanged], fun _ => rfl⟩

theorem run_write (namespaceName : String) (base : Pod) (s : σ) :
    (ApiClient.write namespaceName base mutators touchesResize).run answer s =
      (match Mutator.applyAll mutators (answer .clock s).1 base with
        | .error e => .done (.error (.shape e))
        | .ok edit =>
          if edit.changed then
            (ApiClient.send ⟨namespaceName, base.effectiveName⟩ base edit.pod touchesResize).bind
              fun sent => .done (sent.map fun p => ⟨some p, edit.observations⟩)
          else .done (.ok ⟨none, edit.observations⟩) :
        ApiProgram (Except ClientError ApiClient.Attempt)).run answer (answer .clock s).2 :=
  rfl

theorem fetch_attempting (hJ : KeptInCall answer id given J) (h : J s) :
    (ApiClient.fetch id).wp (logged answer) (fun r t =>
      J t ∧ ∀ p, r = .ok (some p) → Attempting given J { base := p } t) s := by
  by_cases hname : id.name.isEmpty = true
  · simp only [ApiClient.fetch, ApiProgram.get, ApiProgram.named, hname, if_true]
    exact ⟨h, fun p hp => by cases hp⟩
  · have hnext := hJ (.get id) s rfl h
    simp only [ApiClient.fetch, ApiProgram.get, ApiProgram.named, hname, bind, Program.wp_bind]
    simp only [Bool.false_eq_true, if_false, Program.wp]
    cases hread : (answer (.get id) s.1).1 with
    | error failure =>
      simp only [logged, hread] at hnext ⊢
      cases failure with
      | refused code reason message =>
        dsimp only
        split
        · exact ⟨hnext, fun p hp => by cases hp⟩
        · exact ⟨hnext, fun p hp => by cases hp⟩
      | _ => exact ⟨hnext, fun p hp => by cases hp⟩
    | ok q =>
      simp only [logged, hread] at hnext ⊢
      refine ⟨hnext, fun p hp => ?_⟩
      cases hp
      exact ⟨by simp [LastAttempt.after], hnext⟩

theorem attempt_gives (hJ : KeptInCall answer id given J) (n : Nat) (h : J s)
    (hfirst : n = 1 → LastAttempt.along given s.2 = { base := given }) :
    (ApiClient.attempt id given mutators touchesResize n).wp (logged answer) (fun r t =>
      J t ∧ ∀ attempt, r = .ok attempt →
        ∃ edit, (LastAttempt.along given t.2).Gives mutators edit attempt.written) s := by
  by_cases hn : n = 1
  · simp only [ApiClient.attempt, hn, if_true]
    exact write_gives hJ ⟨hfirst hn, h⟩
  · simp only [ApiClient.attempt, hn, if_false, bind, Program.wp_bind]
    refine Program.wp_mono (fetch_attempting hJ h) fun r t ht => ?_
    cases r with
    | error e => exact ⟨ht.1, fun attempt hattempt => by cases hattempt⟩
    | ok found =>
      cases found with
      | none => exact ⟨ht.1, fun attempt hattempt => by cases hattempt⟩
      | some p => exact write_gives hJ (ht.2 p rfl)

/-- Requests between attempts and looks at the cache make no difference to the attempt. -/
theorem LastAttempt.after_of_isPause (a : LastAttempt) (turn : Turn apiSignature)
    (h : turn.request.isPause = true) : a.after turn = a := by
  obtain ⟨request, answer⟩ := turn
  cases request with
  | sleep millis => rfl
  | record events => rfl
  | _ => cases h

/-- A call that succeeds gives the pod as its last attempt leaves it, and the given pod if that changes
nothing. -/
theorem patch_gives {r₀ : σ} (hJ : KeptInCall answer id given J) (hstart : J (r₀, []))
    (sync : CacheSync) (retry : RetryPolicy) (mutators : List Mutator) (touchesResize awaits : Bool) :
    (ApiClient.patch sync ⟨id, retry⟩ given mutators touchesResize awaits).wp (logged answer)
      (fun r t => J t ∧ ∀ written, r = .ok written → ∃ edit left,
        (LastAttempt.along given t.2).Gives mutators edit left ∧ written.pod = left.getD given)
      (r₀, []) := by
  have hpause (request : ApiRequest) (t : σ × List (Turn apiSignature))
      (hrequest : request.isPause = true) (ht : J t) : J (logged answer request t).2 ∧
        LastAttempt.along given (logged answer request t).2.2 = LastAttempt.along given t.2 := by
    have hcall : InCall id given t.2 request := by
      cases request with
      | sleep | record => trivial
      | _ => cases hrequest
    have hsame := (LastAttempt.along given t.2).after_of_isPause
      ⟨request, (answer request t.1).1⟩ hrequest
    exact ⟨hJ request t hcall ht, by simp [logged, hsame]⟩
  have hretried : (ApiClient.retried retry
      (ApiClient.attempt id given mutators touchesResize)).wp (logged answer) (fun r t =>
        J t ∧ ∀ attempt, r = .ok attempt →
          ∃ edit, (LastAttempt.along given t.2).Gives mutators edit attempt.written) (r₀, []) := by
    -- only the first attempt starts from the given pod
    refine retried_wp (I := fun n t => J t ∧ 1 ≤ n ∧
        (n = 1 → LastAttempt.along given t.2 = { base := given }))
      (fun n request t hrequest ht => ?_) (fun n t ht => ?_) _ _
      ⟨hstart, Nat.le_refl 1, fun _ => rfl⟩
    · obtain ⟨hkept, hsame⟩ := hpause request t hrequest ht.1
      exact ⟨hkept, ht.2.1, hsame ▸ ht.2.2⟩
    · exact Program.wp_mono (attempt_gives hJ n ht.1 ht.2.2) fun r u hu =>
        ⟨hu, fun _ _ => ⟨hu.1, by omega, fun hn => absurd hn (by omega)⟩⟩
  simp only [ApiClient.patch, bind, Program.wp_bind]
  refine Program.wp_mono hretried fun r t ht => ?_
  cases r with
  | error e => exact ⟨ht.1, fun written hwritten => by cases hwritten⟩
  | ok attempt =>
    obtain ⟨left, observations⟩ := attempt
    obtain ⟨edit, hgives⟩ := ht.2 _ rfl
    cases left with
    | none =>
      refine ⟨ht.1, fun written hwritten => ?_⟩
      cases hwritten
      exact ⟨edit, none, hgives, rfl⟩
    | some p =>
      simp only [Program.wp_bind]
      refine Program.wp_mono (awaitSync_wp
        (P := fun t => J t ∧ (LastAttempt.along given t.2).Gives mutators edit (some p))
        (fun request t hrequest ht => ?_)
        (fun i t ht => ⟨hJ (.cachedVersion i) t trivial ht.1, by
          simpa [logged, LastAttempt.after] using ht.2⟩)
        sync id awaits p t ⟨ht.1, hgives⟩) fun _ u hu => ⟨hu.1, fun written hwritten => ?_⟩
      · obtain ⟨hkept, hsame⟩ := hpause request t hrequest ht.1
        exact ⟨hkept, hsame ▸ ht.2⟩
      · cases hwritten
        exact ⟨edit, some p, hu.2, rfl⟩

end Client

def fetchedIn (turns : List (Turn apiSignature)) : List Pod :=
  turns.filterMap fun
    | ⟨.get _, .ok p⟩ => some p
    | ⟨.get _, .error _⟩ | ⟨.resize _ _, _⟩ | ⟨.patchMetadata _ _, _⟩
    | ⟨.clock, _⟩ | ⟨.sleep _, _⟩ | ⟨.cachedVersion _, _⟩ | ⟨.record _, _⟩ => none

def LastAttempt.latest (a : LastAttempt) : Pod := a.stored.getD a.base

section Versions
variable {w : World} {id : PodId} {given : Pod} {s : Server} {turns : List (Turn apiSignature)}

/-- What the attempt knows is not older than any pod that has been read in the call. -/
structure UpToDate (w : World) (id : PodId) (given : Pod) (s : Server × List (Turn apiSignature)) :
    Prop where
  sound : s.1.Sound w
  newest : s.1.Newest w
  fetched : ∀ p ∈ fetchedIn s.2, p ∈ s.1.history ∧ p.id = id
  base : ∀ p ∈ fetchedIn s.2, (LastAttempt.along given s.2).base.id = id
  latest : ∀ p ∈ fetchedIn s.2, ¬ w.Older (LastAttempt.along given s.2).latest p

theorem UpToDate.start (hs : s.Sound w) (h : s.Newest w) : UpToDate w id given (s, []) :=
  ⟨hs, h, fun _ hp => absurd hp List.not_mem_nil, fun _ hp => absurd hp List.not_mem_nil,
    fun _ hp => absurd hp List.not_mem_nil⟩

structure Server.Next (w : World) (s t : Server) : Prop where
  sound : t.Sound w
  newest : t.Newest w
  history : ∀ p ∈ s.history, p ∈ t.history

theorem Server.Next.get (hs : s.Sound w) (h : s.Newest w) (i : PodId) :
    s.Next w (s.get w i).2 := by
  have hnewest := (Server.get_newest hs h i).1
  rcases Server.get_cases hs i with ⟨-, -, hlater⟩ | ⟨-, -, hsound, hhistory, -⟩
  · exact ⟨hlater.sound, hnewest, hlater.history⟩
  · exact ⟨hsound, hnewest, hhistory⟩

theorem Server.Next.patch (hs : s.Sound w) (h : s.Newest w) (i : PodId) (patch : Patch) :
    s.Next w (s.patch w i patch).2 := by
  have hnewest := (Server.patch_newest hs h i patch).1
  rcases Server.patch_cases hs i patch with ⟨-, -, hlater⟩ | ⟨-, -, -, hsound, hhistory, -⟩
  · exact ⟨hlater.sound, hnewest, hlater.history⟩
  · exact ⟨hsound, hnewest, hhistory⟩

theorem UpToDate.quiet (h : UpToDate w id given (s, turns)) {t : Server} (ht : s.Next w t)
    {turn : Turn apiSignature} (hfetched : fetchedIn (turns ++ [turn]) = fetchedIn turns)
    (hbase : ((LastAttempt.along given turns).after turn).base = (LastAttempt.along given turns).base)
    (hlatest : ((LastAttempt.along given turns).after turn).latest =
      (LastAttempt.along given turns).latest) :
    UpToDate w id given (t, turns ++ [turn]) := by
  refine ⟨ht.sound, ht.newest, fun p hp => ?_, fun p hp => ?_, fun p hp => ?_⟩
  · rw [hfetched] at hp
    exact ⟨ht.history p (h.fetched p hp).1, (h.fetched p hp).2⟩
  · rw [hfetched] at hp
    simpa [hbase] using h.base p hp
  · rw [hfetched] at hp
    simpa [hlatest] using h.latest p hp

theorem UpToDate.read (h : UpToDate w id given (s, turns)) {t : Server} (ht : s.Next w t) {p : Pod}
    (hp : t.pods id = some p) : UpToDate w id given (t, turns ++ [⟨.get id, .ok p⟩]) := by
  have hfetched : fetchedIn (turns ++ [⟨.get id, .ok p⟩]) = fetchedIn turns ++ [p] := by
    simp [fetchedIn]
  have hstored := ht.sound.stored id p hp
  have hall : ∀ q ∈ fetchedIn turns ++ [p], q ∈ t.history ∧ q.id = id := by
    intro q hq
    rcases List.mem_append.1 hq with hq | hq
    · exact ⟨ht.history q (h.fetched q hq).1, (h.fetched q hq).2⟩
    · rw [List.mem_singleton.1 hq]
      exact hstored
  refine ⟨ht.sound, ht.newest, hfetched ▸ hall, fun q _ => ?_, fun q hq => ?_⟩
  · simpa [LastAttempt.after] using hstored.2
  · obtain ⟨hmem, hid⟩ := hall q (hfetched ▸ hq)
    simpa [LastAttempt.after, LastAttempt.latest] using ht.newest id p hp q hmem hid

theorem UpToDate.wrote (h : UpToDate w id given (s, turns)) {t : Server} (ht : s.Next w t) {p : Pod}
    {i : PodId} (hp : t.pods i = some p)
    (hi : i = ⟨id.namespaceName, (LastAttempt.along given turns).base.effectiveName⟩)
    {turn : Turn apiSignature} (hfetched : fetchedIn (turns ++ [turn]) = fetchedIn turns)
    (hafter : (LastAttempt.along given turns).after turn =
      { LastAttempt.along given turns with stored := some p }) :
    UpToDate w id given (t, turns ++ [turn]) := by
  refine ⟨ht.sound, ht.newest, fun q hq => ?_, fun q hq => ?_, fun q hq => ?_⟩
  · rw [hfetched] at hq
    exact ⟨ht.history q (h.fetched q hq).1, (h.fetched q hq).2⟩
  · rw [hfetched] at hq
    simpa [hafter] using h.base q hq
  · rw [hfetched] at hq
    obtain ⟨hmem, hid⟩ := h.fetched q hq
    have hname : i = id := by
      rw [hi]
      exact congrArg (PodId.mk id.namespaceName) (congrArg PodId.name (h.base q hq))
    simpa [hafter, LastAttempt.latest] using ht.newest i p hp q (ht.history q hmem) (hid.trans hname.symm)

/-- Every turn of a call keeps what the attempt knows up to date. -/
theorem upToDate_kept (w : World) (id : PodId) (given : Pod) :
    KeptInCall (Server.handle w) id given (UpToDate w id given) := by
  rintro request ⟨s, turns⟩ hcall h
  have hsame : s.Next w s := ⟨h.sound, h.newest, fun _ hp => hp⟩
  have hpoll : s.Next w { s with turn := s.turn + 1 } := ⟨h.sound.atTurn _, h.newest, fun _ hp => hp⟩
  cases request with
  | get i =>
    obtain rfl : i = id := hcall
    have hnext := Server.Next.get h.sound h.newest i
    have hstored := (Server.get_newest h.sound h.newest i).2
    simp only [logged, Server.handle]
    cases hanswer : (s.get w i).1 with
    | error failure => exact h.quiet hnext (by simp [fetchedIn]) rfl rfl
    | ok p => exact h.read hnext (hstored p hanswer)
  | resize i patch =>
    have hnext := Server.Next.patch h.sound h.newest i (.resize patch)
    have hstored := (Server.patch_newest h.sound h.newest i (.resize patch)).2
    simp only [logged, Server.handle]
    cases hanswer : (s.patch w i (.resize patch)).1 with
    | error failure => exact h.quiet hnext (by simp [fetchedIn]) rfl rfl
    | ok p => exact h.wrote hnext (hstored p hanswer) hcall (by simp [fetchedIn]) rfl
  | patchMetadata i patch =>
    have hnext := Server.Next.patch h.sound h.newest i (.metadata patch)
    have hstored := (Server.patch_newest h.sound h.newest i (.metadata patch)).2
    simp only [logged, Server.handle]
    cases hanswer : (s.patch w i (.metadata patch)).1 with
    | error failure => exact h.quiet hnext (by simp [fetchedIn]) rfl rfl
    | ok p => exact h.wrote hnext (hstored p hanswer) hcall (by simp [fetchedIn]) rfl
  | clock =>
    exact h.quiet ⟨h.sound.clocked, h.newest, fun _ hp => hp⟩ (by simp [fetchedIn]) rfl rfl
  | sleep millis => exact h.quiet hsame (by simp [fetchedIn]) rfl rfl
  | cachedVersion i => exact h.quiet hpoll (by simp [fetchedIn]) rfl rfl
  | record events => exact h.quiet hsame (by simp [fetchedIn]) rfl rfl

end Versions

/-- A run of a call that succeeds ends as its last attempt leaves it. -/
theorem patch_run_gives {σ : Type}
    {answer : (request : ApiRequest) → σ → apiSignature.Answer request × σ}
    {J : σ × List (Turn apiSignature) → Prop} {s : σ} {context : Context} {given : Pod}
    {mutators : List Mutator} {touchesResize awaits : Bool} {sync : CacheSync} {written : Written}
    (hJ : KeptInCall answer context.id given J) (hstart : J (s, []))
    (hrun : ((ApiClient.patch sync context given mutators touchesResize awaits).run answer s).1 =
      .ok (.ok written)) :
    ∃ t turns edit left,
      (ApiClient.patch sync context given mutators touchesResize awaits).turns answer s = turns ∧
      J (t, turns) ∧ (LastAttempt.along given turns).Gives mutators edit left ∧
      written.pod = left.getD given := by
  obtain ⟨r, hr, hkept, hgives⟩ := (Program.wp_iff_run _ _ _ _).1
    (patch_gives hJ hstart sync context.retry mutators touchesResize awaits)
  rw [Program.run_logged_nil] at hr hkept hgives
  rw [hrun] at hr
  obtain ⟨edit, left, hleft, hwritten⟩ := hgives written (Except.ok.inj hr).symm
  exact ⟨_, _, edit, left, rfl, hkept, hleft, hwritten⟩

def lostAnswer : World where
  version := tally
  fresh := tally_injective
  others _ := []
  verdict n := if n = 1 then .lose (.refused 500 "InternalError" "timeout") else .answer
  renews _ := true
  clock _ := ⟨0⟩
  cached _ := none

namespace LostAnswer

def stored : Server := .holding lostAnswer (plainPod [])

def given : Pod := (plainPod []).withVersion (some (tally 0))

def call (mutators : List Mutator) : ApiProgram (Except ClientError Written) :=
  ApiClient.patch ⟨0, 1, Nat.one_pos⟩ ⟨⟨"ns", "pod"⟩, ⟨2, 0⟩⟩ given mutators false false

def turns (mutators : List Mutator) : List (Turn apiSignature) :=
  (call mutators).turns (Server.handle lostAnswer) stored

def lastAttempt (mutators : List Mutator) : LastAttempt := .along given (turns mutators)

def failure : ApiFailure := .refused 500 "InternalError" "timeout"

def statusPatch (u : StatusUpdate) : MetadataPatch where
  version := some (tally 0)
  labels := none
  annotations := some (some (.ofList [(Key.status, (u.next {} ⟨0⟩).1.write)]))

def reread (u : StatusUpdate) : Pod := (u.apply ⟨0⟩ given).pod.withVersion (some (tally 1))

def statusTurns (u : StatusUpdate) : List (Turn apiSignature) :=
  [⟨ApiRequest.clock, (⟨0⟩ : Instant)⟩,
    ⟨ApiRequest.patchMetadata ⟨"ns", "pod"⟩ (statusPatch u),
      (.error failure : Except ApiFailure Pod)⟩,
    ⟨ApiRequest.record [.retried .serverError], ()⟩,
    ⟨ApiRequest.get ⟨"ns", "pod"⟩, (.ok (reread u) : Except ApiFailure Pod)⟩,
    ⟨ApiRequest.clock, (⟨0⟩ : Instant)⟩]

abbrev answering : (request : ApiRequest) → Server × List (Turn apiSignature) →
    apiSignature.Answer request × Server × List (Turn apiSignature) :=
  logged (S := apiSignature) (Server.handle lostAnswer)

theorem first_attempt (u : StatusUpdate) :
    ∃ s t,
      (ApiClient.write "ns" given [u.mutator] false).run answering (stored, []) =
        (.ok (.error (.api failure)), s) ∧
      (ApiClient.fetch ⟨"ns", "pod"⟩).run answering
        (answering (.record [.retried .serverError]) s).2 = (.ok (.ok (some (reread u))), t) ∧
      (answering .clock t).1 = (⟨0⟩ : Instant) ∧ (answering .clock t).2.2 = statusTurns u :=
  ⟨_, _, rfl, rfl, rfl, rfl⟩

/-- The second attempt finds the status on the pod, and the call gives the pod from before. -/
theorem call_run {u : StatusUpdate} (hu : u.scaleState.isCommand = false) :
    ∃ s observations, (call [u.mutator]).run answering (stored, []) =
      (.ok (.ok ⟨given, observations⟩), s, statusTurns u) := by
  obtain ⟨s, t, hfirst, hread, htold, hturns⟩ := first_attempt u
  have hunchanged : (u.apply ⟨0⟩ (reread u)).changed = false := by
    rw [reread, u.apply_withVersion, StatusUpdate.apply_again hu]
  have hsecond : (ApiClient.write "ns" (reread u) [u.mutator] false).run answering t =
      (.ok (.ok ⟨none, (u.apply ⟨0⟩ (reread u)).observations⟩), (answering .clock t).2) := by
    rw [run_write, htold, u.applyAll_mutator]
    simp [hunchanged]
  have hreason : (ClientError.api failure).retryReason? = some .serverError := by decide
  have hretried : (ApiClient.retried ⟨2, 0⟩
      (ApiClient.attempt ⟨"ns", "pod"⟩ given [u.mutator] false)).run answering (stored, []) =
        (.ok (.ok ⟨none, (u.apply ⟨0⟩ (reread u)).observations⟩), (answering .clock t).2) := by
    simp [ApiClient.retried, Retry.attempts, Retry.attemptsFrom, Program.interpret,
      ApiClient.retryStep, ApiClient.attempt, bind, Program.run_bind, hfirst, hreason,
      Retry.beforeNext, ApiProgram.record, Program.bind, hread, hsecond]
  refine ⟨(answering .clock t).2.1, (u.apply ⟨0⟩ (reread u)).observations, ?_⟩
  rw [← hturns]
  simp only [call, ApiClient.patch, bind, Program.run_bind, hretried]
  rfl

/-- The call is answered with the given pod, though no patch has been answered, and the status is on a
newer pod that has been read. -/
theorem status_older {u : StatusUpdate} (hu : u.scaleState.isCommand = false) :
    ∃ written, ((call [u.mutator]).run (Server.handle lostAnswer) stored).1 = .ok (.ok written) ∧
      (lastAttempt [u.mutator]).stored = none ∧
      (∃ edit, (lastAttempt [u.mutator]).Applies [u.mutator] edit ∧ written.pod ≠ edit.pod) ∧
      ∃ p ∈ fetchedIn (turns [u.mutator]), lostAnswer.Older written.pod p := by
  obtain ⟨s, observations, hrun⟩ := call_run hu
  rw [Program.run_logged_nil] at hrun
  obtain ⟨hanswer, hrun⟩ := Prod.mk.inj hrun
  have hturns : turns [u.mutator] = statusTurns u := (Prod.mk.inj hrun).2
  refine ⟨⟨given, observations⟩, hanswer, ?_⟩
  rw [lastAttempt, hturns]
  refine ⟨rfl, ⟨u.apply ⟨0⟩ (reread u), ⟨⟨0⟩, rfl, u.applyAll_mutator _ _⟩, fun hsame => ?_⟩,
    reread u, List.mem_singleton_self _, 0, 1, rfl, rfl, Nat.one_pos⟩
  -- the edited pod has the version of the pod that has been read
  have hversions := (congrArg Pod.resourceVersion hsame).trans (u.apply_version ⟨0⟩ (reread u))
  exact absurd (tally_injective 0 1 (Option.some.inj hversions)) Nat.zero_ne_one

end LostAnswer

/-- A call that succeeds is answered with what the server has answered last in the last attempt, or with
the edited pod of that attempt where nothing was sent, exactly if the mutators ask for a change there or
make of its base just the pod that the call was given. Otherwise nothing was sent, and the answer is the
given pod. On a server whose versions go up, that is the only way in which an answer can be older than a
pod that the call has read. -/
theorem patch_answers_lastAttempt (sync : CacheSync) (context : Context) (given : Pod)
    (mutators : List Mutator) (touchesResize awaits : Bool) :
    let call := ApiClient.patch sync context given mutators touchesResize awaits
    (∀ (σ : Type) (answer : (request : ApiRequest) → σ → apiSignature.Answer request × σ) (s : σ)
      (written : Written), (call.run answer s).1 = .ok (.ok written) →
        let attempt := LastAttempt.along given (call.turns answer s)
        ∃ edit, attempt.Applies mutators edit ∧
          (written.pod = attempt.stored.getD edit.pod ↔ edit.changed = true ∨ edit.pod = given) ∧
          (edit.changed = false → attempt.stored = none ∧ written.pod = given)) ∧
    ∀ (w : World) (s : Server) (written : Written), s.Sound w → s.Newest w →
      (call.run (Server.handle w) s).1 = .ok (.ok written) →
        let turns := call.turns (Server.handle w) s
        let attempt := LastAttempt.along given turns
        ∃ edit, attempt.Applies mutators edit ∧
          (edit.pod.resourceVersion = attempt.base.resourceVersion →
            ((∃ p ∈ fetchedIn turns, w.Older written.pod p) ↔
              edit.changed = false ∧ ∃ p ∈ fetchedIn turns, w.Older given p)) := by
  refine ⟨fun σ answer s written hrun => ?_, fun w s written hs hnewest hrun => ?_⟩
  · obtain ⟨-, turns, edit, left, hturns, -, hgives, hwritten⟩ :=
      patch_run_gives (J := fun _ => True) (fun _ _ _ _ => trivial) trivial hrun
    rw [hturns]
    refine ⟨edit, hgives.applies, ?_⟩
    rw [hwritten, hgives.written_eq]
    cases hchanged : edit.changed with
    | true => simp
    | false => simp [hgives.unsent hchanged, eq_comm]
  · obtain ⟨t, turns, edit, left, hturns, hknown, hgives, hwritten⟩ :=
      patch_run_gives (upToDate_kept w context.id given) (.start hs hnewest) hrun
    rw [hturns]
    refine ⟨edit, hgives.applies, fun hversion => ?_⟩
    rw [hwritten, hgives.written_eq]
    cases hchanged : edit.changed with
    | false => simp
    | true =>
      -- the answer has the version of what the attempt knows
      have hlatest : ((LastAttempt.along given turns).stored.getD edit.pod).resourceVersion =
          (LastAttempt.along given turns).latest.resourceVersion := by
        unfold LastAttempt.latest
        cases (LastAttempt.along given turns).stored with
        | none => exact hversion
        | some p => rfl
      simpa [World.Older.congr hlatest] using hknown.latest

section
open LostAnswer

/-- Where the mutators ask for a change again, the answer is the pod that has been read, edited once
more. -/
theorem lostAnswer_editedAgain :
    let paint : Mutator := fun _ p => .ok { changed := true, pod := p.setAnnotation "team" "red" }
    let mutators := [paint]
    ∃ written, ((call mutators).run (Server.handle lostAnswer) stored).1 = .ok (.ok written) ∧
      (∃ p ∈ fetchedIn (turns mutators), p.resourceVersion = some (tally 1)) ∧
      ∃ edit, (lastAttempt mutators).Applies mutators edit ∧
        written.pod = (lastAttempt mutators).stored.getD edit.pod ∧
        ¬ ∃ p ∈ fetchedIn (turns mutators), lostAnswer.Older written.pod p := by
  intro paint mutators
  have hs : stored.Sound lostAnswer := Server.store_sound (Server.empty_sound _) (by decide)
  have hnewest : stored.Newest lostAnswer :=
    Server.store_newest (Server.empty_sound _) (Server.empty_newest _) _
  have hrun : ∃ written, ((call mutators).run (Server.handle lostAnswer) stored).1 =
      .ok (.ok written) := ⟨_, rfl⟩
  obtain ⟨written, hrun⟩ := hrun
  obtain ⟨hanswers, hversions⟩ := patch_answers_lastAttempt ⟨0, 1, Nat.one_pos⟩
    ⟨⟨"ns", "pod"⟩, ⟨2, 0⟩⟩ given mutators false false
  obtain ⟨edit, happlies, hiff, -⟩ := hanswers Server _ stored written hrun
  obtain ⟨edit', happlies', holder⟩ := hversions lostAnswer stored written hs hnewest hrun
  refine ⟨written, hrun, ⟨_, List.mem_singleton_self _, rfl⟩, edit, happlies, hiff.2 (.inl ?_),
    fun hold => ?_⟩
  · obtain ⟨now, -, hedit⟩ := happlies
    cases hedit
    rfl
  · obtain ⟨now, -, hedit⟩ := happlies'
    cases hedit
    cases ((holder rfl).1 hold).1

/-- Where the mutators find nothing left to change, the answer is the pod that the call was given. The
server has answered no patch, the mutators make another pod of the one that has been read, and the answer
is older than that one. -/
theorem lostAnswer_older :
    let u : StatusUpdate := ⟨"commanded", {}, .notApplicable, [.cpu]⟩
    ∃ written, ((call [u.mutator]).run (Server.handle lostAnswer) stored).1 = .ok (.ok written) ∧
      (lastAttempt [u.mutator]).stored = none ∧
      (∃ edit, (lastAttempt [u.mutator]).Applies [u.mutator] edit ∧ written.pod ≠ edit.pod) ∧
      ∃ p ∈ fetchedIn (turns [u.mutator]), lostAnswer.Older written.pod p :=
  status_older rfl

end

end PodSizing
