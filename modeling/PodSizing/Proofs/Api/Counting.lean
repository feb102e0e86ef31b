import PodSizing.Proofs.Api.Writing
import PodSizing.Proofs.Status.Pending
import PodSizing.Routing

/-!
# What is counted of a write

A client applies a status update anew in each attempt, and attempts fail after they have applied it.
What is counted in the end is what the last application lets be seen, if the write has succeeded, and
nothing otherwise.
-/
namespace PodSizing
open Time (Instant)
open Program (Turn logged)

/-- What the turns of a client come to: the pod that it would apply mutators to, and the pods that it has
applied them to, each with its time. -/
structure Applied where
  base : Pod
  applications : List (Instant × Pod) := []

namespace Applied

/-- A pod that is read takes the place of the one before. Whenever the time is told, mutators are
applied. -/
def after (a : Applied) : Turn apiSignature → Applied
  | ⟨.get _, .ok p⟩ => { a with base := p }
  | ⟨.clock, now⟩ => { a with applications := a.applications ++ [(now, a.base)] }
  | _ => a

def along (given : Pod) (turns : List (Turn apiSignature)) : Applied :=
  turns.foldl after { base := given }

@[simp] theorem along_concat (given : Pod) (turns : List (Turn apiSignature))
    (turn : Turn apiSignature) : along given (turns ++ [turn]) = (along given turns).after turn := by
  simp [along]

end Applied

def ApiRequest.isNews : ApiRequest → Bool
  | .get _ | .clock => true
  | .resize _ _ | .patchMetadata _ _ | .cachedVersion _ | .sleep _ | .record _ => false

theorem ApiRequest.isNews_of_isPause {request : ApiRequest} (h : request.isPause = true) :
    request.isNews = false := by
  cases request <;> simp_all [isPause, isNews]

theorem Applied.after_eq_self (a : Applied) {turn : Turn apiSignature}
    (h : turn.request.isNews = false) : a.after turn = a := by
  obtain ⟨request, answer⟩ := turn
  cases request with
  | get id => cases h
  | clock => cases h
  | _ => rfl

def Applied.Shows (a : Applied) (mutators : List Mutator) (observations : List Observation) : Prop :=
  ∃ now base edit, a.applications.getLast? = some (now, base) ∧
    Mutator.applyAll mutators now base = .ok edit ∧ edit.observations = observations

section Client
variable {σ : Type} {answer : (request : ApiRequest) → σ → apiSignature.Answer request × σ}
  {given base : Pod} {mutators : List Mutator} {touchesResize : Bool}
  {s : σ × List (Turn apiSignature)} {P : Applied → Prop}

def CameTo (given : Pod) (P : Applied → Prop) (s : σ × List (Turn apiSignature)) : Prop :=
  P (Applied.along given s.2)

theorem CameTo.quiet (h : CameTo given P s) (request : ApiRequest)
    (hquiet : request.isNews = false) : CameTo given P (logged answer request s).2 := by
  have hsame : (Applied.along given s.2).after ⟨request, (answer request s.1).1⟩ =
      Applied.along given s.2 := Applied.after_eq_self _ hquiet
  simpa [CameTo, logged, hsame] using h

theorem sendResize_cameTo (h : CameTo given P s) (id : PodId) (patch : Option ResizePatch) :
    (ApiClient.sendResize id patch).wp (logged answer) (fun _ t => CameTo given P t) s := by
  cases patch with
  | none => exact h
  | some patch =>
    by_cases hname : id.name.isEmpty = true
    · simp only [ApiClient.sendResize, ApiProgram.resize, ApiProgram.named, hname, if_true]
      exact h
    · simp only [ApiClient.sendResize, ApiProgram.resize, ApiProgram.named, hname]
      exact h.quiet (.resize id patch) rfl

theorem sendMetadata_cameTo (h : CameTo given P s) (id : PodId) (patch : Option MetadataPatch) :
    (ApiClient.sendMetadata id patch).wp (logged answer) (fun _ t => CameTo given P t) s := by
  cases patch with
  | none => exact h
  | some patch =>
    by_cases hname : id.name.isEmpty = true
    · simp only [ApiClient.sendMetadata, ApiProgram.patchMetadata, ApiProgram.named, hname, if_true]
      exact h
    · simp only [ApiClient.sendMetadata, ApiProgram.patchMetadata, ApiProgram.named, hname]
      exact h.quiet (.patchMetadata id patch) rfl

theorem send_cameTo (h : CameTo given P s) (id : PodId) (before after : Pod) :
    (ApiClient.send id before after touchesResize).wp (logged answer)
      (fun _ t => CameTo given P t) s := by
  simp only [ApiClient.send, bind, Program.wp_bind]
  refine Program.wp_mono (sendResize_cameTo h id _) fun r t ht => ?_
  cases r with
  | error e => exact ht
  | ok resized =>
    simp only [Program.wp_bind]
    refine Program.wp_mono (sendMetadata_cameTo ht id _) fun r u hu => ?_
    cases r <;> exact hu

/-- A write that succeeds gives what the mutators let be seen of the pod that it is made of. -/
theorem write_shows (h : CameTo given (·.base = base) s) (namespaceName : String) :
    (ApiClient.write namespaceName base mutators touchesResize).wp (logged answer) (fun r t =>
      ∀ attempt, r = .ok attempt →
        CameTo given (·.Shows mutators attempt.observations) t) s := by
  simp only [ApiClient.write, bind, Program.wp_bind, ApiProgram.clock, Program.wp]
  cases hedit : Mutator.applyAll mutators (logged answer ApiRequest.clock s).1 base with
  | error e => exact fun attempt hattempt => by cases hattempt
  | ok edit =>
    have hshows : CameTo given (·.Shows mutators edit.observations)
        (logged answer ApiRequest.clock s).2 := by
      refine ⟨_, base, edit, ?_, hedit, rfl⟩
      have hbase : (Applied.along given s.2).base = base := h
      simp [logged, Applied.after, hbase]
    by_cases hchanged : edit.changed = true
    · simp only [hchanged, if_true, Program.wp_bind]
      refine Program.wp_mono (send_cameTo hshows _ base edit.pod) fun r t ht attempt hattempt => ?_
      cases r with
      | error e => cases hattempt
      | ok p =>
        cases hattempt
        exact ht
    · simp only [hchanged]
      intro attempt hattempt
      cases hattempt
      exact hshows

theorem fetch_shows (given : Pod) (id : PodId) (s : σ × List (Turn apiSignature)) :
    (ApiClient.fetch id).wp (logged answer) (fun r t =>
      ∀ p, r = .ok (some p) → CameTo given (·.base = p) t) s := by
  by_cases hname : id.name.isEmpty = true
  · simp only [ApiClient.fetch, ApiProgram.get, ApiProgram.named, hname, if_true]
    exact fun p hp => by cases hp
  · simp only [ApiClient.fetch, ApiProgram.get, ApiProgram.named, hname, bind, Program.wp_bind]
    simp only [Bool.false_eq_true, if_false, Program.wp]
    cases hread : (answer (.get id) s.1).1 with
    | error failure =>
      simp only [logged, hread]
      cases failure with
      | refused code reason message =>
        dsimp only
        split
        · exact fun p hp => by cases hp
        · exact fun p hp => by cases hp
      | _ => exact fun p hp => by cases hp
    | ok q =>
      simp only [logged, hread]
      intro p hp
      cases hp
      simp [CameTo, Applied.after]

theorem attempt_shows (id : PodId) (n : Nat) (hfirst : n = 1 → CameTo given (·.base = given) s) :
    (ApiClient.attempt id given mutators touchesResize n).wp (logged answer) (fun r t =>
      ∀ attempt, r = .ok attempt →
        CameTo given (·.Shows mutators attempt.observations) t) s := by
  by_cases hn : n = 1
  · simp only [ApiClient.attempt, hn, if_true]
    exact write_shows (hfirst hn) _
  · simp only [ApiClient.attempt, hn, if_false, bind, Program.wp_bind]
    refine Program.wp_mono (fetch_shows given id s) fun r t hread => ?_
    cases r with
    | error e => exact fun attempt hattempt => by cases hattempt
    | ok found =>
      cases found with
      | none => exact fun attempt hattempt => by cases hattempt
      | some p => exact write_shows (hread p rfl) _

theorem patch_shows (answer : (request : ApiRequest) → σ → apiSignature.Answer request × σ)
    (s : σ) (sync : CacheSync) (context : Context) (given : Pod) (mutators : List Mutator)
    (touchesResize awaits : Bool) :
    (ApiClient.patch sync context given mutators touchesResize awaits).wp (logged answer) (fun r t =>
      ∀ written, r = .ok written →
        CameTo given (·.Shows mutators written.observations) t) (s, []) := by
  have hretried : (ApiClient.retried context.retry
      (ApiClient.attempt context.id given mutators touchesResize)).wp (logged answer) (fun r t =>
        ∀ attempt, r = .ok attempt →
          CameTo given (·.Shows mutators attempt.observations) t) (s, []) := by
    -- only the first attempt starts from the given pod
    refine retried_wp (I := fun n t => 1 ≤ n ∧ (n = 1 → CameTo given (·.base = given) t))
      (fun n request t hpause ht =>
        ⟨ht.1, fun hn => (ht.2 hn).quiet request (ApiRequest.isNews_of_isPause hpause)⟩)
      (fun n t ht => ?_) _ _ ⟨Nat.le_refl 1, fun _ => rfl⟩
    exact Program.wp_mono (attempt_shows context.id n ht.2) fun r u hu =>
      ⟨hu, fun _ _ => ⟨by omega, fun hn => absurd hn (by omega)⟩⟩
  simp only [ApiClient.patch, bind, Program.wp_bind]
  refine Program.wp_mono hretried fun r t ht => ?_
  cases r with
  | error e => exact fun written hwritten => by cases hwritten
  | ok attempt =>
    obtain ⟨changed, observations⟩ := attempt
    have hshows := ht _ rfl
    cases changed with
    | none =>
      intro written hwritten
      cases hwritten
      exact hshows
    | some p =>
      simp only [Program.wp_bind]
      refine Program.wp_mono (awaitSync_wp (P := CameTo given (·.Shows mutators observations))
        (fun request _ hpause hu => CameTo.quiet hu request (ApiRequest.isNews_of_isPause hpause))
        (fun id _ hu => CameTo.quiet hu (.cachedVersion id) rfl)
        sync context.id awaits p t hshows) fun _ u hu written hwritten => ?_
      cases hwritten
      exact hu

end Client

namespace Writing
variable {z : Writing} {now : Instant} {base : Pod}

def preparations (z : Writing) : List Mutator :=
  match z.resources with
  | none => []
  | some (name, updates) => [.resources name updates]

theorem mutators_eq (z : Writing) : z.mutators = z.preparations ++ [z.status.mutator] := by
  obtain ⟨status, resources⟩ := z
  cases resources <;> rfl

def prepared? (z : Writing) (now : Instant) (base : Pod) : Option Pod :=
  (Mutator.applyAll z.preparations now base).toOption.map Edit.pod

/-- The applications of the status among those of the mutators. -/
def applications (z : Writing) (all : List (Instant × Pod)) : List (Instant × Pod) :=
  all.filterMap fun a => (z.prepared? a.1 a.2).map (a.1, ·)

theorem preparations_observations {edit : Edit}
    (h : Mutator.applyAll z.preparations now base = .ok edit) : edit.observations = [] := by
  obtain ⟨status, resources⟩ := z
  cases resources with
  | none =>
    cases h
    rfl
  | some command =>
    obtain ⟨set, hset, hdone⟩ := Except.bind_eq_ok.1 h
    cases hdone
    obtain ⟨made, hmade, rfl⟩ := Except.map_eq_ok.1 hset
    obtain ⟨q, -, rfl⟩ := Except.map_eq_ok.1 hmade
    rfl

/-- Mutators that have all been applied let be seen what the status does. -/
theorem observations_eq {edit : Edit} (h : Mutator.applyAll z.mutators now base = .ok edit) :
    ∃ q, z.prepared? now base = some q ∧
      edit.observations = (z.status.apply now q).observations := by
  rw [mutators_eq, Mutator.applyAll, List.foldlM_append] at h
  obtain ⟨prepared, hprepared, hlast⟩ := Except.bind_eq_ok.1 h
  obtain ⟨told, htold, hdone⟩ := Except.bind_eq_ok.1 hlast
  cases hdone
  obtain ⟨made, hmade, rfl⟩ := Except.map_eq_ok.1 htold
  cases hmade
  have hquiet : prepared.observations = [] := preparations_observations hprepared
  refine ⟨prepared.pod, ?_, by simp [hquiet]⟩
  have hok : Mutator.applyAll z.preparations now base = .ok prepared := hprepared
  simp [prepared?, hok, Except.toOption]

/-- What the mutators let be seen last is what the last application of the status does. -/
theorem lastSeen_applications {a : Applied} {observations : List Observation}
    (h : a.Shows z.mutators observations) :
    observations = z.status.lastSeen (z.applications a.applications) := by
  obtain ⟨now, base, edit, hlast, hedit, rfl⟩ := h
  obtain ⟨q, hq, hobserved⟩ := observations_eq hedit
  obtain ⟨earlier, happlications⟩ := List.getLast?_eq_some_iff.1 hlast
  rw [hobserved, StatusUpdate.apply_observed, StatusUpdate.lastSeen, applications, happlications]
  simp [hq]

/-- What a client answers to a write that has succeeded is what the last application of the status lets
be seen, by the turns of its run. -/
theorem patch_lastSeen {σ : Type}
    (answer : (request : ApiRequest) → σ → apiSignature.Answer request × σ) (s t : σ)
    (sync : CacheSync) (z : Writing) (context : Context) (given : Pod) (awaits : Bool)
    {written : Written}
    (h : (ApiClient.patch sync context given z.mutators z.resources.isSome awaits).run answer s =
      (.ok (.ok written), t)) :
    ∃ turns, (ApiClient.patch sync context given z.mutators z.resources.isSome awaits).run
        (logged answer) (s, []) = (.ok (.ok written), t, turns) ∧
      written.observations =
        z.status.lastSeen (z.applications (Applied.along given turns).applications) := by
  have hshows := patch_shows answer s sync context given z.mutators z.resources.isSome awaits
  obtain ⟨r, hr, hwritten⟩ := (Program.wp_iff_run _ _ _ _).1 hshows
  obtain ⟨turns, hturns⟩ := Program.run_logged answer
    (ApiClient.patch sync context given z.mutators z.resources.isSome awaits) s []
  rw [h, List.nil_append] at hturns
  rw [hturns] at hr hwritten
  cases hr
  exact ⟨turns, hturns, lastSeen_applications (hwritten written rfl)⟩

end Writing

section Router
variable {α β : Type}

def recordedIn (turns : List (Turn podSignature)) : List Event :=
  turns.flatMap fun
    | ⟨.record events, _⟩ => events
    | _ => []

def observedIn (turns : List (Turn podSignature)) : List Event :=
  turns.flatMap fun
    | ⟨.patch .., .ok written⟩ => written.observations.map .scale
    | ⟨.resize .., .ok written⟩ => written.observations.map .scale
    | _ => []

/-- Whoever carries out the requests, what is recorded is what the writes that succeed let be seen. -/
def CountsWrites (p : PodProgram α) : Prop :=
  ∀ (σ : Type) (client : (request : PodRequest) → σ → podSignature.Answer request × σ) (s : σ)
    (turns : List (Turn podSignature)), recordedIn turns = observedIn turns →
    let after := (p.run (logged client) (s, turns)).2.2
    recordedIn after = observedIn after

theorem CountsWrites.bind {p : PodProgram α} {f : α → PodProgram β} (hp : CountsWrites p)
    (hf : ∀ a, CountsWrites (f a)) : CountsWrites (p.bind f) := by
  intro σ client s turns hturns
  have hafter := hp σ client s turns hturns
  rw [Program.run_bind]
  cases hrun : p.run (logged client) (s, turns) with
  | mk result state =>
    obtain ⟨t, log⟩ := state
    rw [hrun] at hafter
    cases result with
    | error message => exact hafter
    | ok a => exact hf a σ client t log hafter

theorem CountsWrites.done (a : α) : CountsWrites (.done a) := fun _ _ _ _ hturns => hturns

theorem CountsWrites.fault (message : String) : CountsWrites (.fault message : PodProgram α) :=
  fun _ _ _ _ hturns => hturns

namespace Routing
variable {context : Context} {t : Target}

theorem writeStatus_counts (context : Context) (p : Pod) (u : StatusUpdate) :
    CountsWrites (writeStatus context p u) := by
  intro σ client s turns hturns
  simp only [writeStatus, PodProgram.patch, bind, Program.bind, Program.run_call, logged]
  cases hanswer : (client (.patch { context with retry := .once } p [u.mutator] false true) s).1 with
  | error e => simpa [recordedIn, observedIn] using hturns
  | ok written =>
    simpa [recordWrite, PodProgram.record, recordedIn, observedIn, logged, Program.bind] using hturns

theorem command_counts (context : Context) (t : Target) (direction : Direction)
    (state : ScaleState) : CountsWrites (command context t direction state) := by
  intro σ client s turns hturns
  simp only [command, PodProgram.resize, bind, Program.bind, Program.run_call, logged]
  cases hanswer : (client (.resize context t.pod t.containerName (t.updates direction)
      [(t.statusUpdate (direction.phase ++ " resources commanded") state).mutator] true) s).1 with
  | error e => simpa [recordedIn, observedIn] using hturns
  | ok written =>
    simpa [recordWrite, PodProgram.record, recordedIn, observedIn, logged, Program.bind] using hturns

theorem recordProgress_counts (context : Context) (t : Target) :
    CountsWrites (recordProgress context t) := by
  unfold recordProgress
  cases appliedDirection? t.states.resources with
  | none => exact .fault _
  | some direction =>
    refine (writeStatus_counts context t.pod _).bind fun _ => ?_
    cases (progress t.states direction).failure <;> exact .done _

theorem act_counts (context : Context) (t : Target) (resources : ResourcesState) (started : Bool) :
    CountsWrites (act context t resources started) := by
  cases resources <;> cases started
  case startup.false | postStartup.true => exact recordProgress_counts context t
  all_goals exact command_counts context t _ _

/-- The router counts what the writes that succeed let be seen, and nothing else. -/
theorem route_counts (scaleUnknown : Bool) (context : Context) (t : Target) :
    CountsWrites (route scaleUnknown context t) := by
  simp only [route]
  split
  · exact .fault _
  · split
    · exact (writeStatus_counts context t.pod _).bind fun _ => .done _
    · split
      · exact .done _
      · split
        · exact (writeStatus_counts context t.pod _).bind fun _ => .done _
        · split
          · exact .fault _
          · exact act_counts context t _ _

end Routing
end Router

/-- However often an update is applied again, metrics record what its last application lets be seen, if
that changes its pod, and nothing otherwise. The router records what its writes that succeed let be seen,
and that is what the last application does in the run of the client. -/
theorem update_counts_last_application :
    (∀ (u : StatusUpdate) (applications : List (Instant × Pod)),
      (PendingStatus.applyEach ⟨u, []⟩ applications).commit = (u.lastSeen applications).map .scale ∧
        CountsOnce (PendingStatus.applyEach ⟨u, []⟩ applications).commit) ∧
    (∀ (scaleUnknown : Bool) (context : Context) (t : Target),
      CountsWrites (Routing.route scaleUnknown context t)) ∧
    ∀ (σ : Type) (answer : (request : ApiRequest) → σ → apiSignature.Answer request × σ) (s t : σ)
      (sync : CacheSync) (z : Writing) (context : Context) (given : Pod) (awaits : Bool)
      (written : Written),
      let call := ApiClient.patch sync context given z.mutators z.resources.isSome awaits
      call.run answer s = (.ok (.ok written), t) →
        ∃ turns, call.run (logged answer) (s, []) = (.ok (.ok written), t, turns) ∧
          written.observations.map .scale = (PendingStatus.applyEach ⟨z.status, []⟩
            (z.applications (Applied.along given turns).applications)).commit := by
  refine ⟨fun u applications => ?_, Routing.route_counts, ?_⟩
  · have hcommit := PendingStatus.commit_applyEach u applications
    exact ⟨hcommit, hcommit ▸ u.lastSeen_countsOnce applications⟩
  · intro σ answer s t sync z context given awaits written call hrun
    obtain ⟨turns, hturns, hseen⟩ :=
      Writing.patch_lastSeen answer s t sync z context given awaits hrun
    exact ⟨turns, hturns, by rw [PendingStatus.commit_applyEach, hseen]⟩

def retriedCommand (sync : CacheSync) : ApiProgram (Except ClientError Written) :=
  ApiClient.patch sync ⟨⟨"ns", "pod"⟩, ⟨2, 0⟩⟩ ((plainPod []).withVersion (some (tally 0)))
    processorCommand.mutators processorCommand.resources.isSome true

/-- The command is applied twice and counts once. -/
theorem retriedCommand_counts_once :
    ∃ written t turns,
      (retriedCommand {}).run (logged (Server.handle relabelledWorld))
          (Server.holding relabelledWorld (plainPod []), []) = (.ok (.ok written), t, turns) ∧
        let applications := processorCommand.applications
          (Applied.along ((plainPod []).withVersion (some (tally 0))) turns).applications
        applications.length = 2 ∧
          (PendingStatus.applyEach ⟨processorCommand.status, []⟩ applications).commit =
            [.scale .commandedUnknown] := by
  have htest : (match (retriedCommand {}).run (logged (Server.handle relabelledWorld))
        (Server.holding relabelledWorld (plainPod []), []) with
      | (.ok (.ok written), _, turns) => decide (written.observations = [.commandedUnknown] ∧
          (processorCommand.applications (Applied.along ((plainPod []).withVersion
            (some (tally 0))) turns).applications).length = 2)
      | _ => false) = true := by decide +kernel
  obtain ⟨turns', hlogged⟩ := Program.run_logged (Server.handle relabelledWorld)
    (retriedCommand {}) (Server.holding relabelledWorld (plainPod [])) []
  rcases hrun : (retriedCommand {}).run (Server.handle relabelledWorld)
    (Server.holding relabelledWorld (plainPod [])) with ⟨message | e | written, t⟩
  · rw [hlogged, hrun] at htest
    cases htest
  · rw [hlogged, hrun] at htest
    cases htest
  · obtain ⟨turns, hturns, hcommit⟩ := update_counts_last_application.2.2 Server
      (Server.handle relabelledWorld) (Server.holding relabelledWorld (plainPod [])) t {}
      processorCommand ⟨⟨"ns", "pod"⟩, ⟨2, 0⟩⟩ ((plainPod []).withVersion (some (tally 0))) true
      written hrun
    have hsame : (retriedCommand {}).run (logged (Server.handle relabelledWorld))
        (Server.holding relabelledWorld (plainPod []), []) = (.ok (.ok written), t, turns) := hturns
    rw [hsame] at htest
    obtain ⟨hobserved, htwice⟩ := of_decide_eq_true htest
    refine ⟨written, t, turns, hsame, htwice, ?_⟩
    rw [← hcommit, hobserved]
    rfl

end PodSizing
