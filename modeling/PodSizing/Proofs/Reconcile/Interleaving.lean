import PodSizing.Proofs.Reconcile.Plan
import PodSizing.Reconcile.Session

/-!
# Reconciles side by side

Reconciles are asked for at any time. Those that are admitted take turns, a step each, in any order,
and end by an outcome, by a panic or by being cancelled. The pods in progress are just those of the
reconciles that run: what is turned away has nothing to give back, and what has been admitted gives back
its pod on each way out.
-/
namespace PodSizing
open Reconcile (reconcile)

def PodRequest.isCall : PodRequest → Bool
  | .record _ => false
  | _ => true

/-- A reconcile that has been admitted: what is left of it, and whether it has asked what comes next and
waits for the answer. -/
structure Running where
  id : PodId
  rest : PodProgram Outcome
  isWaiting : Bool := false

structure Pool where
  inProgress : InProgress := {}
  /-- In the order of their admission. -/
  running : List Running := []
  /-- What the client has been asked, in order. -/
  calls : List PodRequest := []
  events : List Event := []

inductive Admission where
  | admitted
  | deferred (outcome : Outcome)
  deriving DecidableEq

inductive Act where
  | request (id : PodId) (admission : Admission)
  | record
  | ask
  | answer
  | finish (outcome : Outcome)
  | panic
  | cancel

def Act.isDeferral : Act → Bool
  | .request _ (.deferred _) => true
  | _ => false

namespace Pool

def request (config : ReconcileConfig) (id : PodId) (s : Pool) : Admission × Pool :=
  match s.inProgress.enter? id with
  | none =>
    (.deferred (.requeue config.requeueMillis),
      { s with events := s.events ++ [.existingInProgress] })
  | some inProgress =>
    (.admitted, { s with inProgress, running := s.running ++ [⟨id, reconcile config id, false⟩] })

def leave (s : Pool) (before : List Running) (r : Running) (after : List Running) : Pool :=
  { s with inProgress := s.inProgress.release r.id, running := before ++ after }

variable {config : ReconcileConfig}

/-- One step of one reconcile, or a request for another. The client may answer anything, and a panic or a
cancellation may come at any point. -/
inductive Step (config : ReconcileConfig) : Pool → Act → Pool → Prop where
  | request (s : Pool) (id : PodId) :
    Step config s (.request id (s.request config id).1) (s.request config id).2
  | record {s : Pool} (before after : List Running) {id : PodId} {events : List Event}
      {next : Unit → PodProgram Outcome}
      (h : s.running = before ++ ⟨id, .call (.record events) next, false⟩ :: after) :
    Step config s .record
      { s with running := before ++ ⟨id, next (), false⟩ :: after, events := s.events ++ events }
  | ask {s : Pool} (before after : List Running) {id : PodId} {request : PodRequest}
      {next : podSignature.Answer request → PodProgram Outcome}
      (h : s.running = before ++ ⟨id, .call request next, false⟩ :: after)
      (hcall : request.isCall = true) :
    Step config s .ask
      { s with
        running := before ++ ⟨id, .call request next, true⟩ :: after
        calls := s.calls ++ [request] }
  | answer {s : Pool} (before after : List Running) {id : PodId} {request : PodRequest}
      {next : podSignature.Answer request → PodProgram Outcome}
      (h : s.running = before ++ ⟨id, .call request next, true⟩ :: after)
      (answer : podSignature.Answer request) :
    Step config s .answer { s with running := before ++ ⟨id, next answer, false⟩ :: after }
  | finish {s : Pool} (before after : List Running) {id : PodId} {outcome : Outcome}
      (h : s.running = before ++ ⟨id, .done outcome, false⟩ :: after) :
    Step config s (.finish outcome) (s.leave before ⟨id, .done outcome, false⟩ after)
  | panic {s : Pool} (before after : List Running) {r : Running}
      (h : s.running = before ++ r :: after) : Step config s .panic (s.leave before r after)
  | cancel {s : Pool} (before after : List Running) {r : Running}
      (h : s.running = before ++ r :: after) : Step config s .cancel (s.leave before r after)

inductive Run (config : ReconcileConfig) (s : Pool) : List Act → Pool → Prop where
  | start : Run config s [] s
  | step {acts : List Act} {act : Act} {t u : Pool} (h : Run config s acts t)
      (hstep : Step config t act u) : Run config s (acts ++ [act]) u

theorem Run.trans {s t u : Pool} {first second : List Act} (h : Run config s first t)
    (h' : Run config t second u) : Run config s (first ++ second) u := by
  induction h' with
  | start => rwa [List.append_nil]
  | step _ hstep ih =>
    rw [← List.append_assoc]
    exact ih.step hstep

end Pool

def PodRequest.IsQuiet : PodRequest → Prop
  | .record events => .existingInProgress ∉ events
  | _ => True

section Quiet
variable {config : ReconcileConfig}
open Routing Reconcile

theorem Routing.recordWrite_quiet (w : Written) : (recordWrite w).Asks PodRequest.IsQuiet :=
  ⟨by simp [PodRequest.IsQuiet], fun _ => trivial⟩

theorem Reconcile.Plan.program_quiet (context : Context) (p : Pod) (plan : Plan) :
    (plan.program context p).Asks PodRequest.IsQuiet := by
  cases plan with
  | rest result => cases result <;> trivial
  | tell u outcome =>
    have hwrite : (writeStatus context p u).Asks PodRequest.IsQuiet := by
      refine ⟨trivial, fun answer => ?_⟩
      cases answer with
      | ok written => exact recordWrite_quiet written
      | error e => trivial
    exact hwrite.bind fun _ => trivial
  | command name configs states direction state =>
    have hcommand : (Routing.command context ⟨p, name, configs, states⟩ direction state).Asks
        PodRequest.IsQuiet := by
      refine ⟨trivial, fun answer => ?_⟩
      cases answer with
      | ok written => exact (recordWrite_quiet written).bind fun _ => trivial
      | error e => trivial
    exact hcommand.bind fun _ => trivial

theorem Reconcile.countTerminal_asks {allowed : PodRequest → Prop}
    (h : ∀ failure, allowed (.record [.reconcileFailed failure])) (outcome : Outcome) :
    (countTerminal outcome).Asks allowed := by
  cases outcome with
  | done => trivial
  | requeue afterMillis => trivial
  | terminal e => exact ⟨h e.failure, fun _ => trivial⟩

theorem Reconcile.reconcile_quiet (id : PodId) : (reconcile config id).Asks PodRequest.IsQuiet := by
  refine ⟨trivial, fun answer => ?_⟩
  have hafter : (afterGet config ⟨id, config.retry⟩ answer).Asks PodRequest.IsQuiet := by
    cases answer with
    | error e => exact ⟨by simp [PodRequest.IsQuiet], fun _ => trivial⟩
    | ok found =>
      cases found with
      | none => trivial
      | some p =>
        rw [afterGet, reconcilePod_eq]
        exact Plan.program_quiet _ p _
  exact hafter.bind (countTerminal_asks fun _ => by simp [PodRequest.IsQuiet])

end Quiet

namespace InProgress
variable {s : InProgress} {id : PodId}

theorem contains_iff : s.contains id = true ↔ id ∈ s.ids := decide_eq_true_iff

theorem enter?_mem (h : id ∈ s.ids) : s.enter? id = none := dif_pos h

theorem enter?_notMem (h : id ∉ s.ids) :
    s.enter? id = some ⟨id :: s.ids, List.nodup_cons.2 ⟨h, s.nodup⟩⟩ := dif_neg h

end InProgress

namespace Pool
variable {config : ReconcileConfig} {s t : Pool}

/-- The pods in progress are those of the reconciles that run, and none of these counts a deferral. -/
structure Tidy (s : Pool) : Prop where
  held : s.inProgress.ids.Perm (s.running.map (·.id))
  quiet : ∀ r ∈ s.running, r.rest.Asks PodRequest.IsQuiet

theorem request_deferred {id : PodId} (h : id ∈ s.inProgress.ids) :
    s.request config id = (.deferred (.requeue config.requeueMillis),
      { s with events := s.events ++ [.existingInProgress] }) := by
  rw [request, InProgress.enter?_mem h]

theorem request_admitted {id : PodId} (h : id ∉ s.inProgress.ids) :
    s.request config id = (.admitted,
      { s with
        inProgress := ⟨id :: s.inProgress.ids, List.nodup_cons.2 ⟨h, s.inProgress.nodup⟩⟩
        running := s.running ++ [⟨id, reconcile config id, false⟩] }) := by
  rw [request, InProgress.enter?_notMem h]

theorem Step.enter (id : PodId) (h : id ∉ s.inProgress.ids) :
    Step config s (.request id .admitted)
      { s with
        inProgress := ⟨id :: s.inProgress.ids, List.nodup_cons.2 ⟨h, s.inProgress.nodup⟩⟩
        running := s.running ++ [⟨id, reconcile config id, false⟩] } := by
  have hstep : Step config s _ _ := Step.request s id
  rwa [request_admitted h] at hstep

theorem Step.defer (id : PodId) (h : id ∈ s.inProgress.ids) :
    Step config s (.request id (.deferred (.requeue config.requeueMillis)))
      { s with events := s.events ++ [.existingInProgress] } := by
  have hstep : Step config s _ _ := Step.request s id
  rwa [request_deferred h] at hstep

theorem Tidy.request (h : s.Tidy) (id : PodId) : (s.request config id).2.Tidy := by
  by_cases hmem : id ∈ s.inProgress.ids
  · rw [request_deferred hmem]
    exact ⟨h.held, h.quiet⟩
  · rw [request_admitted hmem]
    refine ⟨?_, fun r hr => ?_⟩
    · rw [List.map_append]
      exact (h.held.cons id).trans (List.perm_append_singleton id _).symm
    · rcases List.mem_append.1 hr with hr | hr
      · exact h.quiet r hr
      · rw [List.mem_singleton.1 hr]
        exact Reconcile.reconcile_quiet id

section Middle
variable {before after : List Running} {r : Running}

theorem Tidy.quiet_middle (h : s.Tidy) (hrunning : s.running = before ++ r :: after) :
    r.rest.Asks PodRequest.IsQuiet := by
  refine h.quiet r ?_
  rw [hrunning]
  exact List.mem_append_cons_self

theorem Tidy.turn (h : s.Tidy) (hrunning : s.running = before ++ r :: after) {r' : Running}
    (ht : t.running = before ++ r' :: after) (hheld : t.inProgress = s.inProgress)
    (hid : r'.id = r.id) (hquiet : r'.rest.Asks PodRequest.IsQuiet) : t.Tidy := by
  refine ⟨?_, fun q hq => ?_⟩
  · have hids : t.running.map (·.id) = s.running.map (·.id) := by
      simp [ht, hrunning, hid]
    rw [hids, hheld]
    exact h.held
  · rw [ht] at hq
    rcases List.mem_append.1 hq with hq | hq
    · exact h.quiet q (by simp [hrunning, hq])
    · rcases List.mem_cons.1 hq with rfl | hq
      · exact hquiet
      · exact h.quiet q (by simp [hrunning, hq])

/-- A reconcile that leaves takes its own pod along and no other. -/
theorem Tidy.leave (h : s.Tidy) (hrunning : s.running = before ++ r :: after) :
    (s.leave before r after).Tidy := by
  refine ⟨?_, fun q hq => h.quiet q ?_⟩
  · have hids : s.inProgress.ids.Perm (r.id :: (before ++ after).map (·.id)) := by
      refine h.held.trans ?_
      rw [hrunning]
      exact (List.perm_middle.map _)
    have herased := hids.erase r.id
    rwa [List.erase_cons_head] at herased
  · rw [hrunning]
    have hsub : (before ++ after).Sublist (before ++ r :: after) :=
      (List.Sublist.refl before).append (List.sublist_cons_self r after)
    exact hsub.subset hq

end Middle

/-- What one step does to the pods in progress and to the count of deferrals. -/
theorem Tidy.step (h : s.Tidy) {act : Act} (hstep : Step config s act t) :
    t.Tidy ∧ t.events.count .existingInProgress =
      s.events.count .existingInProgress + if act.isDeferral then 1 else 0 := by
  cases hstep with
  | request id =>
    refine ⟨h.request id, ?_⟩
    by_cases hmem : id ∈ s.inProgress.ids
    · simp [request_deferred hmem, Act.isDeferral]
    · simp [request_admitted hmem, Act.isDeferral]
  | record before after hrunning =>
    have hquiet := h.quiet_middle hrunning
    refine ⟨h.turn hrunning rfl rfl rfl (hquiet.2 ()), ?_⟩
    simp [List.count_eq_zero.2 hquiet.1, Act.isDeferral]
  | ask before after hrunning hcall =>
    have hquiet := h.quiet_middle hrunning
    exact ⟨h.turn hrunning rfl rfl rfl hquiet, rfl⟩
  | answer before after hrunning answer =>
    have hquiet := h.quiet_middle hrunning
    exact ⟨h.turn hrunning rfl rfl rfl (hquiet.2 answer), rfl⟩
  | finish before after hrunning => exact ⟨h.leave hrunning, rfl⟩
  | panic before after hrunning => exact ⟨h.leave hrunning, rfl⟩
  | cancel before after hrunning => exact ⟨h.leave hrunning, rfl⟩

theorem Tidy.run (h : s.Tidy) {acts : List Act} (hrun : Run config s acts t) :
    t.Tidy ∧ t.events.count .existingInProgress =
      s.events.count .existingInProgress + acts.countP Act.isDeferral := by
  induction hrun with
  | start => exact ⟨h, rfl⟩
  | step _ hstep ih =>
    obtain ⟨htidy, hcount⟩ := ih
    obtain ⟨htidy', hcount'⟩ := htidy.step hstep
    refine ⟨htidy', ?_⟩
    rw [hcount', hcount, List.countP_append, List.countP_singleton]
    omega

theorem empty_tidy : ({} : Pool).Tidy := ⟨.nil, by simp⟩

end Pool
end PodSizing
