import PodSizing.Proofs.Api.Confined
import PodSizing.Proofs.Reconcile.Command

/-!
# What a reconcile may write

A reconcile makes at most one write, and sets resources by it only for a container that may be managed,
runs, is known to have started or not, and does not have what is due for that. The write is confined to
what it is for.
-/
namespace PodSizing

def PodRequest.isWrite : PodRequest → Bool
  | .patch .. | .resize .. => true
  | .get _ | .record _ => false

namespace Reconcile
open Routing

def Plan.writing? : Plan → Option Writing
  | .rest _ => none
  | .tell u _ => some ⟨u, none⟩
  | .command name configs states direction state =>
    some ⟨commandStatus configs states direction state, some (name, configs.updates direction)⟩

def writeContext (context : Context) (z : Writing) : Context :=
  if z.resources.isSome then context else { context with retry := .once }

def writeProgram (context : Context) (p : Pod) (z : Writing) :
    PodProgram (Except ClientError Written) :=
  match z.resources with
  | none => .patch (writeContext context z) p [z.status.mutator] false true
  | some (name, updates) =>
    .resize (writeContext context z) p name updates [z.status.mutator] true

/-- What follows the answer: a write that has succeeded is counted, and a command has the outcome of
its write. -/
def Plan.afterWrite : Plan → Except ClientError Written → PodProgram Outcome
  | .rest (.ok outcome), _ => .done outcome
  | .rest (.error message), _ => .fault message
  | .tell _ outcome, .ok written => (recordWrite written).bind fun _ => .done outcome
  | .tell _ outcome, .error _ => .done outcome
  | .command .., .ok written => (recordWrite written).bind fun _ => .done .done
  | .command .., .error e => .done (.terminal (.statesAction (.command e)))

/-- A plan with something to write writes it, and then only counts. -/
theorem Plan.program_eq_write (context : Context) (p : Pod) {plan : Plan} {z : Writing}
    (h : plan.writing? = some z) :
    plan.program context p = (writeProgram context p z).bind plan.afterWrite := by
  cases plan with
  | rest result => cases h
  | tell u outcome =>
    cases h
    refine (Program.bind_assoc _ _ _).trans (congrArg (Program.bind _) ?_)
    funext answer
    cases answer <;> rfl
  | command name configs states direction state =>
    cases h
    have hupdates := Target.updates_eq ⟨p, name, configs, states⟩ direction
    refine (Program.bind_assoc _ _ _).trans ?_
    rw [hupdates]
    refine congrArg (Program.bind _) ?_
    funext answer
    cases answer <;> rfl

section Requests
variable {σ : Type} (handle : (request : PodRequest) → σ → podSignature.Answer request × σ)

/-- The write requests of a run. -/
def writesOf {α : Type} (program : PodProgram α) (s : σ) : List PodRequest :=
  (program.requests handle s).filter PodRequest.isWrite

theorem writesOf_bind_of_quiet {α β : Type} {f : α → PodProgram β}
    (hf : ∀ a s, writesOf handle (f a) s = []) (program : PodProgram α) (s : σ) :
    writesOf handle (program.bind f) s = writesOf handle program s := by
  simp only [writesOf, Program.requests_bind, List.filter_append]
  cases program.run handle s with
  | mk result t =>
    cases result with
    | error message => simp
    | ok a => simpa [writesOf] using hf a t

theorem writesOf_afterWrite (plan : Plan) (answer : Except ClientError Written) (s : σ) :
    writesOf handle (plan.afterWrite answer) s = [] := by
  cases plan with
  | rest result => cases result <;> rfl
  | tell u outcome => cases answer <;> rfl
  | command name configs states direction state => cases answer <;> rfl

theorem writesOf_countTerminal (outcome : Outcome) (s : σ) :
    writesOf handle (countTerminal outcome) s = [] := by
  cases outcome <;> rfl

theorem writesOf_plan (context : Context) (p : Pod) (plan : Plan) (s : σ) :
    writesOf handle (plan.program context p) s =
      (plan.writing?.map fun z => z.request (writeContext context z) p true).toList := by
  cases hwriting : plan.writing? with
  | none =>
    cases plan with
    | rest result => cases result <;> rfl
    | tell u outcome => cases hwriting
    | command name configs states direction state => cases hwriting
  | some z =>
    rw [plan.program_eq_write context p hwriting,
      writesOf_bind_of_quiet handle (writesOf_afterWrite handle plan)]
    obtain ⟨status, resources⟩ := z
    cases resources <;> rfl

/-- A reconcile writes what is planned for the pod that it has read, and nothing without one. -/
theorem writesOf_reconcile (config : ReconcileConfig) (id : PodId) (s : σ) :
    writesOf handle (reconcile config id) s =
      match (handle (.get ⟨id, config.retry⟩) s).1 with
      | .ok (some p) => ((plan config p).writing?.map fun z =>
          z.request (writeContext ⟨id, config.retry⟩ z) p true).toList
      | _ => [] := by
  have hread : writesOf handle (reconcile config id) s =
      writesOf handle ((afterGet config ⟨id, config.retry⟩
        (handle (.get ⟨id, config.retry⟩) s).1).bind countTerminal)
          (handle (.get ⟨id, config.retry⟩) s).2 := rfl
  rw [hread, writesOf_bind_of_quiet handle (writesOf_countTerminal handle)]
  cases (handle (.get ⟨id, config.retry⟩) s).1 with
  | error e => rfl
  | ok found =>
    cases found with
    | none => rfl
    | some p =>
      rw [afterGet, reconcilePod_eq]
      exact writesOf_plan handle _ p _ _

end Requests

/-- The container has started: by its startup probe if it has one, and otherwise if it is ready. -/
def HasStarted (states : States) : Prop :=
  states.started = .true ∧ (states.startupProbe = .true ∨ states.ready = .true)

theorem isStarted?_eq_some {states : States} {started : Bool}
    (h : isStarted? states = some started) : started = true ↔ HasStarted states := by
  unfold isStarted? at h
  unfold HasStarted
  split at h
  · next hstartup =>
    cases h
    simp [hstartup]
  · next hnone =>
    have hstartup : states.startupProbe ≠ .true := hnone
    cases h
    simp [hstartup]
  · cases h

/-- The container may be managed, it runs, and it is known whether it has started. -/
structure Ready (config : ReconcileConfig) (p : Pod) (name : String) (configs : ScaleConfigs)
    (states : States) : Prop where
  configured : ScaleConfigs.ofPod p config.enabled = .ok configs
  target : configs.targetName = .ok name
  eligible : p.validate name configs = .ok ()
  classified : p.classify name configs config.awaitedMessage = .ok states
  running : states.container = .running
  started : states.started ≠ .unknown
  ready : states.ready ≠ .unknown

/-- The quantities are not those that the container has, but those that are due for it. Where it has
neither the ones nor the others, they are due only if that is allowed. -/
inductive Due (scaleUnknown : Bool) (configs : ScaleConfigs) (states : States) :
    List ResourceUpdate → Prop where
  | down : states.resources = .startup → HasStarted states →
    Due scaleUnknown configs states configs.postStartupUpdates
  | up : states.resources = .postStartup → ¬ HasStarted states →
    Due scaleUnknown configs states configs.startupUpdates
  | unknownDown : states.resources = .unknown → scaleUnknown = true → HasStarted states →
    Due scaleUnknown configs states configs.postStartupUpdates
  | unknownUp : states.resources = .unknown → scaleUnknown = true → ¬ HasStarted states →
    Due scaleUnknown configs states configs.startupUpdates

theorem actPlan_due {configs c : ScaleConfigs} {states s : States} {scaleUnknown started : Bool}
    {name n : String} {direction : Direction} {state : ScaleState}
    (h : actPlan configs states name states.resources started = .command n c s direction state)
    (hstarted : started = true ↔ HasStarted states)
    (hallowed : states.resources = .unknown → scaleUnknown = true) :
    Due scaleUnknown configs states (configs.updates direction) := by
  obtain ⟨-, -, -, rfl⟩ := actPlan_command h
  cases direction with
  | up =>
    have hnot : ¬ HasStarted states := fun hdone => by simpa using hstarted.2 hdone
    cases hresources : states.resources with
    | startup => exact absurd (by simpa [hresources, actPlan] using h) progressPlan_not_command
    | postStartup => exact .up hresources hnot
    | unknown => exact .unknownUp hresources (hallowed hresources) hnot
  | down =>
    have hdone : HasStarted states := hstarted.1 (by simp)
    cases hresources : states.resources with
    | startup => exact .down hresources hdone
    | postStartup => exact absurd (by simpa [hresources, actPlan] using h) progressPlan_not_command
    | unknown => exact .unknownDown hresources (hallowed hresources) hdone

/-- What lies behind the resources that a plan is to set. -/
theorem plan_resources {config : ReconcileConfig} {p : Pod} {z : Writing} {name : String}
    {updates : List ResourceUpdate} (h : (plan config p).writing? = some z)
    (hresources : z.resources = some (name, updates)) :
    ∃ configs states, Ready config p name configs states ∧
      Due config.scaleUnknown configs states updates := by
  cases hplan : plan config p with
  | rest result => simp [hplan, Plan.writing?] at h
  | tell u outcome =>
    rw [hplan] at h
    cases h
    cases hresources
  | command n configs states direction state =>
    rw [hplan] at h
    cases h
    cases hresources
    obtain ⟨hexamine, hclassify, hroute⟩ := plan_command hplan
    obtain ⟨hconfigured, htarget, heligible⟩ := examine_eq_ok.1 hexamine
    obtain ⟨-, -, hrunning, hstarted, hready, hallowed, started, hphase, hact⟩ :=
      routePlan_act hroute
    exact ⟨configs, states,
      ⟨hconfigured, htarget, heligible, hclassify, hrunning, hstarted, hready⟩,
      actPlan_due hact (isStarted?_eq_some hphase) hallowed⟩

theorem proper_of_due {config : ReconcileConfig} {p : Pod} {z : Writing}
    (h : (plan config p).writing? = some z) : z.Proper := by
  intro name updates hresources
  obtain ⟨configs, states, hready, hdue⟩ := plan_resources h hresources
  have hconfigured (direction : Direction) :
      p.configured? config.enabled direction = some (name, configs.updates direction) := by
    simp [Pod.configured?, hready.configured, hready.target, Except.toOption]
  have hdirection : ∃ direction, updates = configs.updates direction := by
    cases hdue with
    | down => exact ⟨.down, rfl⟩
    | up => exact ⟨.up, rfl⟩
    | unknownDown => exact ⟨.down, rfl⟩
    | unknownUp => exact ⟨.up, rfl⟩
  obtain ⟨direction, rfl⟩ := hdirection
  exact ⟨Pod.configured?_ne_nil (hconfigured direction),
    Pod.configured?_pairwise (hconfigured direction)⟩

def setsIn (name : String) : PodRequest → Bool
  | .resize _ _ container _ _ _ => container = name
  | .get _ | .patch .. | .record _ => false

def wasRead : Exchange → Bool
  | .got .. => true
  | .told _ | .patched .. => false

def readOnly (p : Pod) : (request : PodRequest) → Unit → podSignature.Answer request × Unit
  | .get _, _ => (.ok (some p), ())
  | .patch .., _ | .resize .., _ => (.error (.notFound p.id), ())
  | .record _, _ => ((), ())

def startedWrites : List PodRequest :=
  writesOf (readOnly startedTarget.pod) (reconcile { enabled := [.cpu] } ⟨"ns", "pod"⟩) ()

def noWait : CacheSync := ⟨0, 1, Nat.one_pos⟩

def startedLog (request : PodRequest) : List Exchange :=
  let w : World := .putBefore 9 {}
  ((Server.holding w (startedPod "3m" "1m")).serve w noWait request).log

/-- Whatever is answered, a reconcile makes at most one write, for the pod that it has read. It sets
resources only where they are due for a container that is ready for them, and a patch that is carried
out for the write, on the pod that was first read, is confined to what is written. -/
theorem reconcile_writes_guarded {σ : Type}
    (handle : (request : PodRequest) → σ → podSignature.Answer request × σ)
    (config : ReconcileConfig) (id : PodId) (s : σ) :
    (writesOf handle (reconcile config id) s).length ≤ 1 ∧
    ∀ request ∈ writesOf handle (reconcile config id) s, ∃ p context z,
      (handle (.get ⟨id, config.retry⟩) s).1 = .ok (some p) ∧
      request = Writing.request z context p true ∧
      (∀ name updates, z.resources = some (name, updates) →
        ∃ configs states, Ready config p name configs states ∧
          Due config.scaleUnknown configs states updates) ∧
      ∀ w server sync, Server.Sound w server → p ∈ server.history → server.log = [] →
        ∀ newer older podId patch before after,
          (server.serve w sync request).log =
            newer ++ .patched podId patch before after :: older →
          OnFirstRead older → Confined z.resources p after := by
  rw [writesOf_reconcile]
  split
  · next p hread =>
    cases hwriting : (plan config p).writing? with
    | none => simp
    | some z =>
      refine ⟨by simp, fun request hrequest => ?_⟩
      have hsame : request = z.request (writeContext ⟨id, config.retry⟩ z) p true := by
        simpa using hrequest
      refine ⟨p, _, z, hread, hsame, fun _ _ => plan_resources hwriting, ?_⟩
      rintro w server sync hs hp hlog newer older podId patch before after hsplit hfirst
      rw [hsame] at hsplit
      have hgoing := z.serve_going hs hp hlog sync (writeContext ⟨id, config.retry⟩ z) true
      have hconfined := hgoing.confined (proper_of_due hwriting) hsplit
      rwa [hfirst.lastRead_eq] at hconfined
  · simp

/-- A pod that has started is commanded down, and no more than that is written. -/
theorem startedPod_write_guarded :
    ∃ request updates configs states podId patch before after, startedWrites = [request] ∧
      Ready { enabled := [.cpu] } startedTarget.pod "app" configs states ∧
      Due false configs states updates ∧
      .patched podId patch before after ∈ startedLog request ∧
      Confined (some ("app", updates)) startedTarget.pod after := by
  have hs : (Server.holding (.putBefore 9 {}) (startedPod "3m" "1m")).Sound (.putBefore 9 {}) :=
    Server.store_sound (Server.empty_sound _) (by decide +kernel)
  have hwrites : ∀ request ∈ startedWrites, _ := (reconcile_writes_guarded
    (readOnly startedTarget.pod) { enabled := [.cpu] } ⟨"ns", "pod"⟩ ()).2
  have hmade : startedWrites.length = 1 ∧ startedWrites.all (fun r => setsIn "app" r &&
      (startedLog r).any (Exchange.isPatchOf fun _ _ => true) &&
        !(startedLog r).any wasRead) = true := by decide +kernel
  obtain ⟨request, hrequest⟩ := List.length_eq_one_iff.1 hmade.1
  obtain ⟨p, context, z, hread, hsame, hdue, hconfined⟩ :=
    hwrites request (hrequest ▸ List.mem_singleton_self request)
  cases hread
  have htests := hmade.2
  rw [hrequest] at htests
  simp only [List.all_cons, List.all_nil, Bool.and_true, Bool.and_eq_true] at htests
  obtain ⟨⟨hresize, hpatched⟩, hunread⟩ := htests
  obtain ⟨podId, patch, before, after, hmem, -⟩ := exists_patch _ _ hpatched
  obtain ⟨newer, older, hsplit⟩ := List.append_of_mem hmem
  obtain ⟨updates, hresources⟩ : ∃ updates, z.resources = some ("app", updates) := by
    rw [hsame, Writing.request] at hresize
    split at hresize
    · cases hresize
    · next name updates hsome =>
      have hname : name = "app" := by simpa [setsIn] using hresize
      exact ⟨updates, hname ▸ hsome⟩
  obtain ⟨configs, states, hready, hwanted⟩ := hdue _ _ hresources
  have hnone : ∀ e ∈ startedLog request, wasRead e = false := by simpa using hunread
  have holder : OnFirstRead older := fun i q hgot => by
    have hread := hnone (.got i q) (by rw [hsplit]; simp [hgot])
    cases hread
  have hpod := hconfined _ _ noWait hs List.mem_cons_self rfl _ _ _ _ _ _ hsplit holder
  rw [hresources] at hpod
  exact ⟨request, updates, configs, states, podId, patch, before, after, hrequest, hready, hwanted,
    hmem, hpod⟩

end Reconcile
end PodSizing
