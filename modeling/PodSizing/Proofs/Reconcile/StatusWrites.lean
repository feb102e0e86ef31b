import PodSizing.Proofs.Reconcile.Guard
import PodSizing.Proofs.Reconcile.Interleaving
import PodSizing.Proofs.Reconcile.Total

/-!
# Status writes change no outcome

A reconcile that has nothing to command may still write a status. Whether that succeeds decides what is
observed of scales and nothing else: the outcome, the calls and the failures that are counted are the
same under any answers to such writes. A status is tried once wherever one is due.
-/
namespace PodSizing

def Event.isScale : Event → Bool
  | .scale _ => true
  | _ => false

namespace PodRequest

def isStatusWrite : PodRequest → Bool
  | .patch .. => true
  | .get _ | .resize .. | .record _ => false

def counted : PodRequest → List Event
  | .record events => events
  | .get _ | .patch .. | .resize .. => []

end PodRequest

namespace Reconcile
open Routing

/-- What a run comes to, but for what it lets be observed of scales. -/
structure Course where
  result : Except String Outcome
  /-- What the client is asked, in order. -/
  calls : List PodRequest
  /-- What is counted of reconciles, in order. -/
  counts : List Event

section Course
variable {σ : Type} (handle : (request : PodRequest) → σ → podSignature.Answer request × σ)

def course (program : PodProgram Outcome) (s : σ) : Course where
  result := (program.run handle s).1
  calls := (program.requests handle s).filter PodRequest.isCall
  counts := ((program.requests handle s).flatMap PodRequest.counted).filter (!·.isScale)

theorem course_call {request : PodRequest} (hcall : request.isCall = true)
    (next : podSignature.Answer request → PodProgram Outcome) (s : σ) :
    course handle (.call request next) s =
      let rest := course handle (next (handle request s).1) (handle request s).2
      { rest with calls := request :: rest.calls } := by
  cases request with
  | record events => cases hcall
  | get context => rfl
  | patch context base mutators touchesResize awaitsSync => rfl
  | resize context base container updates mutators awaitsSync => rfl

theorem course_countTerminal (outcome : Outcome) (s : σ) :
    course handle (countTerminal outcome) s = ⟨.ok outcome, [], outcomeEvents outcome⟩ := by
  cases outcome <;> rfl

theorem course_recordWrite (w : Written) (next : PodProgram Outcome) (s : σ) :
    ∃ t, course handle ((recordWrite w).bind fun _ => next) s = course handle next t := by
  have hscale : (w.observations.map Event.scale).filter (!·.isScale) = [] := by
    simp [List.filter_eq_nil_iff, Event.isScale]
  refine ⟨(handle (.record (w.observations.map .scale)) s).2, ?_⟩
  simp [course, recordWrite, PodProgram.record, Program.bind, Program.requests, PodRequest.isCall,
    PodRequest.counted, hscale]

end Course

/-- A status is due for a container that does not run, and for one that is known to have started or not if
it has resources that nobody configured and may not be given others, or if it has those that are due. -/
def StatusDue (scaleUnknown : Bool) (states : States) : Prop :=
  states.container ≠ .running ∨
    (states.started ≠ .unknown ∧ states.ready ≠ .unknown ∧
      ((states.resources = .unknown ∧ scaleUnknown = false) ∨
        (states.resources = .startup ∧ ¬ HasStarted states) ∨
          (states.resources = .postStartup ∧ HasStarted states)))

/-- A status is due for a pod that may not be managed, and for one whose container calls for it. -/
inductive NeedsStatus (config : ReconcileConfig) (p : Pod) : Prop where
  | refused {e : ReconcileError} (examined : examine config p = .error e)
  | due {name : String} {configs : ScaleConfigs} {states : States}
    (examined : examine config p = .ok (configs, name))
    (classified : p.classify name configs config.awaitedMessage = .ok states)
    (due : StatusDue config.scaleUnknown states)

section Needs
variable {config : ReconcileConfig} {p : Pod}

theorem actPlan_tell {configs : ScaleConfigs} {states : States} {name : String} {started : Bool} :
    (∃ u outcome, actPlan configs states name states.resources started = .tell u outcome) ↔
      (states.resources = .startup ∧ started = false) ∨
        (states.resources = .postStartup ∧ started = true) := by
  cases hresources : states.resources with
  | unknown => cases started <;> simp [actPlan]
  | startup =>
    cases started with
    | false => exact iff_of_true (progressPlan_tell (by simp [hresources])) (.inl ⟨rfl, rfl⟩)
    | true => simp [actPlan]
  | postStartup =>
    cases started with
    | false => simp [actPlan]
    | true => exact iff_of_true (progressPlan_tell (by simp [hresources])) (.inr ⟨rfl, rfl⟩)

theorem routePlan_tell {configs : ScaleConfigs} {states : States} {scaleUnknown started : Bool}
    {name : String} (hstartup : states.startupProbe ≠ .unknown)
    (hreadiness : states.readinessProbe ≠ .unknown) (hphase : isStarted? states = some started) :
    (∃ u outcome, routePlan configs states scaleUnknown name = .tell u outcome) ↔
      StatusDue scaleUnknown states := by
  have hstarted := isStarted?_eq_some hphase
  by_cases hrunning : states.container = .running
  · by_cases hknown : states.started = .unknown ∨ states.ready = .unknown
    · have hrest : routePlan configs states scaleUnknown name = .rest (.ok .done) := by
        simp [routePlan, hstartup, hreadiness, hrunning, hknown]
      refine iff_of_false (by simp [hrest]) ?_
      rintro (hstopped | ⟨hs, hr, -⟩)
      · exact hstopped hrunning
      · exact hknown.elim hs hr
    · obtain ⟨hs, hr⟩ := not_or.1 hknown
      by_cases hdisallowed : states.resources = .unknown ∧ scaleUnknown = false
      · refine iff_of_true ?_ (.inr ⟨hs, hr, .inl hdisallowed⟩)
        simp [routePlan, hstartup, hreadiness, hrunning, hs, hr, hdisallowed]
      · have hguard : (states.resources = .unknown && !scaleUnknown) = false := by
          simpa using hdisallowed
        have hact : routePlan configs states scaleUnknown name =
            actPlan configs states name states.resources started := by
          simp only [routePlan, hguard]
          simp [hstartup, hreadiness, hrunning, hs, hr, hphase]
        simp [hact, actPlan_tell, StatusDue, hrunning, hs, hr, hdisallowed, ← hstarted]
  · refine iff_of_true ?_ (.inl hrunning)
    simp [routePlan, hstartup, hreadiness, hrunning]

/-- A plan tells a status just for a pod that needs one. -/
theorem plan_tell_iff : (∃ u outcome, plan config p = .tell u outcome) ↔ NeedsStatus config p := by
  cases hexamine : examine config p with
  | error e =>
    have hplan : plan config p = .tell (refusal config e) (.terminal e) := by
      simp only [plan, hexamine]
    exact iff_of_true ⟨_, _, hplan⟩ (.refused hexamine)
  | ok found =>
    obtain ⟨configs, name⟩ := found
    -- the pod is examined and classified in one way only
    have hneeds : NeedsStatus config p ↔ ∃ states,
        p.classify name configs config.awaitedMessage = .ok states ∧
          StatusDue config.scaleUnknown states := by
      constructor
      · rintro (hrefused | ⟨hfound, hclassify, hdue⟩)
        · cases hexamine.symm.trans hrefused
        · cases hexamine.symm.trans hfound
          exact ⟨_, hclassify, hdue⟩
      · rintro ⟨states, hclassify, hdue⟩
        exact .due hexamine hclassify hdue
    rw [hneeds]
    cases hclassify : p.classify name configs config.awaitedMessage with
    | error e => simp [plan, hexamine, hclassify]
    | ok states =>
      obtain ⟨hstartup, hreadiness⟩ := classify_probes hclassify
      obtain ⟨started, hphase⟩ := classify_isStarted? (examine_eq_ok.1 hexamine).2.2 hclassify
      have hplan : plan config p = routePlan configs states config.scaleUnknown name := by
        simp only [plan, hexamine, hclassify]
      rw [hplan, routePlan_tell hstartup hreadiness hphase]
      simp

end Needs

def Plan.outcomeAfter : Plan → Except ClientError Written → Outcome
  | .rest (.ok outcome), _ | .tell _ outcome, _ => outcome
  | .rest (.error _), _ | .command .., .ok _ => .done
  | .command .., .error e => .terminal (.statesAction (.command e))

/-- The request that writes a status for itself: it is tried once. -/
def statusWrite (context : Context) (p : Pod) (u : StatusUpdate) : PodRequest :=
  .patch { context with retry := .once } p [u.mutator] false true

def commandWrite (context : Context) (p : Pod) (name : String) (configs : ScaleConfigs)
    (states : States) (direction : Direction) (state : ScaleState) : PodRequest :=
  .resize context p name (configs.updates direction)
    [(commandStatus configs states direction state).mutator] true

section Plan
variable {σ : Type} (handle : (request : PodRequest) → σ → podSignature.Answer request × σ)

theorem course_afterWrite {plan : Plan} {z : Writing} (hwriting : plan.writing? = some z)
    (answer : Except ClientError Written) (s : σ) :
    course handle ((plan.afterWrite answer).bind countTerminal) s =
      ⟨.ok (plan.outcomeAfter answer), [], outcomeEvents (plan.outcomeAfter answer)⟩ := by
  have hrecorded (w : Written) (outcome : Outcome) :
      course handle ((recordWrite w).bind fun _ => countTerminal outcome) s =
        ⟨.ok outcome, [], outcomeEvents outcome⟩ := by
    obtain ⟨t, ht⟩ := course_recordWrite handle w (countTerminal outcome) s
    exact ht.trans (course_countTerminal handle outcome t)
  cases plan with
  | rest result => cases hwriting
  | tell u outcome =>
    cases answer with
    | ok w => exact hrecorded w outcome
    | error e => exact course_countTerminal handle outcome s
  | command name configs states direction state =>
    cases answer with
    | ok w => exact hrecorded w .done
    | error e => exact course_countTerminal handle _ s

/-- Where a status is told, the course is the same whatever becomes of it. -/
theorem course_tell (context : Context) (p : Pod) (u : StatusUpdate) (outcome : Outcome) (s : σ) :
    course handle (((Plan.tell u outcome).program context p).bind countTerminal) s =
      ⟨.ok outcome, [statusWrite context p u], outcomeEvents outcome⟩ := by
  have hwriting : (Plan.tell u outcome).writing? = some _ := rfl
  rw [Plan.program_eq_write context p hwriting, Program.bind_assoc]
  refine (course_call handle rfl _ s).trans ?_
  simp only [Program.bind, course_afterWrite handle hwriting]
  rfl

theorem course_command (context : Context) (p : Pod) (name : String) (configs : ScaleConfigs)
    (states : States) (direction : Direction) (state : ScaleState) (s : σ) :
    course handle (((Plan.command name configs states direction state).program context p).bind
        countTerminal) s =
      let answer := (handle (commandWrite context p name configs states direction state) s).1
      let outcome := (Plan.command name configs states direction state).outcomeAfter answer
      ⟨.ok outcome, [commandWrite context p name configs states direction state],
        outcomeEvents outcome⟩ := by
  have hwriting : (Plan.command name configs states direction state).writing? = some _ := rfl
  rw [Plan.program_eq_write context p hwriting, Program.bind_assoc]
  refine (course_call handle rfl _ s).trans ?_
  simp only [Program.bind, course_afterWrite handle hwriting]
  rfl

theorem course_plan_quiet (context : Context) (p : Pod) {plan : Plan}
    (h : ∀ u outcome, plan ≠ .tell u outcome) (s : σ) :
    ∀ request ∈ (course handle ((plan.program context p).bind countTerminal) s).calls,
      request.isStatusWrite = false := by
  cases plan with
  | tell u outcome => exact absurd rfl (h u outcome)
  | rest result =>
    cases result with
    | error message => simp [course, Plan.program, Program.bind, Program.requests]
    | ok outcome =>
      have hcourse : course handle ((Plan.program context p (.rest (.ok outcome))).bind countTerminal)
          s = _ := course_countTerminal handle outcome s
      simp [hcourse]
  | command name configs states direction state =>
    simp [course_command, commandWrite, PodRequest.isStatusWrite]

variable (config : ReconcileConfig) (id : PodId)

theorem afterGet_found (context : Context) (p : Pod) :
    afterGet config context (.ok (some p)) = (plan config p).program context p :=
  reconcilePod_eq config context p

theorem course_reconcile (s : σ) :
    course handle (reconcile config id) s =
      let answer := (handle (.get ⟨id, config.retry⟩) s).1
      let rest := course handle ((afterGet config ⟨id, config.retry⟩ answer).bind countTerminal)
        (handle (.get ⟨id, config.retry⟩) s).2
      { rest with calls := .get ⟨id, config.retry⟩ :: rest.calls } :=
  course_call handle rfl _ s

/-- A reconcile writes a status for itself once for a pod that needs one, and never for another. -/
theorem course_statusWrites (s : σ) :
    (∀ p, (handle (.get ⟨id, config.retry⟩) s).1 = .ok (some p) → NeedsStatus config p →
      ∃ u, (course handle (reconcile config id) s).calls =
        [.get ⟨id, config.retry⟩, statusWrite ⟨id, config.retry⟩ p u]) ∧
    ((∀ p, (handle (.get ⟨id, config.retry⟩) s).1 = .ok (some p) → ¬ NeedsStatus config p) →
      ∀ request ∈ (course handle (reconcile config id) s).calls,
        request.isStatusWrite = false) := by
  have hcourse := course_reconcile handle config id s
  generalize (handle (.get ⟨id, config.retry⟩) s).2 = t at hcourse
  constructor
  · intro p hread hneeds
    obtain ⟨u, outcome, hplan⟩ := plan_tell_iff.2 hneeds
    rw [hread] at hcourse
    refine ⟨u, ?_⟩
    simp only [hcourse, afterGet_found, hplan, course_tell]
  · intro hnone request hrequest
    rw [hcourse] at hrequest
    rcases List.mem_cons.1 hrequest with rfl | hrequest
    · rfl
    · cases hread : (handle (.get ⟨id, config.retry⟩) s).1 with
      | error e => 
        rw [hread] at hrequest
        cases hrequest
      | ok found =>
        rw [hread] at hrequest
        cases found with
        | none => cases hrequest
        | some p =>
          rw [afterGet_found] at hrequest
          refine course_plan_quiet handle _ p (fun u outcome hplan => ?_) t request hrequest
          exact hnone p hread (plan_tell_iff.1 ⟨u, outcome, hplan⟩)

end Plan

/-- Two clients that answer a reconcile alike, except when it writes a status for itself: they read the
same pod, and then a write of resources has the same answer from both. -/
structure AgreeOnCommands {σ τ : Type} (context : Context)
    (handle₁ : (request : PodRequest) → σ → podSignature.Answer request × σ) (s : σ)
    (handle₂ : (request : PodRequest) → τ → podSignature.Answer request × τ) (t : τ) : Prop where
  get : (handle₁ (.get context) s).1 = (handle₂ (.get context) t).1
  resize : ∀ p name updates mutators awaitsSync,
    (handle₁ (.resize context p name updates mutators awaitsSync)
        (handle₁ (.get context) s).2).1 =
      (handle₂ (.resize context p name updates mutators awaitsSync)
        (handle₂ (.get context) t).2).1

section Agree
variable {σ τ : Type} {handle₁ : (request : PodRequest) → σ → podSignature.Answer request × σ}
  {handle₂ : (request : PodRequest) → τ → podSignature.Answer request × τ} {s : σ} {t : τ}
  {context : Context}

theorem course_plan_congr (p : Pod) (plan : Plan)
    (h : ∀ name updates mutators awaitsSync,
      (handle₁ (.resize context p name updates mutators awaitsSync) s).1 =
        (handle₂ (.resize context p name updates mutators awaitsSync) t).1) :
    course handle₁ ((plan.program context p).bind countTerminal) s =
      course handle₂ ((plan.program context p).bind countTerminal) t := by
  cases plan with
  | rest result =>
    cases result with
    | error message => rfl
    | ok outcome =>
      exact (course_countTerminal handle₁ outcome s).trans (course_countTerminal handle₂ outcome t).symm
  | tell u outcome => rw [course_tell, course_tell]
  | command name configs states direction state =>
    have hanswer : (handle₁ (commandWrite context p name configs states direction state) s).1 =
        (handle₂ (commandWrite context p name configs states direction state) t).1 := h _ _ _ _
    rw [course_command, course_command, hanswer]

/-- Clients that agree so lead a reconcile the same way. -/
theorem course_congr {config : ReconcileConfig} {id : PodId}
    (h : AgreeOnCommands ⟨id, config.retry⟩ handle₁ s handle₂ t) :
    course handle₁ (reconcile config id) s = course handle₂ (reconcile config id) t := by
  have hresize := h.resize
  rw [course_reconcile, course_reconcile, ← h.get]
  generalize (handle₁ (.get ⟨id, config.retry⟩) s).2 = s' at hresize ⊢
  generalize (handle₂ (.get ⟨id, config.retry⟩) t).2 = t' at hresize ⊢
  cases (handle₁ (.get ⟨id, config.retry⟩) s).1 with
  | error e => rfl
  | ok found =>
    cases found with
    | none => rfl
    | some p => simp only [afterGet_found, course_plan_congr p (plan config p) (hresize p)]

/-- Two clients that differ in nothing but what becomes of statuses written for themselves lead a reconcile
to the same outcome, by the same calls, and to the same counts. Such a status is tried exactly once for a
pod that needs one, and for no other. -/
theorem reconcile_ignores_statusWrites {config : ReconcileConfig} {id : PodId}
    (h : AgreeOnCommands ⟨id, config.retry⟩ handle₁ s handle₂ t) :
    course handle₁ (reconcile config id) s = course handle₂ (reconcile config id) t ∧
    (∃ outcome, (course handle₁ (reconcile config id) s).result = .ok outcome) ∧
    (∀ p, (handle₁ (.get ⟨id, config.retry⟩) s).1 = .ok (some p) → NeedsStatus config p →
      ∃ u, (course handle₁ (reconcile config id) s).calls =
        [.get ⟨id, config.retry⟩, statusWrite ⟨id, config.retry⟩ p u]) ∧
    ((∀ p, (handle₁ (.get ⟨id, config.retry⟩) s).1 = .ok (some p) → ¬ NeedsStatus config p) →
      ∀ request ∈ (course handle₁ (reconcile config id) s).calls,
        request.isStatusWrite = false) := by
  obtain ⟨outcome, hends⟩ := (reconcile_noFault config id).run_ok handle₁ s
  exact ⟨course_congr h, ⟨outcome, hends⟩, course_statusWrites handle₁ config id s⟩

end Agree

def statusOnly (p : Pod) : (request : PodRequest) → Unit → podSignature.Answer request × Unit
  | .get _, _ => (.ok (some p), ())
  | .patch .., _ => (.ok ⟨p, [.commandedUnknown]⟩, ())
  | .resize .., _ => (.error (.notFound p.id), ())
  | .record _, _ => ((), ())

/-- A pod of which nothing is configured is told so once, and refused whether or not it can be told. -/
theorem barePod_refused_alike :
    let p := Pod.bare ⟨"ns", "pod"⟩ none
    let config : ReconcileConfig := { enabled := [.cpu] }
    let refused := course (readOnly p) (reconcile config p.id) ()
    AgreeOnCommands ⟨p.id, config.retry⟩ (readOnly p) () (statusOnly p) () ∧ NeedsStatus config p ∧
      refused = course (statusOnly p) (reconcile config p.id) () ∧
      refused.counts = [.reconcileFailed .configuration] ∧
      ∃ u, refused.calls = [.get ⟨p.id, config.retry⟩, statusWrite ⟨p.id, config.retry⟩ p u] := by
  intro p config refused
  have hagree : AgreeOnCommands ⟨p.id, config.retry⟩ (readOnly p) () (statusOnly p) () :=
    ⟨rfl, fun _ _ _ _ _ => rfl⟩
  have hneeds : NeedsStatus config p := .refused rfl
  obtain ⟨hsame, -, hwrites, -⟩ := reconcile_ignores_statusWrites hagree
  exact ⟨hagree, hneeds, hsame, by decide +kernel, hwrites p rfl hneeds⟩

end Reconcile
end PodSizing
