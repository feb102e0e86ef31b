import PodSizing.Proofs.Reconcile.Interleaving
import PodSizing.Reconcile.Session

/-!
# Sessions are reconciles side by side

What a session does is one of the ways in which reconciles may take turns: a pool follows it, step by
step, with the same pods in progress and the same events. So a session that has nothing left to complete
has no pod in progress.
-/
namespace PodSizing

theorem Store.patch_events (s : Store) (context : Context) (base : Pod) (mutators : List Mutator)
    (touchesResize awaitsSync : Bool) :
    (s.patch context base mutators touchesResize awaitsSync).2.events = s.events := by
  unfold Store.patch Store.write
  dsimp only
  split
  · rfl
  · split
    · rfl
    · split <;> rfl

namespace Pool
variable {config : ReconcileConfig} {s t : Pool} {Q R : Pool → Prop}

/-- Some turns lead there. -/
def Leads (config : ReconcileConfig) (s : Pool) (Q : Pool → Prop) : Prop :=
  ∃ acts t, Run config s acts t ∧ Q t

theorem Leads.here (h : Q s) : Leads config s Q := ⟨[], s, .start, h⟩

theorem Leads.next {act : Act} (h : Step config s act t) (ht : Leads config t Q) :
    Leads config s Q := by
  obtain ⟨acts, u, hrun, hu⟩ := ht
  exact ⟨_, u, (Run.start.step h).trans hrun, hu⟩

theorem Leads.trans (h : Leads config s Q) (hQ : ∀ t, Q t → Leads config t R) :
    Leads config s R := by
  obtain ⟨first, t, hfirst, ht⟩ := h
  obtain ⟨second, u, hsecond, hu⟩ := hQ t ht
  exact ⟨_, u, hfirst.trans hsecond, hu⟩

structure Follows (t : Pool) (store : Store) (inProgress : InProgress) (running : List Running) :
    Prop where
  events : t.events = store.events
  inProgress : t.inProgress = inProgress
  running : t.running = running

section Turns
variable {store : Store} {inProgress : InProgress} {before after : List Running} {id : PodId}

theorem Follows.call {request : PodRequest} {next : podSignature.Answer request → PodProgram Outcome}
    (h : t.Follows store inProgress (before ++ ⟨id, .call request next, false⟩ :: after))
    (hcall : request.isCall = true) (answer : podSignature.Answer request) {store' : Store}
    (hstore : store'.events = store.events) :
    Leads config t
      (·.Follows store' inProgress (before ++ ⟨id, next answer, false⟩ :: after)) :=
  .next (.ask before after h.running hcall)
    (.next (.answer before after rfl answer) (.here ⟨h.events.trans hstore.symm, h.inProgress, rfl⟩))

theorem Follows.leave {r : Running} (h : t.Follows store inProgress (before ++ r :: after)) :
    (t.leave before r after).Follows store (inProgress.release r.id) (before ++ after) :=
  ⟨h.events, congrArg (·.release r.id) h.inProgress, rfl⟩

theorem Follows.handle {request : PodRequest}
    {next : podSignature.Answer request → PodProgram Outcome}
    (h : t.Follows store inProgress (before ++ ⟨id, .call request next, false⟩ :: after)) :
    Leads config t (·.Follows (Store.handle request store).2 inProgress
      (before ++ ⟨id, next (Store.handle request store).1, false⟩ :: after)) := by
  cases request with
  | get context => exact h.call rfl _ rfl
  | patch context base mutators touchesResize awaitsSync =>
    exact h.call rfl _ (Store.patch_events store ..)
  | resize context base container updates mutators awaitsSync =>
    exact h.call rfl _ (Store.patch_events store ..)
  | record events =>
    exact .next (.record before after h.running)
      (.here ⟨congrArg (· ++ events) h.events, h.inProgress, rfl⟩)

/-- A store answers one request after the other, until the reconcile is over. -/
theorem Follows.run {p : PodProgram Outcome}
    (h : t.Follows store inProgress (before ++ ⟨id, p, false⟩ :: after)) :
    Leads config t
      (·.Follows (p.run Store.handle store).2 (inProgress.release id) (before ++ after)) := by
  induction p generalizing t store with
  | done outcome => exact .next (.finish before after h.running) (.here h.leave)
  | fault message => exact .next (.panic before after h.running) (.here h.leave)
  | call request next ih => exact h.handle.trans fun u hu => ih _ hu

/-- A reconcile gets to its end, or to where it waits for its pod. -/
theorem Follows.advance {p : PodProgram Outcome}
    (h : t.Follows store inProgress (before ++ ⟨id, p, false⟩ :: after)) :
    Leads config t fun u => match Store.advance p store with
      | (.ended _, store) => u.Follows store (inProgress.release id) (before ++ after)
      | (.reading context next, store) =>
        u.Follows store inProgress (before ++ ⟨id, .call (.get context) next, true⟩ :: after) := by
  induction p generalizing t store with
  | done outcome => exact .next (.finish before after h.running) (.here h.leave)
  | fault message => exact .next (.panic before after h.running) (.here h.leave)
  | call request next ih =>
    cases request with
    | get context =>
      have hasked : Pool.Follows { t with
            running := before ++ ⟨id, .call (.get context) next, true⟩ :: after
            calls := t.calls ++ [.get context] }
          (store.log (.get context)) inProgress
          (before ++ ⟨id, .call (.get context) next, true⟩ :: after) :=
        ⟨h.events, h.inProgress, rfl⟩
      by_cases hpanics : (store.log (.get context)).faults.panicsOnGet = true
      · simp only [Store.advance, if_pos hpanics]
        exact .next (.ask before after h.running rfl)
          (.next (.panic before after hasked.running) (.here hasked.leave))
      · simp only [Store.advance, if_neg hpanics]
        exact .next (.ask before after h.running rfl) (.here hasked)
    | patch context base mutators touchesResize awaitsSync =>
      exact h.handle.trans fun u hu => ih _ hu
    | resize context base container updates mutators awaitsSync =>
      exact h.handle.trans fun u hu => ih _ hu
    | record events => exact h.handle.trans fun u hu => ih _ hu

end Turns
end Pool

namespace Session
open Pool (Leads Follows)
open Reconcile (afterGet countTerminal)
variable {config : ReconcileConfig} {s : Session} {t : Pool}

def Run.waiting (r : Run) : Running := ⟨r.id, .call (.get r.context) r.next, true⟩

def Start.waiting : Start → List Running
  | .over _ => []
  | .running r => [r.waiting]

theorem startAdmitted_leads {running : List Running} {id : PodId}
    (h : t.Follows s.store s.inProgress (running ++ [⟨id, Reconcile.reconcile config id, false⟩])) :
    Leads config t (·.Follows (startAdmitted config id s).2.store
      (startAdmitted config id s).2.inProgress
      (running ++ (startAdmitted config id s).1.waiting)) := by
  refine h.advance.trans fun u hu => .here ?_
  unfold startAdmitted
  cases hadvance : Store.advance (Reconcile.reconcile config id) s.store with
  | mk stage store =>
    rw [hadvance] at hu
    cases stage with
    | ended result => exact hu
    | reading context next => exact hu

theorem start_deferred {id : PodId} (h : id ∈ s.inProgress.ids) :
    start config id s = (.over (.ok (.requeue config.requeueMillis)),
      { s with store := s.store.record [.existingInProgress] }) := by
  rw [start, InProgress.enter?_mem h]

theorem start_admitted {id : PodId} (h : id ∉ s.inProgress.ids)
    (hcalm : s.store.faults.panicsOnGet = false) :
    start config id s =
      (.running ⟨id, ⟨id, config.retry⟩, fun answer =>
          (afterGet config ⟨id, config.retry⟩ answer).bind countTerminal⟩,
        { store := s.store.log (.get ⟨id, config.retry⟩)
          inProgress := ⟨id :: s.inProgress.ids, List.nodup_cons.2 ⟨h, s.inProgress.nodup⟩⟩ }) := by
  have hadvance : Store.advance (Reconcile.reconcile config id) s.store =
      (.reading ⟨id, config.retry⟩ fun answer =>
          (afterGet config ⟨id, config.retry⟩ answer).bind countTerminal,
        s.store.log (.get ⟨id, config.retry⟩)) := by
    show Store.advance (.call (.get ⟨id, config.retry⟩) _) _ = _
    rw [Store.advance, if_neg (by simpa [Store.log] using hcalm)]
    rfl
  simp only [start, InProgress.enter?_notMem h, startAdmitted, hadvance]

/-- What requests for some pods come to while no reconcile completes: each takes in its pod, or counts that
it is in already. -/
structure Started (ids : List PodId) (s t : Session) : Prop where
  inProgress : ∀ id, t.inProgress.contains id = true ↔ s.inProgress.contains id = true ∨ id ∈ ids
  counted : t.store.events.count .existingInProgress + t.inProgress.ids.length =
    s.store.events.count .existingInProgress + s.inProgress.ids.length + ids.length

theorem startAll_started (config : ReconcileConfig) {s : Session} (ids : List PodId)
    (hcalm : s.store.faults.panicsOnGet = false) : Started ids s (startAll config ids s).2 := by
  induction ids generalizing s with
  | nil => exact ⟨by simp [startAll], rfl⟩
  | cons id ids ih =>
    have hrest : (startAll config (id :: ids) s).2 =
      (startAll config ids (start config id s).2).2 := rfl
    rw [hrest]
    by_cases hmem : id ∈ s.inProgress.ids
    · rw [start_deferred hmem]
      obtain ⟨hinProgress, hcounted⟩ := ih (s := { s with
        store := s.store.record [.existingInProgress] }) hcalm
      refine ⟨fun id' => (hinProgress id').trans ?_, ?_⟩
      · simp only [InProgress.contains_iff, List.mem_cons]
        grind
      · rw [hcounted, List.length_cons]
        simp only [Store.record, List.count_append, List.count_singleton_self]
        omega
    · rw [start_admitted hmem hcalm]
      obtain ⟨hinProgress, hcounted⟩ := ih (s := ⟨s.store.log (.get ⟨id, config.retry⟩),
        ⟨id :: s.inProgress.ids, List.nodup_cons.2 ⟨hmem, s.inProgress.nodup⟩⟩⟩) hcalm
      refine ⟨fun id' => (hinProgress id').trans ?_, ?_⟩
      · simp only [InProgress.contains_iff, List.mem_cons]
        grind
      · rw [hcounted, List.length_cons, List.length_cons]
        simp only [Store.log]
        omega

theorem start_leads {running : List Running} (h : t.Follows s.store s.inProgress running)
    (id : PodId) :
    Leads config t (·.Follows (start config id s).2.store (start config id s).2.inProgress
      (running ++ (start config id s).1.waiting)) := by
  obtain ⟨hevents, hheld, hrunning⟩ := h
  unfold start
  by_cases hmem : id ∈ s.inProgress.ids
  · rw [InProgress.enter?_mem hmem]
    refine .next (.defer id (by rwa [hheld])) (.here ⟨?_, hheld, ?_⟩)
    · exact congrArg (· ++ _) hevents
    · exact hrunning.trans (List.append_nil _).symm
  · rw [InProgress.enter?_notMem hmem]
    refine .next (.enter id (by rwa [hheld])) (startAdmitted_leads ⟨hevents, ?_, ?_⟩)
    · simp only [hheld]
    · rw [hrunning]

theorem complete_leads {before after : List Running} {r : Run}
    (h : t.Follows s.store s.inProgress (before ++ r.waiting :: after)) :
    Leads config t (·.Follows (complete r s).2.store (complete r s).2.inProgress
      (before ++ after)) := by
  have hanswered : Pool.Follows { t with
      running := before ++ ⟨r.id, r.next (s.store.answerGet r.context.id), false⟩ :: after }
      s.store s.inProgress
      (before ++ ⟨r.id, r.next (s.store.answerGet r.context.id), false⟩ :: after) :=
    ⟨h.events, h.inProgress, rfl⟩
  exact .next (.answer before after h.running (s.store.answerGet r.context.id))
    (hanswered.run.trans fun u hu => .here hu)

theorem completeAll_leads {starts : List Start}
    (h : t.Follows s.store s.inProgress (starts.flatMap Start.waiting)) :
    Leads config t (·.Follows (completeAll starts s).2.store (completeAll starts s).2.inProgress
      []) := by
  induction starts generalizing s t with
  | nil => exact .here h
  | cons first rest ih =>
    rcases first with result | r
    · exact ih h
    · have hfirst : t.Follows s.store s.inProgress ([] ++ r.waiting :: rest.flatMap Start.waiting) := h
      exact (complete_leads hfirst).trans fun u hu => ih hu

theorem startAll_leads {ids : List PodId} {running : List Running}
    (h : t.Follows s.store s.inProgress running) :
    Leads config t (·.Follows (startAll config ids s).2.store (startAll config ids s).2.inProgress
      (running ++ (startAll config ids s).1.flatMap Start.waiting)) := by
  induction ids generalizing s t running with
  | nil => exact .here (by simpa [startAll] using h)
  | cons id ids ih =>
    refine (start_leads h id).trans fun u hu => (ih hu).trans fun v hv => .here ?_
    simpa [startAll] using hv

/-- Reconciles that a session takes side by side are taken in turns, none of which is left over. -/
theorem reconcileAll_leads (h : t.Follows s.store s.inProgress []) (ids : List PodId) :
    Leads config t (·.Follows (reconcileAll config ids s).2.store
      (reconcileAll config ids s).2.inProgress []) :=
  (startAll_leads h).trans fun _ hu => completeAll_leads hu

theorem reconcileAll_inProgress (config : ReconcileConfig) (ids : List PodId)
    (hnone : s.inProgress.ids = []) : (reconcileAll config ids s).2.inProgress.ids = [] := by
  have htidy : Pool.Tidy ⟨s.inProgress, [], [], s.store.events⟩ := ⟨by simp [hnone], by simp⟩
  have hleads : Leads config ⟨s.inProgress, [], [], s.store.events⟩ _ :=
    reconcileAll_leads ⟨rfl, rfl, rfl⟩ ids
  obtain ⟨acts, u, hrun, hfollows⟩ := hleads
  have hperm := (htidy.run hrun).1.held
  rwa [hfollows.running, hfollows.inProgress, List.map_nil, List.perm_nil] at hperm

end Session
end PodSizing
