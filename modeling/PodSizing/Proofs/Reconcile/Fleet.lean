import Mathlib.Algebra.Ring.Nat
import Mathlib.Data.List.Basic
import PodSizing.Proofs.Reconcile.Alone
import PodSizing.Proofs.Trace

/-!
# Reconciles do not interfere

Reconciles of different pods run side by side over one server, a step each in any order. What they share is
the list of the pods in progress, the server and the counters. On a server that keeps pods apart none of
this carries anything from one to another: each comes to what it comes to by itself, and the counters to what
these add up to.
-/
namespace PodSizing
open Time (Instant)
open Reconcile (reconcile)

def Act.requested? : Act → Option PodId
  | .request id _ => some id
  | _ => none

structure Running.Able (r : Running) : Prop where
  total : r.rest.Total
  waits : r.isWaiting = true → ∃ request next, r.rest = .call request next ∧ request.isCall = true

theorem Running.Able.next {id : PodId} {request : PodRequest} {isWaiting : Bool}
    {next : podSignature.Answer request → PodProgram Outcome}
    (h : Running.Able ⟨id, .call request next, isWaiting⟩) (answer : podSignature.Answer request) :
    Running.Able ⟨id, next answer, false⟩ :=
  ⟨h.total answer, fun hwaits => by cases hwaits⟩

structure Fleet (σ : Type) where
  store : σ
  pool : Pool := {}
  /-- How reconciles have ended, in order. -/
  outcomes : List (PodId × Outcome) := []

namespace Fleet
variable {σ V : Type}

section Steps
variable (config : ReconcileConfig) (server : PodServer σ V) (clock : PodId → Instant)

/-- A reconcile is asked for, or one of them takes a step. The server answers it at the time that its clock
shows, and is told what is counted. -/
inductive Step : Fleet σ → Act → Fleet σ → Prop where
  | request (f : Fleet σ) (id : PodId) :
    Step f (.request id (f.pool.request config id).1)
      { f with pool := (f.pool.request config id).2 }
  | record {f : Fleet σ} (before after : List Running) {id : PodId} {events : List Event}
      {next : Unit → PodProgram Outcome}
      (h : f.pool.running = before ++ ⟨id, .call (.record events) next, false⟩ :: after) :
    Step f .record
      { f with
        store := (server.handle (clock id) (.record events) f.store).2
        pool :=
          { f.pool with
            running := before ++ ⟨id, next (), false⟩ :: after
            events := f.pool.events ++ events } }
  | ask {f : Fleet σ} (before after : List Running) {id : PodId} {request : PodRequest}
      {next : podSignature.Answer request → PodProgram Outcome}
      (h : f.pool.running = before ++ ⟨id, .call request next, false⟩ :: after)
      (hcall : request.isCall = true) :
    Step f .ask
      { f with
        pool :=
          { f.pool with
            running := before ++ ⟨id, .call request next, true⟩ :: after
            calls := f.pool.calls ++ [request] } }
  | answer {f : Fleet σ} (before after : List Running) {id : PodId} {request : PodRequest}
      {next : podSignature.Answer request → PodProgram Outcome}
      (h : f.pool.running = before ++ ⟨id, .call request next, true⟩ :: after) :
    Step f .answer
      { f with
        store := (server.handle (clock id) request f.store).2
        pool :=
          { f.pool with
            running := before ++
              ⟨id, next (server.handle (clock id) request f.store).1, false⟩ :: after } }
  | finish {f : Fleet σ} (before after : List Running) {id : PodId} {outcome : Outcome}
      (h : f.pool.running = before ++ ⟨id, .done outcome, false⟩ :: after) :
    Step f (.finish outcome)
      { f with
        pool := f.pool.leave before ⟨id, .done outcome, false⟩ after
        outcomes := f.outcomes ++ [(id, outcome)] }

end Steps

def requested (log : List (Occurrence (Fleet σ) Act)) : List PodId :=
  log.filterMap (·.deed.requested?)

theorem requested_append (log later : List (Occurrence (Fleet σ) Act)) :
    requested (log ++ later) = requested log ++ requested later := List.filterMap_append

def due (server : PodServer σ V) (clock : PodId → Instant) (s : σ) (r : Running) : Ending :=
  server.ending (clock r.id) r.id r.rest s

variable {config : ReconcileConfig} {server : PodServer σ V} {clock : PodId → Instant}
  {f g : Fleet σ} {s₀ : σ} {act : Act} {asked : List PodId}

/-- The pool takes a step of its own, where the server gives the answers. -/
theorem Step.pool (h : Step config server clock f act g) : Pool.Step config f.pool act g.pool := by
  cases h with
  | request id => exact .request f.pool id
  | record before after hrunning => exact .record before after hrunning
  | ask before after hrunning hcall => exact .ask before after hrunning hcall
  | answer before after hrunning => exact .answer before after hrunning _
  | finish before after hrunning => exact .finish before after hrunning

theorem Step.enter (id : PodId) (h : id ∉ f.pool.inProgress.ids) :
    Step config server clock f (.request id .admitted)
      { f with
        pool :=
          { f.pool with
            inProgress := ⟨id :: f.pool.inProgress.ids, List.nodup_cons.2 ⟨h, f.pool.inProgress.nodup⟩⟩
            running := f.pool.running ++ [⟨id, reconcile config id, false⟩] } } := by
  have hstep : Step config server clock f _ _ := .request f id
  rwa [Pool.request_admitted h] at hstep

structure Going (config : ReconcileConfig) (server : PodServer σ V) (clock : PodId → Instant) (s₀ s : σ)
    (r : Running) : Prop where
  keeps : KeepsTo r.id r.rest
  able : r.Able
  result : (due server clock s r).result = (server.alone config clock s₀ r.id).result
  left : (due server clock s r).left = (server.alone config clock s₀ r.id).left

/-- Once reconciles of different pods have been asked for: those that have ended came to what they come to by
themselves, and what has been counted and is still to be counted adds up to the counts of all. -/
structure Keeps (config : ReconcileConfig) (server : PodServer σ V) (clock : PodId → Instant) (s₀ : σ)
    (asked : List PodId) (f : Fleet σ) : Prop where
  tidy : f.pool.Tidy
  nodup : asked.Nodup
  ids : (f.pool.running.map (·.id) ++ f.outcomes.map (·.1)).Perm asked
  going : ∀ r ∈ f.pool.running, Going config server clock s₀ f.store r
  ended : ∀ e ∈ f.outcomes, (server.alone config clock s₀ e.1).result = .ok e.2 ∧
    server.content? f.store e.1 = (server.alone config clock s₀ e.1).left
  counted : (f.pool.events ++ f.pool.running.flatMap fun r => (due server clock f.store r).events).Perm
    (asked.flatMap fun id => (server.alone config clock s₀ id).events)
  fresh : ∀ id, id ∉ asked → server.view f.store id = server.view s₀ id

section Turn
variable {before after : List Running} {r r' : Running}

theorem Keeps.apart (h : Keeps config server clock s₀ asked f)
    (hrunning : f.pool.running = before ++ r :: after) :
    r.id ∈ asked ∧ (∀ q ∈ before ++ after, q ∈ f.pool.running ∧ q.id ≠ r.id) ∧
      ∀ e ∈ f.outcomes, e.1 ≠ r.id := by
  have hids : (r.id :: ((before ++ after).map (·.id) ++ f.outcomes.map (·.1))).Perm asked := by
    refine List.Perm.trans ?_ h.ids
    rw [hrunning, List.map_append, List.map_append, List.map_cons, List.append_assoc,
      List.append_assoc]
    exact List.perm_middle.symm
  obtain ⟨hnew, -⟩ := List.nodup_cons.1 (hids.nodup_iff.2 h.nodup)
  rw [List.mem_append, not_or] at hnew
  refine ⟨hids.subset List.mem_cons_self, fun q hq => ⟨?_, ?_⟩, fun e he heq => ?_⟩
  · rw [hrunning]
    exact ((List.Sublist.refl before).append (List.sublist_cons_self r after)).subset hq
  · exact fun heq => hnew.1 (heq ▸ List.mem_map_of_mem hq)
  · exact hnew.2 (heq ▸ List.mem_map_of_mem he)

theorem Keeps.going_middle (h : Keeps config server clock s₀ asked f)
    (hrunning : f.pool.running = before ++ r :: after) : Going config server clock s₀ f.store r := by
  refine h.going r ?_
  rw [hrunning]
  exact List.mem_append_cons_self

/-- A turn of one reconcile, in which the server changes at most what it holds of that pod: the others come to
what they would have come to before. -/
theorem Keeps.turn (hserver : server.KeepsApart) (h : Keeps config server clock s₀ asked f)
    (hrunning : f.pool.running = before ++ r :: after) (htidy : g.pool.Tidy)
    (hrunning' : g.pool.running = before ++ r' :: after) (hid : r'.id = r.id)
    (houtcomes : g.outcomes = f.outcomes)
    (hothers : ∀ id, id ≠ r.id → server.view g.store id = server.view f.store id)
    (hkeeps : KeepsTo r'.id r'.rest) (hable : r'.Able) {events : List Event}
    (hevents : g.pool.events = f.pool.events ++ events)
    (hdue : due server clock f.store r =
      { due server clock g.store r' with events := events ++ (due server clock g.store r').events }) :
    Keeps config server clock s₀ asked g := by
  obtain ⟨hasked, hrest, hended⟩ := h.apart hrunning
  have hsame : ∀ q ∈ before ++ after, due server clock g.store q = due server clock f.store q :=
    fun q hq => PodServer.ending_congr hserver (h.going q (hrest q hq).1).keeps
      (hothers q.id (hrest q hq).2)
  have hgoing := h.going_middle hrunning
  refine ⟨htidy, h.nodup, ?_, fun q hq => ?_, fun e he => ?_, ?_, fun id hnew => ?_⟩
  · have hids : g.pool.running.map (·.id) = f.pool.running.map (·.id) := by
      simp [hrunning, hrunning', hid]
    rw [hids, houtcomes]
    exact h.ids
  · rw [hrunning'] at hq
    rcases List.mem_cons.1 (List.perm_middle.subset hq) with rfl | hq
    · refine ⟨hkeeps, hable, ?_, ?_⟩
      · rw [hid, ← hgoing.result, hdue]
      · rw [hid, ← hgoing.left, hdue]
    · obtain ⟨hkeepsq, hableq, hresult, hleft⟩ := h.going q (hrest q hq).1
      exact ⟨hkeepsq, hableq, (hsame q hq).symm ▸ hresult, (hsame q hq).symm ▸ hleft⟩
  · rw [houtcomes] at he
    obtain ⟨hresult, hleft⟩ := h.ended e he
    exact ⟨hresult, (PodServer.content?_congr (hothers e.1 (hended e he))).trans hleft⟩
  · -- What is counted in this turn is no longer due, and the others are due what they were.
    refine List.Perm.trans ?_ h.counted
    have hbefore : (before.flatMap fun q => (due server clock g.store q).events) =
        before.flatMap fun q => (due server clock f.store q).events :=
      List.flatMap_congr fun q hq => by rw [hsame q (List.mem_append_left after hq)]
    have hafter : (after.flatMap fun q => (due server clock g.store q).events) =
        after.flatMap fun q => (due server clock f.store q).events :=
      List.flatMap_congr fun q hq => by rw [hsame q (List.mem_append_right before hq)]
    rw [hevents, hrunning, hrunning', List.perm_iff_count]
    intro e
    simp only [List.flatMap_append, List.flatMap_cons, List.count_append, hbefore, hafter, hdue]
    omega
  · have hne : id ≠ r.id := fun heq => hnew (heq ▸ hasked)
    exact (hothers id hne).trans (h.fresh id hnew)

end Turn

/-- A reconcile that is asked for comes to what it comes to by itself, as the server holds what it held of its
pod. -/
theorem Keeps.request (hserver : server.KeepsApart) (h : Keeps config server clock s₀ asked f)
    {id : PodId} (hnodup : (asked ++ [id]).Nodup) :
    Keeps config server clock s₀ (asked ++ [id]) { f with pool := (f.pool.request config id).2 } := by
  have hnew : id ∉ asked := fun hasked =>
    (List.nodup_append.1 hnodup).2.2 id hasked id List.mem_cons_self rfl
  have hidle : id ∉ f.pool.inProgress.ids := fun hid =>
    hnew (h.ids.subset (List.mem_append_left _ (h.tidy.held.subset hid)))
  have htidy : (f.pool.request config id).2.Tidy := h.tidy.request id
  rw [Pool.request_admitted hidle] at htidy ⊢
  have hdue : due server clock f.store ⟨id, reconcile config id, false⟩ =
      server.alone config clock s₀ id :=
    PodServer.ending_congr hserver (Reconcile.reconcile_keepsTo config id) (h.fresh id hnew)
  refine ⟨htidy, hnodup, ?_, fun r hr => ?_, h.ended, ?_, fun other hother => ?_⟩
  · have hids := h.ids.append_right [id]
    simp only [List.map_append, List.map_cons, List.map_nil]
    refine List.Perm.trans ?_ hids
    rw [List.append_assoc, List.append_assoc]
    exact List.perm_append_comm.append_left _
  · rcases List.mem_append.1 hr with hr | hr
    · exact h.going r hr
    · cases List.mem_singleton.1 hr
      exact ⟨Reconcile.reconcile_keepsTo config id,
        ⟨Reconcile.reconcile_noFault config id, fun hwaits => by cases hwaits⟩, by rw [hdue],
        by rw [hdue]⟩
  · have hcounted := h.counted.append_right (server.alone config clock s₀ id).events
    simpa [List.flatMap_append, hdue] using hcounted
  · exact h.fresh other fun hasked => hother (List.mem_append_left _ hasked)

theorem Keeps.finish (h : Keeps config server clock s₀ asked f) {before after : List Running}
    {id : PodId} {outcome : Outcome}
    (hrunning : f.pool.running = before ++ ⟨id, .done outcome, false⟩ :: after) :
    Keeps config server clock s₀ asked
      { f with
        pool := f.pool.leave before ⟨id, .done outcome, false⟩ after
        outcomes := f.outcomes ++ [(id, outcome)] } := by
  obtain ⟨-, hrest, -⟩ := h.apart hrunning
  have hgoing := h.going_middle hrunning
  refine ⟨h.tidy.leave hrunning, h.nodup, ?_, fun q hq => h.going q (hrest q hq).1, fun e he => ?_, ?_,
    h.fresh⟩
  · refine List.Perm.trans ?_ h.ids
    simp only [Pool.leave, hrunning, List.perm_iff_count, List.map_append, List.map_cons, List.map_nil,
      List.count_append, List.count_cons, List.count_nil]
    omega
  · rcases List.mem_append.1 he with he | he
    · exact h.ended e he
    · cases List.mem_singleton.1 he
      exact ⟨hgoing.result.symm, hgoing.left⟩
  · have hcounted := h.counted
    rw [hrunning, List.flatMap_append, List.flatMap_cons] at hcounted
    rw [Pool.leave, List.flatMap_append]
    exact hcounted

/-- Whatever they do, the reconciles keep to what they come to by themselves. -/
theorem Keeps.step (hserver : server.KeepsApart) (h : Keeps config server clock s₀ asked f)
    (hstep : Step config server clock f act g) (hrequests : act.requested? = none) :
    Keeps config server clock s₀ asked g := by
  have htidy : g.pool.Tidy := (h.tidy.step hstep.pool).1
  cases hstep with
  | request id => cases hrequests
  | record before after hrunning =>
    have hgoing := h.going_middle hrunning
    obtain ⟨-, -, hnext⟩ := hgoing.keeps
    exact h.turn hserver hrunning htidy rfl rfl rfl (fun other _ => hserver.quiet rfl _ _ other)
      (hnext () trivial).1 (hgoing.able.next ()) rfl rfl
  | ask before after hrunning hcall =>
    have hgoing := h.going_middle hrunning
    exact h.turn hserver hrunning htidy rfl rfl rfl (fun _ _ => rfl) hgoing.keeps
      ⟨hgoing.able.total, fun _ => ⟨_, _, rfl, hcall⟩⟩ (List.append_nil _).symm rfl
  | answer before after hrunning =>
    have hgoing := h.going_middle hrunning
    obtain ⟨hfor, -, hnext⟩ := hgoing.keeps
    obtain ⟨_, _, hwaits, hcall⟩ := hgoing.able.waits rfl
    cases hwaits
    refine h.turn hserver hrunning htidy rfl rfl rfl
      (fun other hne => hserver.elsewhere hfor hne _ _) (hnext _ (hserver.fits _ _ _)).1
      (hgoing.able.next _) (List.append_nil _).symm ?_
    exact (server.ending_call _ _ _).trans (by rw [PodRequest.counted_of_isCall hcall]; rfl)
  | finish before after hrunning => exact h.finish hrunning

def start (s : σ) : Fleet σ := { store := s }

theorem keeps_of_trace (hserver : server.KeepsApart) {log : List (Occurrence (Fleet σ) Act)}
    (h : Trace (Step config server clock) (start s₀) log f) (hnodup : (requested log).Nodup) :
    Keeps config server clock s₀ (requested log) f := by
  induction h with
  | start => exact ⟨Pool.empty_tidy, hnodup, .nil, by simp [start], by simp [start], .nil, fun _ _ => rfl⟩
  | @step log t u act h hstep ih =>
    have hlog : requested (log ++ [⟨t, act⟩]) = requested log ++ act.requested?.toList := by
      rw [requested_append]
      cases hrequests : act.requested? <;> simp [requested, hrequests]
    rw [hlog] at hnodup ⊢
    have hkeeps := ih (List.nodup_append.1 hnodup).1
    cases hrequests : act.requested? with
    | none => simpa using hkeeps.step hserver hstep hrequests
    | some id =>
      rw [hrequests] at hnodup
      cases hstep with
      | request other =>
        cases hrequests
        exact hkeeps.request hserver hnodup
      | record | ask | answer | finish => cases hrequests

/-- Without another request it may come to these reconciles being left. -/
def GetsTo (config : ReconcileConfig) (server : PodServer σ V) (clock : PodId → Instant) (f : Fleet σ)
    (left : List Running) : Prop :=
  ∃ log g, Trace (Step config server clock) f log g ∧ requested log = [] ∧ g.pool.running = left

variable {left : List Running}

theorem GetsTo.step (hstep : Step config server clock f act g) (hrequests : act.requested? = none)
    (h : GetsTo config server clock g left) : GetsTo config server clock f left := by
  obtain ⟨log, t, htrace, hnone, ht⟩ := h
  refine ⟨_, t, (Trace.single hstep).trans htrace, ?_, ht⟩
  simpa [requested, hrequests] using hnone

theorem GetsTo.trans (h : GetsTo config server clock f left)
    (hthen : ∀ g : Fleet σ, g.pool.running = left → GetsTo config server clock g []) :
    GetsTo config server clock f [] := by
  obtain ⟨log, g, htrace, hnone, hg⟩ := h
  obtain ⟨later, t, hlater, hnone', ht⟩ := hthen g hg
  refine ⟨log ++ later, t, htrace.trans hlater, ?_, ht⟩
  rw [requested_append, hnone, hnone', List.append_nil]

/-- A reconcile that is able to gets to its end, while the others wait. -/
theorem getsTo_others {before after : List Running} {r : Running} (h : r.Able)
    (hrunning : f.pool.running = before ++ r :: after) :
    GetsTo config server clock f (before ++ after) := by
  obtain ⟨id, rest, isWaiting⟩ := r
  -- The program that is left gets smaller with each answer, whatever that is.
  induction rest generalizing f isWaiting with
  | done outcome =>
    cases isWaiting with
    | false => exact ⟨_, _, .single (.finish before after hrunning), rfl, rfl⟩
    | true =>
      obtain ⟨_, _, hcall, -⟩ := h.waits rfl
      cases hcall
  | fault message => exact h.total.elim
  | call request next ih =>
    have hanswered {g : Fleet σ}
        (hrunning : g.pool.running = before ++ ⟨id, .call request next, true⟩ :: after) :
        GetsTo config server clock g (before ++ after) :=
      .step (.answer before after hrunning) rfl (ih _ _ (h.next _) rfl)
    cases isWaiting with
    | true => exact hanswered hrunning
    | false =>
      cases hcall : request.isCall with
      | true => exact .step (.ask before after hrunning hcall) rfl (hanswered rfl)
      | false =>
        cases request with
        | record events =>
          exact .step (.record before after hrunning) rfl (ih () _ (h.next ()) rfl)
        | get | patch | resize => cases hcall

theorem getsTo_nil {running : List Running} (hrunning : f.pool.running = running)
    (h : ∀ r ∈ running, r.Able) : GetsTo config server clock f [] := by
  induction running generalizing f with
  | nil => exact ⟨[], f, .start, rfl, hrunning⟩
  | cons r rest ih =>
    obtain ⟨hr, hrest⟩ := List.forall_mem_cons.1 h
    have hfirst : f.pool.running = [] ++ r :: rest := hrunning
    exact (getsTo_others hr hfirst).trans fun g hg => ih hg hrest

/-- Reconciles of different pods do not interfere on a server that keeps pods apart, whatever the order of
their steps. Whichever has ended came to the outcome that it has by itself, and left its pod with what it
leaves by itself; pods that no reconcile was asked for are as they were. Once none runs, all have ended, and
every count is the sum of what each counts by itself. That can always be reached. -/
theorem reconciles_independent (hserver : server.KeepsApart) {log : List (Occurrence (Fleet σ) Act)}
    (h : Trace (Step config server clock) (start s₀) log f) (hnodup : (requested log).Nodup) :
    (∀ id outcome, (id, outcome) ∈ f.outcomes →
      (server.alone config clock s₀ id).result = .ok outcome ∧
        server.content? f.store id = (server.alone config clock s₀ id).left) ∧
    (∀ id, id ∉ requested log → server.view f.store id = server.view s₀ id) ∧
    (f.pool.running = [] →
      (f.outcomes.map (·.1)).Perm (requested log) ∧
        ∀ count : Event → Bool, f.pool.events.countP count =
          ((requested log).map fun id => (server.alone config clock s₀ id).events.countP count).sum) ∧
    GetsTo config server clock f [] := by
  have hkeeps := keeps_of_trace hserver h hnodup
  refine ⟨fun id outcome he => hkeeps.ended (id, outcome) he, hkeeps.fresh, fun hidle => ⟨?_, ?_⟩,
    getsTo_nil rfl fun r hr => (hkeeps.going r hr).able⟩
  · have hids := hkeeps.ids
    rwa [hidle] at hids
  · intro count
    have hcounted := hkeeps.counted
    rw [hidle, List.flatMap_nil, List.append_nil] at hcounted
    rw [hcounted.countP_eq, List.countP_flatMap]
    rfl

def neighbours : Store where
  pods :=
    [Reconcile.startedPod "3m" "1m",
      { Reconcile.startedPod "3m" "2m" with
        metadata := { (Reconcile.startedPod "3m" "2m").metadata with name := some "twin" } }]
  now := ⟨0⟩

def clockOf (id : PodId) : Instant := if id.name = "pod" then ⟨1000⟩ else ⟨2000⟩

/-- Both are asked for before either is read, and the one that was asked for last is read first. Each is
commanded down as it would be by itself. -/
theorem neighbours_independent :
    let config : ReconcileConfig := { enabled := [.cpu] }
    let ids : List PodId := [⟨"ns", "pod"⟩, ⟨"ns", "twin"⟩]
    ∃ log f, Trace (Step config Store.server clockOf) (start neighbours) log f ∧ requested log = ids ∧
      f.pool.running = [] ∧ ∀ id ∈ ids, (id, .done) ∈ f.outcomes ∧
        Store.server.content? f.store id = (Store.server.alone config clockOf neighbours id).left ∧
        (Store.server.alone config clockOf neighbours id).left ≠
          Store.server.content? neighbours id := by
  intro config ids
  obtain ⟨early, t, hread, hearly⟩ : ∃ early t,
      Trace (Step config Store.server clockOf) (start neighbours) early t ∧ requested early = ids := by
    have hpod : Trace (Step config Store.server clockOf) (start neighbours) [_] _ :=
      .single (.enter ⟨"ns", "pod"⟩ (by simp [start]))
    have htwin := hpod.step (.enter ⟨"ns", "twin"⟩ (by decide))
    have hasked := (htwin.step (.ask [] [_] rfl rfl)).step (.ask [_] [] rfl rfl)
    exact ⟨_, _, (hasked.step (.answer [_] [] rfl)).step (.answer [] [_] rfl), rfl⟩
  have hids : ids.Nodup := by decide
  obtain ⟨-, -, -, later, f, hlater, hnone, hidle⟩ :=
    reconciles_independent Store.server_keepsApart hread (hearly ▸ hids)
  have hrun := hread.trans hlater
  have hlog : requested (early ++ later) = ids := by
    rw [requested_append, hearly, hnone, List.append_nil]
  obtain ⟨hended, -, hall, -⟩ := reconciles_independent Store.server_keepsApart hrun (hlog ▸ hids)
  refine ⟨_, f, hrun, hlog, hidle, fun id hid => ?_⟩
  have hdone : (Store.server.alone config clockOf neighbours id).result = .ok .done ∧
      (Store.server.alone config clockOf neighbours id).left ≠ Store.server.content? neighbours id := by
    revert id
    decide +kernel
  have hmem : id ∈ f.outcomes.map (·.1) := ((hall hidle).1.trans (by rw [hlog])).symm.subset hid
  obtain ⟨⟨_, outcome⟩, he, rfl⟩ := List.mem_map.1 hmem
  obtain ⟨hresult, hleft⟩ := hended _ _ he
  cases hdone.1.symm.trans hresult
  exact ⟨he, hleft, hdone.2⟩

end Fleet
end PodSizing
