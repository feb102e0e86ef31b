import PodSizing.Proofs.Reconcile.Independent
import PodSizing.Proofs.Reconcile.StatusWrites

/-!
# What a run comes to by itself

A reconcile keeps to its pod: whatever it asks is for that pod, and it goes by nothing but what it is told of
it. On a server that keeps pods apart, what a run comes to is decided by what is held of its pod.
-/
namespace PodSizing
open Time (Instant)
open Reconcile Routing

/-- What a run comes to: its result, what it has counted, in order, and what is left stored of a pod. -/
structure Ending where
  result : Except String Outcome
  events : List Event
  left : Option Pod.Content

abbrev OnlyCounts {α : Type} (program : PodProgram α) : Prop :=
  program.Asks fun request : PodRequest => request.isCall = false

/-- The program asks on behalf of one pod, goes by no more of an answer than what it says of that pod, and
only counts after a write. -/
def KeepsTo {α : Type} (id : PodId) : PodProgram α → Prop
  | .done _ | .fault _ => True
  | .call request next =>
    request.IsFor id ∧ (∀ a b, request.Alike a b → next a = next b) ∧
      ∀ answer, request.Fits answer →
        KeepsTo id (next answer) ∧ (request.isWrite = true → OnlyCounts (next answer))

theorem PodRequest.counted_of_isCall {request : PodRequest} (h : request.isCall = true) :
    request.counted = [] := by
  cases request with
  | record events => cases h
  | get | patch | resize => rfl

section Programs
variable {α β : Type} {id : PodId}

theorem OnlyCounts.keepsTo {p : PodProgram α} (h : OnlyCounts p) : KeepsTo id p := by
  induction p with
  | done a => trivial
  | fault message => trivial
  | call request next ih =>
    cases request with
    | record events =>
      exact ⟨trivial, fun _ _ _ => rfl, fun answer _ => ⟨ih answer (h.2 answer), fun _ => h.2 answer⟩⟩
    | get context => cases h.1
    | patch context base mutators touchesResize awaitsSync => cases h.1
    | resize context base container updates mutators awaitsSync => cases h.1

theorem KeepsTo.bind {p : PodProgram α} {f : α → PodProgram β} (hp : KeepsTo id p)
    (hf : ∀ a, OnlyCounts (f a)) : KeepsTo id (p.bind f) := by
  induction p with
  | done a => exact (hf a).keepsTo
  | fault message => trivial
  | call request next ih =>
    obtain ⟨hfor, halike, hnext⟩ := hp
    refine ⟨hfor, fun a b hab => congrArg (·.bind f) (halike a b hab), fun answer hfits => ?_⟩
    obtain ⟨hkeeps, hcounts⟩ := hnext answer hfits
    exact ⟨ih answer hkeeps, fun hwrite => (hcounts hwrite).bind hf⟩

end Programs

namespace Reconcile
variable {config : ReconcileConfig} {id : PodId}

theorem Plan.afterWrite_onlyCounts (plan : Plan) (answer : Except ClientError Written) :
    OnlyCounts (plan.afterWrite answer) := by
  cases plan with
  | rest result => cases result <;> trivial
  | tell u outcome =>
    cases answer with
    | ok written => exact ⟨rfl, fun _ => trivial⟩
    | error e => trivial
  | command name configs states direction state =>
    cases answer with
    | ok written => exact ⟨rfl, fun _ => trivial⟩
    | error e => trivial

/-- After a write it matters what was observed, and not which pod came of it. -/
theorem Plan.afterWrite_congr (plan : Plan) {a b : Except ClientError Written}
    (h : a.map (·.observations) = b.map (·.observations)) : plan.afterWrite a = plan.afterWrite b := by
  cases a with
  | error e =>
    cases b with
    | error e' =>
      cases h
      rfl
    | ok w => cases h
  | ok v =>
    cases b with
    | error e => cases h
    | ok w =>
      have hobservations : v.observations = w.observations := Except.ok.inj h
      have hrecord : recordWrite v = recordWrite w := by rw [recordWrite, hobservations, recordWrite]
      cases plan with
      | rest result => cases result <;> rfl
      | tell u outcome => simp only [Plan.afterWrite, hrecord]
      | command name configs states direction state => simp only [Plan.afterWrite, hrecord]

theorem Plan.program_keepsTo {context : Context} {p : Pod} (hcontext : context.id = id)
    (hp : p.id = id) (plan : Plan) : KeepsTo id (plan.program context p) := by
  cases hwriting : plan.writing? with
  | none =>
    cases plan with
    | rest result => cases result <;> trivial
    | tell u outcome => cases hwriting
    | command name configs states direction state => cases hwriting
  | some z =>
    have hid : (writeContext context z).id = id := by
      unfold writeContext
      split <;> exact hcontext
    have hkeeps : ∀ m ∈ [z.status.mutator], m.KeepsId := by
      simpa using Mutator.keepsId_status z.status
    have hcounts := plan.afterWrite_onlyCounts
    rw [plan.program_eq_write context p hwriting]
    unfold writeProgram
    split
    all_goals
      exact ⟨⟨hid, hp, hkeeps⟩, fun a b hab => plan.afterWrite_congr hab,
        fun answer _ => ⟨(hcounts answer).keepsTo, fun _ => hcounts answer⟩⟩

theorem reconcile_keepsTo (config : ReconcileConfig) (id : PodId) :
    KeepsTo id (reconcile config id) := by
  refine ⟨rfl, fun a b hab => ?_, fun answer hfits => ⟨?_, fun hwrite => by cases hwrite⟩⟩
  · cases hab
    rfl
  · have hafter : KeepsTo id (afterGet config ⟨id, config.retry⟩ answer) := by
      cases answer with
      | error e => exact ⟨trivial, fun _ _ _ => rfl, fun _ _ => ⟨trivial, fun _ => trivial⟩⟩
      | ok found =>
        cases found with
        | none => trivial
        | some p =>
          rw [afterGet_found]
          exact Plan.program_keepsTo rfl (hfits p rfl) _
    exact hafter.bind (countTerminal_asks fun _ => rfl)

end Reconcile

namespace PodServer
variable {σ V : Type} (server : PodServer σ V)

def ending (now : Instant) (id : PodId) (program : PodProgram Outcome) (s : σ) : Ending where
  result := (program.run (server.handle now) s).1
  events := (program.requests (server.handle now) s).flatMap PodRequest.counted
  left := server.content? (program.run (server.handle now) s).2 id

section Ending
variable {now : Instant} {id : PodId}

theorem ending_done (outcome : Outcome) (s : σ) :
    server.ending now id (.done outcome) s = ⟨.ok outcome, [], server.content? s id⟩ := rfl

theorem ending_call (request : PodRequest)
    (next : podSignature.Answer request → PodProgram Outcome) (s : σ) :
    server.ending now id (.call request next) s =
      let rest := server.ending now id (next (server.handle now request s).1)
        (server.handle now request s).2
      { rest with events := request.counted ++ rest.events } := rfl

variable {server}

theorem content?_congr {s t : σ} (h : server.view s id = server.view t id) :
    server.content? s id = server.content? t id := by
  rw [content?, content?, h]

theorem ending_of_onlyCounts (hserver : server.KeepsApart) {program : PodProgram Outcome}
    (h : OnlyCounts program) {s t : σ} (hcontent : server.content? s id = server.content? t id) :
    server.ending now id program s = server.ending now id program t := by
  induction program generalizing s t with
  | done outcome => rw [ending_done, ending_done, hcontent]
  | fault message => exact congrArg (Ending.mk _ _) hcontent
  | call request next ih =>
    obtain ⟨hcount, hnext⟩ := h
    cases request with
    | record events =>
      have hkept (s : σ) : server.content? (server.handle now (.record events) s).2 id =
          server.content? s id :=
        content?_congr (hserver.quiet rfl now s id)
      have hrest := ih () (hnext ()) ((hkept s).trans (hcontent.trans (hkept t).symm))
      exact congrArg (fun rest : Ending => { rest with events := events ++ rest.events }) hrest
    | get context => cases hcount
    | patch context base mutators touchesResize awaitsSync => cases hcount
    | resize context base container updates mutators awaitsSync => cases hcount

/-- What keeps to a pod comes to the same on any states that hold the same of it. -/
theorem ending_congr (hserver : server.KeepsApart) {program : PodProgram Outcome}
    (h : KeepsTo id program) {s t : σ} (hview : server.view s id = server.view t id) :
    server.ending now id program s = server.ending now id program t := by
  induction program generalizing s t with
  | done outcome => rw [ending_done, ending_done, content?_congr hview]
  | fault message => exact congrArg (Ending.mk _ _) (content?_congr hview)
  | call request next ih =>
    obtain ⟨hfor, halike, hnext⟩ := h
    have hsame : next (server.handle now request t).1 = next (server.handle now request s).1 :=
      (halike _ _ (hserver.answers hfor hview now)).symm
    obtain ⟨hkeeps, hcounts⟩ := hnext _ (hserver.fits now request s)
    rw [ending_call, ending_call, hsame]
    have hrest : server.ending now id (next (server.handle now request s).1)
        (server.handle now request s).2 =
          server.ending now id (next (server.handle now request s).1)
            (server.handle now request t).2 := by
      -- After a write the content agrees, but what else is held of the pod, as its version, may not.
      cases hwrite : request.isWrite with
      | true => exact ending_of_onlyCounts hserver (hcounts hwrite) (hserver.stores hfor hview now)
      | false =>
        refine ih _ hkeeps ?_
        rw [hserver.quiet hwrite, hserver.quiet hwrite, hview]
    rw [hrest]

end Ending

/-- What a reconcile comes to that nothing else goes on beside. -/
def alone (config : ReconcileConfig) (clock : PodId → Instant) (s : σ) (id : PodId) : Ending :=
  server.ending (clock id) id (reconcile config id) s

end PodServer
end PodSizing
