import PodSizing.Proofs.Api.Calm
import PodSizing.Proofs.Reconcile.Guard
import PodSizing.Proofs.Reconcile.Total

/-!
# Reconciles against a server

What holds after a reconcile, by what holds after the pod has been read and after its one write.
-/
namespace PodSizing.Reconcile
open Routing

section Served
variable {w : World} {s : Server} {P : Server → Prop}

theorem plan_wp {context : Context} {p : Pod} {plan : Plan} {z : Writing} (sync : CacheSync)
    (hwriting : plan.writing? = some z)
    (hwrite : (ApiClient.patch sync (writeContext context z) p z.mutators z.resources.isSome
      true).wp (Server.handle w) (fun _ t => P t) s) :
    ((plan.program context p).overApi sync).wp (Server.handle w) (fun _ t => P t) s := by
  have hafter (answer : Except ClientError Written) (t : Server) (ht : P t) :
      ((plan.afterWrite answer).overApi sync).wp (Server.handle w) (fun _ u => P u) t := by
    cases plan with
    | rest result => cases hwriting
    | tell u outcome => cases answer <;> exact ht
    | command name configs states direction state => cases answer <;> exact ht
  rw [plan.program_eq_write context p hwriting, PodProgram.overApi, Program.interpret_bind,
    Program.wp_bind]
  have hrequest : ((writeProgram context p z).interpret (ApiClient.handle sync)).wp
      (Server.handle w) (fun _ t => P t) s := by
    obtain ⟨status, resources⟩ := z
    cases resources with
    | none => exact (Program.wp_bind _ _ _ _ _).2 hwrite
    | some command => exact (Program.wp_bind _ _ _ _ _).2 hwrite
  exact Program.wp_mono hrequest fun answer t ht => hafter answer t ht

/-- After a reconcile, what holds after its write; where there is none, what holds after the pod has been
read. -/
theorem reconcile_wp {config : ReconcileConfig} {id : PodId} (sync : CacheSync)
    (hget : (ApiClient.handle sync (.get ⟨id, config.retry⟩)).wp (Server.handle w)
      (fun answer t => (∀ p z, answer = .ok (some p) → (plan config p).writing? = some z →
          (ApiClient.patch sync (writeContext ⟨id, config.retry⟩ z) p z.mutators
            z.resources.isSome true).wp (Server.handle w) (fun _ u => P u) t) ∧
        ((∀ p z, answer = .ok (some p) → (plan config p).writing? ≠ some z) → P t)) s) :
    ((reconcile config id).overApi sync).wp (Server.handle w) (fun _ t => P t) s := by
  have hcount (outcome : Outcome) (t : Server) (ht : P t) :
      ((countTerminal outcome).overApi sync).wp (Server.handle w) (fun _ u => P u) t := by
    cases outcome <;> exact ht
  have hreconcile : (reconcile config id).overApi sync =
      (ApiClient.handle sync (.get ⟨id, config.retry⟩)).bind fun answer =>
        ((afterGet config ⟨id, config.retry⟩ answer).bind countTerminal).interpret
          (ApiClient.handle sync) := rfl
  rw [hreconcile, Program.wp_bind]
  refine Program.wp_mono hget fun answer t ⟨hwrite, hnone⟩ => ?_
  rw [Program.interpret_bind, Program.wp_bind]
  suffices hafter : ((afterGet config ⟨id, config.retry⟩ answer).overApi sync).wp
      (Server.handle w) (fun _ u => P u) t from
    Program.wp_mono hafter fun outcome u hu => hcount outcome u hu
  cases answer with
  | error e => exact hnone fun _ _ h => by cases h
  | ok found =>
    cases found with
    | none => exact hnone fun _ _ h => by cases h
    | some p =>
      rw [afterGet, reconcilePod_eq]
      cases hwriting : (plan config p).writing? with
      | some z => exact plan_wp sync hwriting (hwrite p z rfl hwriting)
      | none =>
        have ht := hnone fun q z hq => by cases hq; rw [hwriting]; exact fun h => by cases h
        cases hplan : plan config p with
        | rest result =>
          cases result with
          | ok outcome => exact ht
          | error message => exact absurd hplan (plan_total config p message)
        | tell u outcome => simp [hplan, Plan.writing?] at hwriting
        | command name configs states direction state => simp [hplan, Plan.writing?] at hwriting

/-- A reconcile has had no patch carried out, or has kept to the client's ways in its write. -/
theorem reconcile_going (hs : s.Sound w) (hlog : s.log = []) (config : ReconcileConfig) (id : PodId)
    (sync : CacheSync) :
    ((reconcile config id).overApi sync).wp (Server.handle w) (fun _ t =>
      (∀ i patch before after, .patched i patch before after ∉ t.log) ∨
        ∃ p z, id.name.isEmpty = false ∧ (plan config p).writing? = some z ∧
          Going p z.mutators z.resources.isSome w t) s := by
  refine reconcile_wp sync (Program.wp_mono (get_going hs sync id config.retry)
    fun answer t ⟨hread, hunread⟩ => ⟨fun p z hanswer hwriting => ?_, fun _ => .inl ?_⟩)
  · obtain ⟨hname, hsound, hp, hgot⟩ := hread p hanswer
    have hstart : Going p z.mutators z.resources.isSome w t := by
      refine ⟨hsound, hp, ?_⟩
      rw [hgot, hlog]
      exact Faithful.nil.cons fun _ _ _ _ h => by cases h
    refine Program.wp_mono (call_going hstart (by rw [hgot]; rfl) sync _ true) fun _ u hu => ?_
    exact .inr ⟨p, z, hname, hwriting, hu⟩
  · intro i patch before after hmem
    by_cases hfound : ∃ p, answer = .ok (some p)
    · obtain ⟨p, hp⟩ := hfound
      rw [(hread p hp).2.2.2, hlog] at hmem
      simp at hmem
    · rw [(hunread fun p hp => hfound ⟨p, hp⟩).log, hlog] at hmem
      cases hmem

theorem plan_present {config : ReconcileConfig} {p : Pod} {z : Writing}
    (h : (plan config p).writing? = some z) :
    ∀ name updates, z.resources = some (name, updates) → p.isContainerInSpec name = true := by
  intro name updates hresources
  obtain ⟨configs, states, hready, -⟩ := plan_resources h hresources
  obtain ⟨c, hc, -⟩ := Pod.validate_container hready.eligible
  rw [Pod.isContainerInSpec, hc]
  rfl

/-- While nobody else changes the pod, what is planned for it is what comes about. -/
theorem reconcile_calm (config : ReconcileConfig) {id : PodId} {q : Pod}
    (h : s.Settled w id q) (hname : id.name.isEmpty = false) (sync : CacheSync) :
    ((reconcile config id).overApi sync).wp (Server.handle w) (fun _ t =>
      (∀ z, (plan config q).writing? = some z → WentThrough w id z q t) ∧
        ((plan config q).writing? = none → t.Settled w id q)) s := by
  refine reconcile_wp sync (Program.wp_mono (get_calm h hname sync config.retry)
    fun answer t ⟨hanswer, hsettled⟩ => ⟨fun p z hp hwriting => ?_, fun hnone => ?_⟩)
  · cases hanswer.symm.trans hp
    refine Program.wp_mono (request_calm hsettled hname (plan_present hwriting) sync
      (writeContext ⟨id, config.retry⟩ z) ?_ true) fun _ u hu => ⟨fun z' hz' => ?_,
        fun hnone => ?_⟩
    · unfold writeContext
      split <;> rfl
    · cases hwriting.symm.trans hz'
      exact hu
    · cases hwriting.symm.trans hnone
  · exact ⟨fun z hz => absurd hz (hnone q z hanswer), fun _ => hsettled⟩

end Served
end PodSizing.Reconcile
