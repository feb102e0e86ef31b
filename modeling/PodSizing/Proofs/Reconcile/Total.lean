import PodSizing.Proofs.Reconcile.Rest

/-!
# Reconciles do not break off

The route breaks off at states with a probe that is unknown, and at states that leave open whether the
container has started. Whoever is eligible and classified has neither: the container that is validated
is the one that is classified, and it has one of the probes.
-/
namespace PodSizing
open Routing

namespace Routing
variable {context : Context} {t : Target}

theorem writeStatus_total (p : Pod) (u : StatusUpdate) : (writeStatus context p u).Total
  | .ok _ => fun _ => trivial
  | .error _ => trivial

theorem command_total (direction : Direction) (state : ScaleState) :
    (command context t direction state).Total
  | .ok _ => fun _ => trivial
  | .error _ => trivial

theorem recordProgress_total : (recordProgress context t).Total ↔ t.states.resources ≠ .unknown := by
  unfold recordProgress
  cases hresources : t.states.resources with
  | unknown => simp [appliedDirection?, Program.Total]
  | startup =>
    refine iff_of_true ((writeStatus_total _ _).bind fun _ => ?_) (by simp)
    split <;> trivial
  | postStartup =>
    refine iff_of_true ((writeStatus_total _ _).bind fun _ => ?_) (by simp)
    split <;> trivial

theorem act_total (started : Bool) : (act context t t.states.resources started).Total := by
  cases hresources : t.states.resources with
  | startup =>
    cases started with
    | false => exact recordProgress_total.2 (by simp [hresources])
    | true => exact command_total .down _
  | postStartup =>
    cases started with
    | false => exact command_total .up _
    | true => exact recordProgress_total.2 (by simp [hresources])
  | unknown =>
    cases started with
    | false => exact command_total .up _
    | true => exact command_total .down _

structure AsksStarted (scaleUnknown : Bool) (s : States) : Prop where
  running : s.container = .running
  started : s.started ≠ .unknown
  ready : s.ready ≠ .unknown
  resources : s.resources = .unknown → scaleUnknown = true

/-- Where the route breaks off. -/
theorem route_total_iff {scaleUnknown : Bool} :
    (route scaleUnknown context t).Total ↔
      t.states.startupProbe ≠ .unknown ∧ t.states.readinessProbe ≠ .unknown ∧
        (AsksStarted scaleUnknown t.states → (isStarted? t.states).isSome = true) := by
  have htold (u : StatusUpdate) (r : Except ActionError Unit) :
      ((writeStatus context t.pod u).bind fun _ => .done r).Total :=
    (writeStatus_total _ _).bind fun _ => trivial
  unfold route
  dsimp only
  by_cases hprobes : (t.states.startupProbe = .unknown || t.states.readinessProbe = .unknown) = true
  · rw [if_pos hprobes]
    refine iff_of_false id fun ⟨hstartup, hreadiness, _⟩ => ?_
    simp [hstartup, hreadiness] at hprobes
  · rw [if_neg hprobes]
    have hknown : t.states.startupProbe ≠ .unknown ∧ t.states.readinessProbe ≠ .unknown := by
      simpa using hprobes
    simp only [hknown.1, hknown.2, ne_eq, not_false_eq_true, true_and]
    split
    · next hrunning => exact iff_of_true (htold _ _) fun h => absurd h.running hrunning
    · next hrunning =>
      split
      · next hunseen =>
        refine iff_of_true trivial fun h => ?_
        simp [h.started, h.ready] at hunseen
      · next hseen =>
        split
        · next hresources =>
          refine iff_of_true (htold _ _) fun h => ?_
          simp only [Bool.and_eq_true, decide_eq_true_eq, Bool.not_eq_true'] at hresources
          simp [h.resources hresources.1] at hresources
        · next hresources =>
          have hasks : AsksStarted scaleUnknown t.states := by
            simp only [Bool.or_eq_true, decide_eq_true_eq, not_or] at hseen
            exact ⟨Decidable.not_not.1 hrunning, hseen.1, hseen.2, fun h => by simpa [h] using hresources⟩
          cases hstarted : isStarted? t.states with
          | none => exact iff_of_false id fun h => absurd (h hasks) (by simp)
          | some started => exact iff_of_true (act_total started) fun _ => rfl

end Routing

namespace Reconcile

theorem classify_isStarted? {p : Pod} {name awaited : String} {configs : ScaleConfigs}
    {states : States} (heligible : p.validate name configs = .ok ())
    (h : p.classify name configs awaited = .ok states) :
    ∃ started, isStarted? states = some started := by
  obtain ⟨c, hc, hprobe⟩ := Pod.validate_container heligible
  simp only [Pod.classify, Except.bind_eq_ok, Except.mapError_eq_ok, Pod.container_eq_ok] at h
  obtain ⟨d, hd, resize, -, hstates⟩ := h
  cases hstates
  cases hc.symm.trans hd
  unfold isStarted?
  cases hstartup : c.hasStartupProbe with
  | true => exact ⟨_, rfl⟩
  | false =>
    have hreadiness : c.hasReadinessProbe = true := by simpa [hstartup] using hprobe
    rw [hreadiness]
    exact ⟨_, rfl⟩

variable {config : ReconcileConfig}

theorem route_total {p : Pod} {name : String} {configs : ScaleConfigs} {states : States}
    (hexamine : examine config p = .ok (configs, name))
    (hclassify : p.classify name configs config.awaitedMessage = .ok states) (context : Context) :
    (route config.scaleUnknown context ⟨p, name, configs, states⟩).Total := by
  obtain ⟨hstartup, hreadiness⟩ := classify_probes hclassify
  obtain ⟨started, hstarted⟩ := classify_isStarted? (examine_eq_ok.1 hexamine).2.2 hclassify
  exact route_total_iff.2 ⟨hstartup, hreadiness, fun _ => by rw [hstarted]; rfl⟩

theorem reconcilePod_total (context : Context) (p : Pod) :
    (reconcilePod config context p).Total := by
  unfold reconcilePod
  split
  · exact (writeStatus_total _ _).bind fun _ => trivial
  · next configs name hexamine =>
    split
    · trivial
    · next states hclassify =>
      refine (route_total hexamine hclassify context).bind fun r => ?_
      cases r <;> trivial

/-- No plan is to break off. -/
theorem plan_total (config : ReconcileConfig) (p : Pod) (message : String) :
    plan config p ≠ .rest (.error message) := by
  intro hplan
  have htotal : (reconcilePod config ⟨p.id, config.retry⟩ p).Total := reconcilePod_total _ p
  rw [reconcilePod_eq, hplan] at htotal
  exact htotal

theorem countTerminal_total (outcome : Outcome) : (countTerminal outcome).Total := by
  cases outcome with
  | done => trivial
  | requeue afterMillis => trivial
  | terminal e => exact fun _ => trivial

theorem afterGet_total (context : Context) :
    ∀ answer : Except ClientError (Option Pod), (afterGet config context answer).Total
  | .ok (some p) => reconcilePod_total context p
  | .ok none => trivial
  | .error _ => fun _ => trivial

theorem reconcile_noFault (config : ReconcileConfig) (id : PodId) : (reconcile config id).Total :=
  fun answer => (afterGet_total _ answer).bind countTerminal_total

/-- Whatever pod is read and whatever is answered, a reconcile ends with an outcome: no pod is routed
with states that the route breaks off at. -/
theorem reconcile_total (config : ReconcileConfig) :
    (∀ id, (reconcile config id).Total ∧
      ∀ (σ : Type) (handle : (request : PodRequest) → σ → podSignature.Answer request × σ) (s : σ),
        ∃ outcome, ((reconcile config id).run handle s).1 = .ok outcome) ∧
      ∀ context p configs name states, examine config p = .ok (configs, name) →
        p.classify name configs config.awaitedMessage = .ok states →
        (route config.scaleUnknown context ⟨p, name, configs, states⟩).Total := by
  constructor
  · intro id
    have htotal := reconcile_noFault config id
    exact ⟨htotal, fun σ handle s => htotal.run_ok handle s⟩
  · intro context p configs name states hexamine hclassify
    exact route_total hexamine hclassify context

/-- A pod that is commanded is routed to the end; the same pod with states that are not known is not. -/
theorem equalAmounts_routed :
    ∃ configs name states, examine { enabled := [.cpu] } (startedPod "3m" "3m") = .ok (configs, name) ∧
      (startedPod "3m" "3m").classify name configs "" = .ok states ∧
      (route false ⟨⟨"ns", "pod"⟩, .once⟩ ⟨startedPod "3m" "3m", name, configs, states⟩).Total ∧
      ¬ (route false ⟨⟨"ns", "pod"⟩, .once⟩ ⟨startedPod "3m" "3m", name, configs, {}⟩).Total := by
  have hforever : commandsForever { enabled := [.cpu] } (startedPod "3m" "3m") = true := by
    decide +kernel
  obtain ⟨name, configs, states, state, hplan, -⟩ := commandsForever_iff.1 hforever
  obtain ⟨hexamine, hclassify, -⟩ := plan_command hplan
  refine ⟨configs, name, states, hexamine, hclassify, ?_, fun htotal => ?_⟩
  · exact (reconcile_total { enabled := [.cpu] }).2 _ _ _ _ _ hexamine hclassify
  · exact absurd rfl (route_total_iff.1 htotal).1

end Reconcile
end PodSizing
