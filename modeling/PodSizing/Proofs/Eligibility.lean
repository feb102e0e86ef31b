import PodSizing.Eligibility
import PodSizing.Proofs.ScaleConfig

/-!
# Eligibility is kept

A pod that may be managed still may be after a scale: the quantities of either direction are equal
requests and limits, and nothing else that is checked changes.
-/
namespace PodSizing

theorem failIf_eq_ok {ε : Type} {condition : Bool} {error : ε} {u : Unit} :
    failIf condition error = .ok u ↔ condition = false := by
  cases condition <;> simp [failIf]

namespace ScaleConfig
variable {c : ScaleConfig} {container : Container}

theorem checkQuantities_eq_ok {requests limits : String} {u : Unit} :
    c.checkQuantities requests limits = .ok u ↔
      ∃ amount, Quantity.parse requests = .ok amount ∧ Quantity.parse limits = .ok amount := by
  simp only [checkQuantities, Except.bind_eq_ok, Except.mapError_eq_ok, failIf_eq_ok]
  constructor
  · rintro ⟨a, ha, b, hb, hne⟩
    have heq : a = b := by simpa using hne
    exact ⟨a, ha, heq ▸ hb⟩
  · rintro ⟨a, ha, hb⟩
    exact ⟨a, ha, a, hb, by simp⟩

theorem checkPolicy_eq_ok {u : Unit} :
    c.checkPolicy container = .ok u ↔
      container.restartPolicy? c.resource.text = some desiredRestartPolicy := by
  simp [checkPolicy, failIf_eq_ok]

/-- What the check of a managed resource asks for. -/
theorem validateAgainst_eq_ok {r : ScaleResources} (hr : c.resources = some r) {u : Unit} :
    c.validateAgainst container = .ok u ↔
      (∃ requests limits amount, container.request? c.resource.text = some requests ∧
        container.limit? c.resource.text = some limits ∧ Quantity.parse requests = .ok amount ∧
        Quantity.parse limits = .ok amount) ∧
      container.restartPolicy? c.resource.text = some desiredRestartPolicy ∧
      ¬ r.startup.value < r.postStartupRequests.value ∧
      r.postStartupRequests.value = r.postStartupLimits.value := by
  simp only [validateAgainst, hr]
  cases hrequest : container.request? c.resource.text with
  | none => simp
  | some requests =>
    cases hlimit : container.limit? c.resource.text with
    | none => simp
    | some limits =>
      simp only [Except.bind_eq_ok, checkQuantities_eq_ok, checkPolicy_eq_ok, failIf_eq_ok]
      constructor
      · rintro ⟨_, ⟨amount, ha, hb⟩, _, hpolicy, _, hlt, hne⟩
        exact ⟨⟨requests, limits, amount, rfl, rfl, ha, hb⟩, hpolicy, by simpa using hlt,
          by simpa using hne⟩
      · rintro ⟨⟨_, _, amount, hr, hl, ha, hb⟩, hpolicy, hlt, heq⟩
        cases hr
        cases hl
        exact ⟨(), ⟨amount, ha, hb⟩, (), hpolicy, (), by simpa using hlt, by simpa using heq⟩

end ScaleConfig

namespace ScaleConfigs
variable {c : ScaleConfigs}

theorem validateAgainst_eq_ok {container : Container} {u : Unit} :
    c.validateAgainst container = .ok u ↔
      ∀ config ∈ c.all, config.validateAgainst container = .ok () := by
  have hunit (x : Except Ineligibility Unit) : (∃ v, x = .ok v) ↔ x = .ok () :=
    ⟨fun ⟨(), hv⟩ => hv, fun hv => ⟨(), hv⟩⟩
  simp [validateAgainst, all, Except.bind_eq_ok, pure, Except.pure, hunit]

theorem validateAgainst_withUpdates (hsound : c.Sound) {container : Container}
    (h : c.validateAgainst container = .ok ()) (direction : Direction) :
    c.validateAgainst (container.withUpdates (c.updates direction)) = .ok () := by
  rw [validateAgainst_eq_ok] at h ⊢
  intro config hconfig
  have hbefore := h config hconfig
  cases hr : config.resources with
  | none => simpa [ScaleConfig.validateAgainst, hr] using hbefore
  | some r =>
    have henabled : config ∈ c.enabled :=
      List.mem_filter.2 ⟨hconfig, by simp [ScaleConfig.isEnabled, hr]⟩
    obtain ⟨-, hpolicy, hlt, heq⟩ := (ScaleConfig.validateAgainst_eq_ok hr).1 hbefore
    have htexts := hsound.amounts_withUpdates direction container henabled hr
    have hamounts := (hsound.amounts config hconfig r hr).wanted direction
    have hsame : (r.wanted direction).1.value = (r.wanted direction).2.value := by
      cases direction with
      | up => rfl
      | down => exact heq
    have hlimit : Quantity.parse (r.wanted direction).2.text = .ok (r.wanted direction).1.value :=
      hsame ▸ hamounts.2
    refine (ScaleConfig.validateAgainst_eq_ok hr).2
      ⟨⟨_, _, _, htexts.1, htexts.2, hamounts.1, hlimit⟩, ?_, hlt, heq⟩
    rw [Container.withUpdates_frame]
    exact hpolicy

end ScaleConfigs

namespace Pod

theorem container_eq_ok {p : Pod} {name : String} {c : Container} :
    p.container name = .ok c ↔ p.container? name = some c := by
  unfold container
  cases p.container? name <;> simp

theorem validate_container {p : Pod} {name : String} {configs : ScaleConfigs}
    (h : p.validate name configs = .ok ()) :
    ∃ c, p.container? name = some c ∧ (c.hasStartupProbe || c.hasReadinessProbe) = true := by
  simp only [validate, Except.bind_eq_ok, failIf_eq_ok, targetContainer,
    Except.mapError_eq_ok, container_eq_ok] at h
  obtain ⟨_, -, _, -, c, hcontainer, _, hprobe, -⟩ := h
  refine ⟨c, hcontainer, ?_⟩
  cases hstartup : c.hasStartupProbe with
  | true => rfl
  | false => simpa [hstartup] using hprobe

theorem validate_against {p : Pod} {name : String} {configs : ScaleConfigs}
    (h : p.validate name configs = .ok ()) :
    ∃ c, p.container? name = some c ∧ configs.validateAgainst c = .ok () := by
  simp only [validate, Except.bind_eq_ok, failIf_eq_ok, targetContainer,
    Except.mapError_eq_ok, container_eq_ok] at h
  obtain ⟨_, -, _, -, c, hcontainer, _, -, _, -, _, -, hagainst⟩ := h
  exact ⟨c, hcontainer, hagainst⟩

/-- The pod may still be managed after a scale in either direction. -/
theorem validate_withResources {p : Pod} {name : String} {configs : ScaleConfigs}
    (hsound : configs.Sound) (h : p.validate name configs = .ok ()) (direction : Direction) :
    (p.withResources name (configs.updates direction)).validate name configs = .ok () := by
  simp only [validate, Except.bind_eq_ok, failIf_eq_ok, targetContainer,
    Except.mapError_eq_ok, container_eq_ok] at h ⊢
  obtain ⟨_, hoptIn, _, hmarks, container, hcontainer, _, hprobe, _, hquality, _, hcollection,
    hagainst⟩ := h
  have hfound := container?_withResources_of_some hcontainer (configs.updates direction)
  refine ⟨(), hoptIn, (), hmarks, _, hfound, (), ?_, (), hquality, (), hcollection,
    ScaleConfigs.validateAgainst_withUpdates hsound hagainst direction⟩
  rw [Container.withUpdates_frame]
  exact hprobe

end Pod
end PodSizing
