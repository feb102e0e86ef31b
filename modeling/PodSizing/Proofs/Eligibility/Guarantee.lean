import PodSizing.Proofs.Eligibility
import PodSizing.Proofs.Reconcile.Command

/-!
# Commands and the quality of service

A pod is guaranteed what its containers ask for where each request equals its limit and neither is
zero, which the cluster takes for unset. The checks of a configuration compare amounts and let zero
and less pass, so a command keeps the guarantee just where the amounts that it sets are positive.
-/
namespace PodSizing
open Time (Instant)

namespace Container

def isGuaranteed (c : Container) (resource : ResourceName) : Bool :=
  (c.requestAmount? resource).any fun amount =>
    0 < amount.millis && c.hasAmounts resource amount amount

theorem isGuaranteed_iff {c : Container} {resource : ResourceName} :
    c.isGuaranteed resource = true ↔
      ∃ amount : MilliValue, 0 < amount.millis ∧ c.hasAmounts resource amount amount = true := by
  constructor
  · intro h
    obtain ⟨amount, -, hamount⟩ := (Option.any_eq_true _ _).1 h
    exact ⟨amount, by simpa using hamount⟩
  · rintro ⟨amount, hpos, hamounts⟩
    have hrequest : c.requestAmount? resource = some amount := by
      simp only [hasAmounts, Bool.and_eq_true, decide_eq_true_eq] at hamounts
      exact hamounts.1
    simp [isGuaranteed, hrequest, hpos, hamounts]

def Guaranteed (c : Container) (resources : List ResourceName) : Prop :=
  ∀ resource ∈ resources, c.isGuaranteed resource = true

instance (c : Container) (resources : List ResourceName) : Decidable (c.Guaranteed resources) :=
  inferInstanceAs (Decidable (∀ resource ∈ resources, c.isGuaranteed resource = true))

end Container

/-- The amounts that a direction sets are positive. -/
def ScaleConfigs.Positive (c : ScaleConfigs) (direction : Direction) : Prop :=
  ∀ config ∈ c.enabled, ∀ r, config.resources = some r → 0 < (r.wanted direction).1.value.millis

namespace ScaleConfigs
variable {c : ScaleConfigs} {container : Container}

theorem mem_enabledNames {resource : ResourceName} :
    resource ∈ c.enabledNames ↔ ∃ config ∈ c.enabled, config.resource = resource :=
  List.mem_map

/-- What the checks ask of the configured amounts of a resource. -/
theorem amounts_of_validateAgainst (h : c.validateAgainst container = .ok ())
    {config : ScaleConfig} (hconfig : config ∈ c.enabled) {r : ScaleResources}
    (hr : config.resources = some r) :
    r.postStartupRequests.value.millis ≤ r.startup.value.millis ∧
      r.postStartupRequests.value = r.postStartupLimits.value := by
  have hcheck := validateAgainst_eq_ok.1 h config (List.mem_filter.1 hconfig).1
  obtain ⟨-, -, hlt, heq⟩ := (ScaleConfig.validateAgainst_eq_ok hr).1 hcheck
  exact ⟨Int.not_lt.1 hlt, heq⟩

theorem wanted_eq (h : c.validateAgainst container = .ok ()) {config : ScaleConfig}
    (hconfig : config ∈ c.enabled) {r : ScaleResources} (hr : config.resources = some r)
    (direction : Direction) : (r.wanted direction).2.value = (r.wanted direction).1.value := by
  cases direction with
  | up => rfl
  | down => exact (amounts_of_validateAgainst h hconfig hr).2.symm

/-- Amounts that are positive after startup were so before. -/
theorem Positive.up (h : c.validateAgainst container = .ok ()) (hdown : c.Positive .down) :
    c.Positive .up := by
  intro config hconfig r hr
  have hpost : 0 < r.postStartupRequests.value.millis := hdown config hconfig r hr
  have hle := (amounts_of_validateAgainst h hconfig hr).1
  exact Int.lt_of_lt_of_le hpost hle

namespace Sound

theorem hasAmounts_wanted (hsound : c.Sound) (h : c.validateAgainst container = .ok ())
    (direction : Direction) (given : Container) {config : ScaleConfig}
    (hconfig : config ∈ c.enabled) {r : ScaleResources} (hr : config.resources = some r)
    (amount : MilliValue) :
    (given.withUpdates (c.updates direction)).hasAmounts config.resource amount amount = true ↔
      amount = (r.wanted direction).1.value := by
  rw [hsound.hasAmounts_withUpdates direction given hconfig hr, wanted_eq h hconfig hr]
  constructor
  · exact fun heq => heq.1.symm
  · rintro rfl
    exact ⟨rfl, rfl⟩

/-- A container that is given the quantities of a direction has one amount for request and limit of
each managed resource, and is guaranteed them just where they are positive. -/
theorem guaranteed_withUpdates (hsound : c.Sound) (h : c.validateAgainst container = .ok ())
    (direction : Direction) (given : Container) :
    (∀ resource ∈ c.enabledNames, ∃ amount,
        (given.withUpdates (c.updates direction)).hasAmounts resource amount amount = true) ∧
      ((given.withUpdates (c.updates direction)).Guaranteed c.enabledNames ↔
        c.Positive direction) := by
  refine ⟨fun resource hresource => ?_, fun hguaranteed config hconfig r hr => ?_,
    fun hpositive resource hresource => ?_⟩
  · obtain ⟨config, hconfig, rfl⟩ := mem_enabledNames.1 hresource
    obtain ⟨r, hr, -⟩ := hsound.enabled hconfig
    exact ⟨_, (hsound.hasAmounts_wanted h direction given hconfig hr _).2 rfl⟩
  · have hname := mem_enabledNames.2 ⟨config, hconfig, rfl⟩
    obtain ⟨amount, hpos, hamounts⟩ := Container.isGuaranteed_iff.1 (hguaranteed _ hname)
    rw [hsound.hasAmounts_wanted h direction given hconfig hr] at hamounts
    exact hamounts ▸ hpos
  · obtain ⟨config, hconfig, rfl⟩ := mem_enabledNames.1 hresource
    obtain ⟨r, hr, -⟩ := hsound.enabled hconfig
    exact Container.isGuaranteed_iff.2 ⟨_, hpositive config hconfig r hr,
      (hsound.hasAmounts_wanted h direction given hconfig hr _).2 rfl⟩

end Sound
end ScaleConfigs

/-- A command sets a request and a limit of one amount for each managed resource, and leaves the
container guaranteed just where the amounts of its direction are positive. Amounts that are positive
after startup are enough for both directions. -/
theorem command_guaranteed_iff {t : Target} {enabled : List ResourceName}
    (hconfigs : ScaleConfigs.ofPod t.pod enabled = .ok t.configs)
    (hvalid : t.pod.validate t.containerName t.configs = .ok ()) :
    (∀ (direction : Direction) (now : Instant), ∃ edit c,
        Mutator.resources t.containerName (t.updates direction) now t.pod = .ok edit ∧
        edit.pod.container? t.containerName = some c ∧
        (∀ resource ∈ t.configs.enabledNames, ∃ amount,
          c.hasAmounts resource amount amount = true) ∧
        (c.Guaranteed t.configs.enabledNames ↔ t.configs.Positive direction)) ∧
      (t.configs.Positive .down → t.configs.Positive .up) := by
  have hsound := ScaleConfigs.ofPod_sound hconfigs
  obtain ⟨given, hgiven, hagainst⟩ := Pod.validate_against hvalid
  have hpresent : t.pod.isContainerInSpec t.containerName = true := by
    simp [Pod.isContainerInSpec, hgiven]
  refine ⟨fun direction now => ?_, ScaleConfigs.Positive.up hagainst⟩
  have hafter : (t.pod.withResources t.containerName (t.configs.updates direction)).container?
      t.containerName = some (given.withUpdates (t.configs.updates direction)) := by
    rw [Pod.container?_withResources, hgiven]
    rfl
  have hrun : Mutator.resources t.containerName (t.updates direction) now t.pod = .ok
      { changed := true,
        pod := t.pod.withResources t.containerName (t.configs.updates direction) } := by
    rw [Mutator.resources, Target.updates_eq, Mutator.foldlM_setResource hpresent]
    rfl
  exact ⟨_, _, hrun, hafter, hsound.guaranteed_withUpdates hagainst direction given⟩

/-- A pod that is to have a third of its processor time after startup is guaranteed it throughout. -/
theorem startedTarget_guaranteed :
    startedTarget.configs.Positive .down ∧
      ∀ direction, ∃ edit c,
        Mutator.resources "app" (startedTarget.updates direction) ⟨0⟩ startedTarget.pod = .ok edit ∧
          edit.pod.container? "app" = some c ∧ c.Guaranteed [.cpu] := by
  have hconfigs : ScaleConfigs.ofPod startedTarget.pod [.cpu] = .ok startedTarget.configs :=
    Except.toOption_eq_some.1 (by decide +kernel)
  have hvalid : startedTarget.pod.validate "app" startedTarget.configs = .ok () :=
    Except.toOption_eq_some.1 (by decide +kernel)
  have hdown : startedTarget.configs.Positive .down := by
    have henabled : startedTarget.configs.enabled = [startedTarget.configs.cpu] := rfl
    intro config hconfig r hr
    rw [henabled, List.mem_singleton] at hconfig
    subst hconfig
    cases hr
    show (0 : Int) < 1
    decide
  obtain ⟨hboth, hup⟩ := command_guaranteed_iff hconfigs hvalid
  refine ⟨hdown, fun direction => ?_⟩
  obtain ⟨edit, c, hrun, hafter, -, hiff⟩ := hboth direction ⟨0⟩
  refine ⟨edit, c, hrun, hafter, hiff.2 ?_⟩
  cases direction with
  | up => exact hup hdown
  | down => exact hdown

def idleTarget : Target where
  pod := Reconcile.startedPod "3m" "0"
  containerName := "app"
  configs :=
    { cpu := ⟨.cpu, some "app", some ⟨⟨"3m", ⟨3⟩⟩, ⟨"0", ⟨0⟩⟩, ⟨"0", ⟨0⟩⟩⟩, []⟩
      memory := ⟨.memory, some "app", none, []⟩ }
  states := {}

/-- The checks accept it while it is guaranteed its processor time, and the command after startup ends
the guarantee. -/
theorem idleTarget_loses_guarantee :
    ScaleConfigs.ofPod idleTarget.pod [.cpu] = .ok idleTarget.configs ∧
      idleTarget.configs.targetName = .ok "app" ∧
      idleTarget.pod.validate "app" idleTarget.configs = .ok () ∧
      (∃ c, idleTarget.pod.container? "app" = some c ∧ c.Guaranteed [.cpu]) ∧
      ∃ edit c, Mutator.resources "app" (idleTarget.updates .down) ⟨0⟩ idleTarget.pod = .ok edit ∧
        edit.pod.container? "app" = some c ∧ ¬ c.Guaranteed [.cpu] := by
  have hbefore : ((idleTarget.pod.container? "app").any fun c =>
      decide (c.Guaranteed [.cpu])) = true := by decide +kernel
  have hafter : ((Mutator.resources "app" (idleTarget.updates .down) ⟨0⟩
      idleTarget.pod).toOption.any fun edit => (edit.pod.container? "app").any fun c =>
        !decide (c.Guaranteed [.cpu])) = true := by decide +kernel
  obtain ⟨given, hgiven, hguaranteed⟩ := (Option.any_eq_true _ _).1 hbefore
  obtain ⟨edit, hedit, hcontainer⟩ := (Option.any_eq_true _ _).1 hafter
  obtain ⟨c, hc, hlost⟩ := (Option.any_eq_true _ _).1 hcontainer
  refine ⟨Except.toOption_eq_some.1 (by decide +kernel), rfl,
    Except.toOption_eq_some.1 (by decide +kernel), ⟨given, hgiven, ?_⟩, edit, c,
    Except.toOption_eq_some.1 hedit, hc, ?_⟩
  · exact of_decide_eq_true hguaranteed
  · simpa using hlost

end PodSizing
