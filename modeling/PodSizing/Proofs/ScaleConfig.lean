import PodSizing.Classification
import PodSizing.Proofs.Except
import PodSizing.Proofs.Mutation.Resources
import PodSizing.Proofs.Text.Basic
import PodSizing.Routing

/-!
# Configured quantities

A configuration that has been read keeps, for each managed resource, texts that stand for the amounts
next to them. So a container that is given the quantities of a direction has its amounts.
-/
namespace PodSizing

theorem Quantity.parse_trim (s : String) : Quantity.parse (Text.trim s) = Quantity.parse s := by
  simp only [Quantity.parse, Text.toList_trim, Text.trimChars_trimChars]

theorem amount?_eq_some {quantity : Option String} {amount : MilliValue} :
    amount? quantity = some amount ↔
      ∃ text, quantity = some text ∧ Quantity.parse text = .ok amount := by
  simp [amount?, Quantity.parse?, Option.bind_eq_some_iff, Except.toOption_eq_some]

theorem amount?_of_parse {text : String} {amount : MilliValue}
    (h : Quantity.parse text = .ok amount) : amount? (some text) = some amount :=
  amount?_eq_some.2 ⟨text, rfl, h⟩

/-- The text stands for the amount. -/
def ConfiguredQuantity.Sound (q : ConfiguredQuantity) : Prop := Quantity.parse q.text = .ok q.value

structure ScaleResources.Sound (r : ScaleResources) : Prop where
  startup : r.startup.Sound
  postStartupRequests : r.postStartupRequests.Sound
  postStartupLimits : r.postStartupLimits.Sound

/-- Each configuration is for its own resource, and its texts stand for its amounts. -/
structure ScaleConfigs.Sound (c : ScaleConfigs) : Prop where
  cpu : c.cpu.resource = .cpu
  memory : c.memory.resource = .memory
  amounts : ∀ config ∈ c.all, ∀ r, config.resources = some r → r.Sound

namespace ScaleConfig
variable {p : Pod} {resource : ResourceName}

theorem quantityOf_eq_ok {key : String} {q : ConfiguredQuantity} :
    quantityOf p resource key = .ok q ↔ ∃ value, p.annotation? key = some value ∧
      Quantity.parse value = .ok q.value ∧ q.text = Text.trim value := by
  constructor
  · intro h
    unfold quantityOf at h
    split at h
    · cases h
    · next value hvalue =>
      split at h
      · next amount hparse =>
        cases h
        exact ⟨value, hvalue, hparse, rfl⟩
      · cases h
  · rintro ⟨value, hvalue, hparse, htext⟩
    simp only [quantityOf, hvalue, hparse, ← htext]

theorem managed_eq_ok {c : ScaleConfig} :
    managed p resource = .ok c ↔ ∃ startup requests limits,
      quantityOf p resource resource.startupKey = .ok startup ∧
      quantityOf p resource resource.postStartupRequestsKey = .ok requests ∧
      quantityOf p resource resource.postStartupLimitsKey = .ok limits ∧
      c = ⟨resource, targetNameOf p, some ⟨startup, requests, limits⟩, []⟩ := by
  simp only [managed, Except.bind_eq_ok, pure, Except.pure, Except.ok.injEq]
  constructor
  · rintro ⟨startup, hstartup, requests, hrequests, limits, hlimits, rfl⟩
    exact ⟨startup, requests, limits, hstartup, hrequests, hlimits, rfl⟩
  · rintro ⟨startup, requests, limits, hstartup, hrequests, hlimits, rfl⟩
    exact ⟨startup, hstartup, requests, hrequests, limits, hlimits, rfl⟩

theorem quantityOf_sound {key : String} {q : ConfiguredQuantity}
    (h : quantityOf p resource key = .ok q) : q.Sound := by
  obtain ⟨value, -, hparse, htext⟩ := quantityOf_eq_ok.1 h
  rw [ConfiguredQuantity.Sound, htext, Quantity.parse_trim]
  exact hparse

theorem managed_sound {c : ScaleConfig} (h : managed p resource = .ok c) :
    c.resource = resource ∧ ∀ r, c.resources = some r → r.Sound := by
  obtain ⟨startup, requests, limits, hstartup, hrequests, hlimits, rfl⟩ := managed_eq_ok.1 h
  refine ⟨rfl, fun r hr => ?_⟩
  cases hr
  exact ⟨quantityOf_sound hstartup, quantityOf_sound hrequests, quantityOf_sound hlimits⟩

end ScaleConfig

namespace ScaleConfigs
variable {p : Pod} {enabled : List ResourceName}

theorem configOf_sound {resource : ResourceName} {c : ScaleConfig}
    (h : configOf p enabled resource = .ok c) :
    c.resource = resource ∧ ∀ r, c.resources = some r → r.Sound := by
  unfold configOf at h
  split at h
  · exact ScaleConfig.managed_sound h
  · cases h
    exact ⟨rfl, fun r hr => by cases hr⟩

theorem ofPod_eq_ok {c : ScaleConfigs} : ofPod p enabled = .ok c ↔
    configOf p enabled .cpu = .ok c.cpu ∧ configOf p enabled .memory = .ok c.memory := by
  simp only [ofPod, Except.bind_eq_ok, pure, Except.pure, Except.ok.injEq]
  constructor
  · rintro ⟨cpu, hcpu, memory, hmemory, rfl⟩
    exact ⟨hcpu, hmemory⟩
  · rintro ⟨hcpu, hmemory⟩
    exact ⟨c.cpu, hcpu, c.memory, hmemory, rfl⟩

theorem ofPod_sound {c : ScaleConfigs} (h : ofPod p enabled = .ok c) : c.Sound := by
  obtain ⟨hcpu, hmemory⟩ := ofPod_eq_ok.1 h
  refine ⟨(configOf_sound hcpu).1, (configOf_sound hmemory).1, fun config hconfig => ?_⟩
  simp only [all, List.mem_cons, List.not_mem_nil, or_false] at hconfig
  rcases hconfig with rfl | rfl
  · exact (configOf_sound hcpu).2
  · exact (configOf_sound hmemory).2

theorem configOf_isEnabled {resource : ResourceName} {c : ScaleConfig}
    (h : configOf p enabled resource = .ok c) : c.isEnabled = enabled.contains resource := by
  unfold configOf at h
  split at h
  · next hcontains =>
    obtain ⟨startup, requests, limits, -, -, -, rfl⟩ := ScaleConfig.managed_eq_ok.1 h
    exact hcontains.symm
  · next hcontains =>
    cases h
    exact (Bool.not_eq_true _ ▸ hcontains).symm

/-- Which resources are configured is not up to the pod. -/
theorem ofPod_enabledNames {c : ScaleConfigs} (h : ofPod p enabled = .ok c) :
    c.enabledNames = [ResourceName.cpu, .memory].filter enabled.contains := by
  have hsound := ofPod_sound h
  obtain ⟨hcpu, hmemory⟩ := ofPod_eq_ok.1 h
  have hfilter : c.all.filter (·.isEnabled) =
      c.all.filter fun config => enabled.contains config.resource := by
    simp only [all, List.filter_cons, List.filter_nil, configOf_isEnabled hcpu,
      configOf_isEnabled hmemory, hsound.cpu, hsound.memory]
  have hmap : c.all.map (·.resource) = [.cpu, .memory] := by
    rw [all, List.map_cons, List.map_singleton, hsound.cpu, hsound.memory]
  rw [enabledNames, ScaleConfigs.enabled, hfilter, ← hmap, List.filter_map]
  rfl

end ScaleConfigs

def ScaleResources.wanted (r : ScaleResources) : Direction → ConfiguredQuantity × ConfiguredQuantity
  | .up => (r.startup, r.startup)
  | .down => (r.postStartupRequests, r.postStartupLimits)

theorem ScaleResources.Sound.wanted {r : ScaleResources} (h : r.Sound) (direction : Direction) :
    (r.wanted direction).1.Sound ∧ (r.wanted direction).2.Sound := by
  cases direction with
  | up => exact ⟨h.startup, h.startup⟩
  | down => exact ⟨h.postStartupRequests, h.postStartupLimits⟩

def ScaleConfig.update? (c : ScaleConfig) (direction : Direction) : Option ResourceUpdate :=
  c.resources.map fun r =>
    ⟨c.resource, (r.wanted direction).1.text, (r.wanted direction).2.text⟩

def ScaleConfigs.updates (c : ScaleConfigs) (direction : Direction) : List ResourceUpdate :=
  c.enabled.filterMap (·.update? direction)

theorem Target.updates_eq (t : Target) (direction : Direction) :
    t.updates direction = t.configs.updates direction := by
  cases direction <;> rfl

namespace ScaleConfigs.Sound
variable {c : ScaleConfigs}

theorem enabled (h : c.Sound) {config : ScaleConfig} (hconfig : config ∈ c.enabled) :
    ∃ r, config.resources = some r ∧ r.Sound := by
  obtain ⟨hall, henabled⟩ := List.mem_filter.1 hconfig
  obtain ⟨r, hr⟩ := Option.isSome_iff_exists.1 henabled
  exact ⟨r, hr, h.amounts config hall r hr⟩

theorem updates_pairwise (h : c.Sound) (direction : Direction) :
    (c.updates direction).Pairwise fun u v => u.resource.text ≠ v.resource.text := by
  have hall : c.all.Pairwise fun a b => a.resource.text ≠ b.resource.text := by
    simp [ScaleConfigs.all, h.cpu, h.memory, ResourceName.text]
  refine List.pairwise_filterMap.2 ((hall.filter _).imp fun hne u hu v hv => ?_)
  obtain ⟨_, -, rfl⟩ := Option.map_eq_some_iff.1 hu
  obtain ⟨_, -, rfl⟩ := Option.map_eq_some_iff.1 hv
  exact hne

theorem amounts_withUpdates (h : c.Sound) (direction : Direction) (container : Container)
    {config : ScaleConfig} (hconfig : config ∈ c.enabled) {r : ScaleResources}
    (hr : config.resources = some r) :
    (container.withUpdates (c.updates direction)).request? config.resource.text =
        some (r.wanted direction).1.text ∧
      (container.withUpdates (c.updates direction)).limit? config.resource.text =
        some (r.wanted direction).2.text := by
  have hupdate : config.update? direction =
      some ⟨config.resource, (r.wanted direction).1.text, (r.wanted direction).2.text⟩ := by
    simp [ScaleConfig.update?, hr]
  have hmem : ⟨config.resource, (r.wanted direction).1.text, (r.wanted direction).2.text⟩ ∈
      c.updates direction := List.mem_filterMap.2 ⟨config, hconfig, hupdate⟩
  exact ⟨container.quantity?_withUpdates (h.updates_pairwise direction) .request _ hmem,
    container.quantity?_withUpdates (h.updates_pairwise direction) .limit _ hmem⟩

/-- A container that is given the quantities of a direction has just their amounts. -/
theorem hasAmounts_withUpdates (h : c.Sound) (direction : Direction) (container : Container)
    {config : ScaleConfig} (hconfig : config ∈ c.enabled) {r : ScaleResources}
    (hr : config.resources = some r) (request limit : MilliValue) :
    (container.withUpdates (c.updates direction)).hasAmounts config.resource request limit = true ↔
      (r.wanted direction).1.value = request ∧ (r.wanted direction).2.value = limit := by
  have hsound := (h.amounts config (List.mem_filter.1 hconfig).1 r hr).wanted direction
  have htexts := h.amounts_withUpdates direction container hconfig hr
  simp [Container.hasAmounts, Container.requestAmount?, Container.limitAmount?, htexts,
    amount?_of_parse hsound.1, amount?_of_parse hsound.2]

end ScaleConfigs.Sound

/-- Whether a resource is to have the same amounts before and after startup. -/
def ScaleConfig.ties (c : ScaleConfig) : Bool :=
  match c.resources with
  | some r =>
    r.startup.value = r.postStartupRequests.value && r.startup.value = r.postStartupLimits.value
  | none => true

namespace ScaleConfigs.Sound
variable {c : ScaleConfigs}

theorem isAtStartup_up (h : c.Sound) (container : Container) {config : ScaleConfig}
    (hconfig : config ∈ c.enabled) :
    (container.withUpdates (c.updates .up)).isAtStartup config = true := by
  obtain ⟨r, hr, -⟩ := h.enabled hconfig
  simp only [Container.isAtStartup, hr]
  exact (h.hasAmounts_withUpdates .up container hconfig hr _ _).2 ⟨rfl, rfl⟩

theorem isAtPostStartup_down (h : c.Sound) (container : Container) {config : ScaleConfig}
    (hconfig : config ∈ c.enabled) :
    (container.withUpdates (c.updates .down)).isAtPostStartup config = true := by
  obtain ⟨r, hr, -⟩ := h.enabled hconfig
  simp only [Container.isAtPostStartup, hr]
  exact (h.hasAmounts_withUpdates .down container hconfig hr _ _).2 ⟨rfl, rfl⟩

theorem isAtStartup_down (h : c.Sound) (container : Container) {config : ScaleConfig}
    (hconfig : config ∈ c.enabled) :
    (container.withUpdates (c.updates .down)).isAtStartup config = config.ties := by
  obtain ⟨r, hr, -⟩ := h.enabled hconfig
  simp only [Container.isAtStartup, ScaleConfig.ties, hr]
  rw [Bool.eq_iff_iff, h.hasAmounts_withUpdates .down container hconfig hr]
  simp [ScaleResources.wanted, eq_comm (a := r.startup.value)]

theorem resourcesState_up (h : c.Sound) (container : Container) :
    (container.withUpdates (c.updates .up)).resourcesState c = .startup := by
  have hall : c.enabled.all (container.withUpdates (c.updates .up)).isAtStartup = true :=
    List.all_eq_true.2 fun _ hconfig => h.isAtStartup_up container hconfig
  simp [Container.resourcesState, hall]

/-- Given what it is to have after startup, a container is taken to be at startup just where the two
sets of amounts are one. -/
theorem resourcesState_down (h : c.Sound) (container : Container) :
    (container.withUpdates (c.updates .down)).resourcesState c =
      if c.enabled.all (·.ties) then .startup else .postStartup := by
  have hstartup : c.enabled.all (container.withUpdates (c.updates .down)).isAtStartup =
      c.enabled.all (·.ties) := by
    rw [Bool.eq_iff_iff, List.all_eq_true, List.all_eq_true]
    exact forall₂_congr fun config hconfig => by rw [h.isAtStartup_down container hconfig]
  have hpost : c.enabled.all (container.withUpdates (c.updates .down)).isAtPostStartup = true :=
    List.all_eq_true.2 fun _ hconfig => h.isAtPostStartup_down container hconfig
  simp only [Container.resourcesState, hstartup, hpost, if_true]

end ScaleConfigs.Sound
end PodSizing
