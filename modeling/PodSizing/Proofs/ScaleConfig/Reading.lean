import PodSizing.Proofs.FirstFailure
import PodSizing.Proofs.Resource
import PodSizing.Proofs.ScaleConfig

/-!
# What a configuration is read from

Seven annotations, and which resources are managed, decide what is read: the quantities, each under its own
text, or the error of the first annotation that has none. Nothing else on a pod makes a difference, nor does
the order in which the managed resources are listed.
-/
namespace PodSizing

/-- The annotations that configure a pod. -/
def Key.scale : List String :=
  Key.targetContainerName :: ResourceName.all.flatMap ResourceName.keys

/-- An annotation of a managed resource. -/
structure Setting where
  resource : ResourceName
  key : String

namespace Setting

def ofResource (r : ResourceName) : List Setting := r.keys.map (⟨r, ·⟩)

/-- The annotations that have to be there, in the order in which they are read. -/
def all (enabled : List ResourceName) : List Setting :=
  (ResourceName.all.filter enabled.contains).flatMap ofResource

/-- Why an annotation gives no quantity. -/
inductive Fails (p : Pod) : Setting → ScaleConfigError → Prop
  | missing {s : Setting} (h : p.annotation? s.key = none) : Fails p s (.missingKey s.resource s.key)
  | unreadable {s : Setting} {value : String} {error : QuantityError}
      (h : p.annotation? s.key = some value) (hparse : Quantity.parse value = .error error) :
      Fails p s (.invalidQuantity s.key value error)

end Setting

namespace ScaleConfig
variable {p : Pod}

theorem quantityOf_eq_error {r : ResourceName} {key : String} {e : ScaleConfigError} :
    quantityOf p r key = .error e ↔ Setting.Fails p ⟨r, key⟩ e := by
  constructor
  · intro h
    unfold quantityOf at h
    split at h
    · next hnone =>
      cases h
      exact .missing hnone
    · next value hvalue =>
      split at h
      · cases h
      · next error hparse =>
        cases h
        exact .unreadable hvalue hparse
  · intro h
    cases h with
    | missing h => simp only [quantityOf, h]
    | unreadable h hparse => simp only [quantityOf, h, hparse]

theorem reports_managed (p : Pod) (r : ResourceName) :
    ReportsFirst (Setting.Fails p) (Setting.ofResource r) (managed p r) := by
  have hquantity (key : String) : ReportsFirst (Setting.Fails p) [⟨r, key⟩] (quantityOf p r key) :=
    .single fun _ => quantityOf_eq_error
  exact (hquantity _).bind fun _ _ => (hquantity _).bind fun _ _ => (hquantity _).map_ok

end ScaleConfig

namespace ScaleConfigs
variable {p q : Pod} {enabled enabled' : List ResourceName}

theorem reports_configOf (p : Pod) (enabled : List ResourceName) (r : ResourceName) :
    ReportsFirst (Setting.Fails p) (([r].filter enabled.contains).flatMap Setting.ofResource)
      (configOf p enabled r) := by
  unfold configOf
  split
  · next h =>
    rw [List.filter_cons_of_pos h, List.filter_nil, List.flatMap_singleton]
    exact ScaleConfig.reports_managed p r
  · next h =>
    rw [List.filter_cons_of_neg h, List.filter_nil]
    exact .ok _

/-- What is read is the error of the first annotation that gives no quantity, if there is one. -/
theorem reports_ofPod (p : Pod) (enabled : List ResourceName) :
    ReportsFirst (Setting.Fails p) (Setting.all enabled) (ofPod p enabled) := by
  have hsplit : Setting.all enabled =
      ([ResourceName.cpu].filter enabled.contains).flatMap Setting.ofResource ++
        ([ResourceName.memory].filter enabled.contains).flatMap Setting.ofResource := by
    rw [← List.flatMap_append, ← List.filter_append]
    rfl
  rw [hsplit]
  exact (reports_configOf p enabled .cpu).bind fun _ _ => (reports_configOf p enabled .memory).map_ok

/-- Pods with the same seven annotations are read alike, however the same resources are listed. -/
theorem ofPod_agree (hkeys : ∀ key ∈ Key.scale, p.annotation? key = q.annotation? key)
    (hmembers : ∀ r, r ∈ enabled ↔ r ∈ enabled') : ofPod p enabled = ofPod q enabled' := by
  have hquantity (r : ResourceName) (key : String) (hkey : key ∈ Key.scale) :
      ScaleConfig.quantityOf p r key = ScaleConfig.quantityOf q r key := by
    simp only [ScaleConfig.quantityOf, hkeys key hkey]
  have htarget : ScaleConfig.targetNameOf p = ScaleConfig.targetNameOf q := by
    simp only [ScaleConfig.targetNameOf, hkeys Key.targetContainerName List.mem_cons_self]
  have hconfig (r : ResourceName) : configOf p enabled r = configOf q enabled' r := by
    have hscale : ∀ key ∈ r.keys, key ∈ Key.scale := by cases r <;> decide
    have hcontains : enabled.contains r = enabled'.contains r := by
      rw [Bool.eq_iff_iff, List.contains_iff_mem, List.contains_iff_mem]
      exact hmembers r
    have hstray : r.keys.filter p.hasAnnotation = r.keys.filter q.hasAnnotation :=
      List.filter_congr fun key hkey => by
        simp only [Pod.hasAnnotation, hkeys key (hscale key hkey)]
    have hstartup := hquantity r r.startupKey (hscale _ (by simp [ResourceName.keys]))
    have hrequests := hquantity r r.postStartupRequestsKey (hscale _ (by simp [ResourceName.keys]))
    have hlimits := hquantity r r.postStartupLimitsKey (hscale _ (by simp [ResourceName.keys]))
    simp only [configOf, ScaleConfig.managed, ScaleConfig.unmanaged, hcontains, hstartup, hrequests,
      hlimits, htarget, hstray]
  simp only [ofPod, hconfig]

/-- What is read depends on the seven annotations and on the set of managed resources alone: an error is
that of the first annotation that gives no quantity, and a configuration manages just those resources, in
order, and keeps each amount under a text that stands for it. -/
theorem ofPod_determined (p : Pod) (enabled : List ResourceName) :
    (∀ (q : Pod) (enabled' : List ResourceName),
        (∀ key ∈ Key.scale, p.annotation? key = q.annotation? key) →
        (∀ r, r ∈ enabled ↔ r ∈ enabled') → ofPod q enabled' = ofPod p enabled) ∧
      (∀ e, ofPod p enabled = .error e ↔
        FirstFailure (Setting.Fails p) (Setting.all enabled) e) ∧
      (∀ configs, ofPod p enabled = .ok configs →
        configs.enabledNames.Pairwise (· < ·) ∧
          (∀ r, r ∈ configs.enabledNames ↔ r ∈ enabled) ∧
          ∀ config ∈ configs.all, ∀ resources, config.resources = some resources →
            resources.Sound) := by
  refine ⟨fun q enabled' hkeys hmembers => (ofPod_agree hkeys hmembers).symm,
    reports_ofPod p enabled, fun configs hconfigs => ?_⟩
  have hnames : configs.enabledNames = ResourceName.all.filter enabled.contains :=
    ofPod_enabledNames hconfigs
  rw [hnames]
  refine ⟨ResourceName.filter_all_ascending _, fun r => ?_, (ofPod_sound hconfigs).amounts⟩
  rw [ResourceName.mem_filter_all, List.contains_iff_mem]

def halfConfigured : Pod where
  metadata :=
    { annotations := some (.ofList
        [(Key.targetContainerName, "app"), (ResourceName.cpu.startupKey, " 3m "),
          (ResourceName.cpu.postStartupRequestsKey, "1m"),
          (ResourceName.cpu.postStartupLimitsKey, "1m"), (ResourceName.memory.startupKey, "lots")]) }

/-- A status makes no difference to it, nor does listing the resource twice; managing the memory as well is
an error about its first annotation, though the others are missing and it is listed before. -/
theorem halfConfigured_determined :
    ofPod (halfConfigured.setAnnotation Key.status "told") [.cpu, .cpu] =
        ofPod halfConfigured [.cpu] ∧
      (∃ configs, ofPod halfConfigured [.cpu] = .ok configs ∧
        (∀ r, r ∈ configs.enabledNames ↔ r ∈ [ResourceName.cpu]) ∧
        ∀ config ∈ configs.all, ∀ resources, config.resources = some resources → resources.Sound) ∧
      ofPod halfConfigured [.memory, .cpu] =
        .error (.invalidQuantity ResourceName.memory.startupKey "lots" (.invalidNumber "lots")) := by
  obtain ⟨hagree, -, hok⟩ := ofPod_determined halfConfigured [.cpu]
  have hsame := hagree (halfConfigured.setAnnotation Key.status "told") [.cpu, .cpu]
    (by decide +kernel) (by simp)
  have hread : (ofPod halfConfigured [.cpu]).toOption.isSome = true := by decide +kernel
  obtain ⟨configs, hconfigs⟩ := Option.isSome_iff_exists.1 hread
  have hconfigs := Except.toOption_eq_some.1 hconfigs
  obtain ⟨-, hnames, hsound⟩ := hok configs hconfigs
  refine ⟨hsame, ⟨configs, hconfigs, hnames, hsound⟩, ?_⟩
  have hcpu : (ScaleConfig.managed halfConfigured .cpu).toOption.isSome = true := by decide +kernel
  obtain ⟨cpu, hcpu⟩ := Option.isSome_iff_exists.1 hcpu
  have hpass := (ScaleConfig.reports_managed halfConfigured .cpu).passes (Except.toOption_eq_some.1 hcpu)
  have hlots : Setting.Fails halfConfigured ⟨.memory, ResourceName.memory.startupKey⟩
      (.invalidQuantity ResourceName.memory.startupKey "lots" (.invalidNumber "lots")) :=
    .unreadable (by decide +kernel) (by rfl)
  exact ((ofPod_determined halfConfigured [.memory, .cpu]).2.1 _).2
    ⟨Setting.ofResource .cpu, _, _, rfl, hpass, hlots⟩

end ScaleConfigs
end PodSizing
