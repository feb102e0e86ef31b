import PodSizing.Proofs.Eligibility
import PodSizing.Proofs.ScaleConfig.Reading

/-!
# What is asked of a pod that is to be managed

The demands on a pod, on its target container and on the configured quantities, each with the error that says
how it is not met. The checks make them in one order, and report the first that is not met.
-/
namespace PodSizing

def Pod.NamesTarget (p : Pod) : Prop :=
  ∃ text, p.annotation? Key.targetContainerName = some text ∧
    ∃ c ∈ text.toList, Text.isBlank c = false

/-- What is asked of a pod, one thing at a time. -/
inductive Demand where
  | optIn
  | noAutoscaler
  | container
  | probe
  | quality
  | someResource
  | target
  /-- What is not managed is not configured either. -/
  | unconfigured (r : ResourceName)
  /-- There are a request and a limit. -/
  | quantities (r : ResourceName)
  | readable (side : Side) (r : ResourceName)
  /-- The request equals the limit. -/
  | balance (r : ResourceName)
  | policy (r : ResourceName)
  /-- After startup, no more is requested than before. -/
  | startup (r : ResourceName)
  /-- After startup, the request equals the limit. -/
  | postStartup (r : ResourceName)

namespace Demand

def ofResource (enabled : List ResourceName) (r : ResourceName) : List Demand :=
  if enabled.contains r then
    [.quantities r, .readable .request r, .readable .limit r, .balance r, .policy r, .startup r,
      .postStartup r]
  else [.unconfigured r]

/-- All demands, in the order in which they are checked. -/
def all (enabled : List ResourceName) : List Demand :=
  [.optIn, .noAutoscaler, .container, .probe, .quality, .someResource, .target] ++
    ResourceName.all.flatMap (ofResource enabled)

def managed? : Demand → Option ResourceName
  | .quantities r | .readable _ r | .balance r | .policy r | .startup r | .postStartup r => some r
  | _ => none

/-- How a demand is not met, and the error that says so. -/
inductive Fails (p : Pod) (name : String) (enabled : List ResourceName) : Demand → Ineligibility → Prop
  | optIn (h : p.label? Key.enabled ≠ some "true") :
      Fails p name enabled .optIn (.notEnabled ((p.label? Key.enabled).getD ""))
  | noAutoscaler {before after : List String} {key : String}
      (hmarks : Key.autoscalerMarks = before ++ key :: after)
      (hbefore : ∀ k ∈ before, p.annotation? k = none) (h : p.annotation? key ≠ none) :
      Fails p name enabled .noAutoscaler (.autoscalerMark key)
  | container (h : p.container? name = none) :
      Fails p name enabled .container (.containerNotInSpec name)
  | probe {c : Container} (hc : p.container? name = some c) (hstartup : c.startupProbe = none)
      (hreadiness : c.readinessProbe = none) : Fails p name enabled .probe .noProbe
  | quality (h : p.qosClass? ≠ some "Guaranteed") :
      Fails p name enabled .quality (.notGuaranteed (p.qosClass?.getD ""))
  | someResource (h : enabled = []) : Fails p name enabled .someResource .noResourcesEnabled
  | target (h : ¬ p.NamesTarget) : Fails p name enabled .target .emptyTargetContainerName
  | unconfigured {r : ResourceName} {key : String} (hkey : key ∈ r.keys)
      (h : p.annotation? key ≠ none) :
      Fails p name enabled (.unconfigured r)
        (.annotationsOnDisabledResource r (r.keys.filter p.hasAnnotation))
  | quantities {r : ResourceName} {c : Container} (hc : p.container? name = some c)
      (h : c.request? r.text = none ∨ c.limit? r.text = none) :
      Fails p name enabled (.quantities r) (.missingContainerResources r)
  | readable {side : Side} {r : ResourceName} {c : Container} {text : String} {error : QuantityError}
      (hc : p.container? name = some c) (h : c.quantity? side r.text = some text)
      (hparse : Quantity.parse text = .error error) :
      Fails p name enabled (.readable side r) (.invalidContainerQuantity r error)
  | balance {r : ResourceName} {c : Container} {request limit : MilliValue}
      (hc : p.container? name = some c) (hrequest : c.requestAmount? r = some request)
      (hlimit : c.limitAmount? r = some limit) (h : request ≠ limit) :
      Fails p name enabled (.balance r) (.requestsNotEqualLimits r)
  | policy {r : ResourceName} {c : Container} (hc : p.container? name = some c)
      (h : c.restartPolicy? r.text ≠ some "NotRequired") :
      Fails p name enabled (.policy r)
        (.resizeRestartPolicy r ((c.restartPolicy? r.text).getD "<none>") "NotRequired")
  | startup {r : ResourceName} {startup requests : MilliValue}
      (hstartup : amount? (p.annotation? r.startupKey) = some startup)
      (hrequests : amount? (p.annotation? r.postStartupRequestsKey) = some requests)
      (h : startup.millis < requests.millis) :
      Fails p name enabled (.startup r) (.startupBelowPostStartupRequests r)
  | postStartup {r : ResourceName} {requests limits : MilliValue}
      (hrequests : amount? (p.annotation? r.postStartupRequestsKey) = some requests)
      (hlimits : amount? (p.annotation? r.postStartupLimitsKey) = some limits)
      (h : requests ≠ limits) :
      Fails p name enabled (.postStartup r) (.postStartupRequestsNotEqualLimits r)

end Demand

section Checks
variable {p : Pod} {name : String} {enabled : List ResourceName}

theorem Pod.reports_checkOptIn :
    ReportsFirst (Demand.Fails p name enabled) [.optIn] p.checkOptIn := by
  refine .failIf fun e => ?_
  rw [bne_iff_ne]
  constructor
  · intro hfails
    cases hfails with
    | optIn h => exact ⟨h, rfl⟩
  · rintro ⟨h, rfl⟩
    exact .optIn h

theorem Pod.reports_checkAutoscaler :
    ReportsFirst (Demand.Fails p name enabled) [.noAutoscaler] p.checkAutoscaler := by
  have hhas (key : String) : p.hasAnnotation key = true ↔ p.annotation? key ≠ none := by
    simp [Pod.hasAnnotation, Option.isSome_iff_ne_none]
  refine .single fun e => ?_
  unfold Pod.checkAutoscaler
  constructor
  · intro h
    split at h
    · next key hfind =>
      cases h
      obtain ⟨hkey, before, after, hmarks, hbefore⟩ := List.find?_eq_some_iff_append.1 hfind
      refine .noAutoscaler hmarks (fun k hk => ?_) ((hhas key).1 hkey)
      simpa [Pod.hasAnnotation] using hbefore k hk
    · cases h
  · intro hfails
    cases hfails with
    | @noAutoscaler before after key hmarks hbefore h =>
      have hfind : Key.autoscalerMarks.find? p.hasAnnotation = some key :=
        List.find?_eq_some_iff_append.2 ⟨(hhas key).2 h, before, after, hmarks, fun k hk => by
          simp [Pod.hasAnnotation, hbefore k hk]⟩
      rw [hfind]

theorem Pod.checkAutoscaler_eq_ok :
    (∃ u, p.checkAutoscaler = .ok u) ↔ ∀ key ∈ Key.autoscalerMarks, p.annotation? key = none := by
  unfold Pod.checkAutoscaler
  cases hfind : Key.autoscalerMarks.find? p.hasAnnotation with
  | none => simpa [Pod.hasAnnotation] using List.find?_eq_none.1 hfind
  | some key =>
    have hset : p.annotation? key ≠ none :=
      Option.isSome_iff_ne_none.1 (List.find?_some hfind : p.hasAnnotation key = true)
    have hmark : key ∈ Key.autoscalerMarks := List.mem_of_find?_eq_some hfind
    constructor
    · rintro ⟨_, h⟩
      cases h
    · exact fun h => absurd (h key hmark) hset

theorem Pod.reports_targetContainer :
    ReportsFirst (Demand.Fails p name enabled) [.container] (p.targetContainer name) := by
  refine .single fun e => ?_
  unfold Pod.targetContainer Pod.container
  constructor
  · intro h
    cases hc : p.container? name with
    | none =>
      rw [hc] at h
      cases h
      exact .container hc
    | some c =>
      rw [hc] at h
      cases h
  · intro hfails
    cases hfails with
    | container h =>
      rw [h]
      rfl

theorem Pod.reports_probe {c : Container} (hc : p.container? name = some c) :
    ReportsFirst (Demand.Fails p name enabled) [.probe]
      (failIf (!c.hasStartupProbe && !c.hasReadinessProbe) .noProbe) := by
  have hcondition : (!c.hasStartupProbe && !c.hasReadinessProbe) = true ↔
      c.startupProbe = none ∧ c.readinessProbe = none := by
    simp [Container.hasStartupProbe, Container.hasReadinessProbe]
  refine .failIf fun e => ?_
  rw [hcondition]
  constructor
  · intro hfails
    cases hfails with
    | probe hd hstartup hreadiness =>
      cases hc.symm.trans hd
      exact ⟨⟨hstartup, hreadiness⟩, rfl⟩
  · rintro ⟨⟨hstartup, hreadiness⟩, rfl⟩
    exact .probe hc hstartup hreadiness

theorem Pod.reports_quality :
    ReportsFirst (Demand.Fails p name enabled) [.quality]
      (failIf (!p.isGuaranteed) (.notGuaranteed (p.qosClass?.getD ""))) := by
  have hcondition : (!p.isGuaranteed) = true ↔ p.qosClass? ≠ some "Guaranteed" := by
    simp [Pod.isGuaranteed]
  refine .failIf fun e => ?_
  rw [hcondition]
  constructor
  · intro hfails
    cases hfails with
    | quality h => exact ⟨h, rfl⟩
  · rintro ⟨h, rfl⟩
    exact .quality h

end Checks

namespace ScaleConfigs
variable {p : Pod} {name : String} {enabled : List ResourceName} {configs : ScaleConfigs}

theorem targetName_of_mem (h : ofPod p enabled = .ok configs) {config : ScaleConfig}
    (hconfig : config ∈ configs.all) : config.targetName = ScaleConfig.targetNameOf p := by
  have hof {r : ResourceName} {c : ScaleConfig} (hc : configOf p enabled r = .ok c) :
      c.targetName = ScaleConfig.targetNameOf p := by
    unfold configOf at hc
    split at hc
    · obtain ⟨_, _, _, -, -, -, rfl⟩ := ScaleConfig.managed_eq_ok.1 hc
      rfl
    · cases hc
      rfl
  obtain ⟨hcpu, hmemory⟩ := ofPod_eq_ok.1 h
  simp only [all, List.mem_cons, List.not_mem_nil, or_false] at hconfig
  rcases hconfig with rfl | rfl
  · exact hof hcpu
  · exact hof hmemory

theorem forM_checkName {expected : String} {rest : List ScaleConfig}
    (h : ∀ c ∈ rest, c.targetName.getD "" = expected) : rest.forM (checkName expected) = .ok () := by
  induction rest with
  | nil => rfl
  | cons c rest ih =>
    have hc : checkName expected c = .ok () := by
      simp [checkName, failIf, h c List.mem_cons_self]
    show (checkName expected c >>= fun _ => rest.forM (checkName expected)) = .ok ()
    rw [hc]
    exact ih fun d hd => h d (List.mem_cons_of_mem c hd)

theorem enabled_eq_nil (h : ofPod p enabled = .ok configs) (hnone : configs.enabled = []) :
    enabled = [] := by
  have hnames := ofPod_enabledNames h
  rw [enabledNames, hnone, List.map_nil] at hnames
  refine List.eq_nil_iff_forall_not_mem.2 fun r hr => ?_
  have hmem : r ∈ ResourceName.all.filter enabled.contains :=
    ResourceName.mem_filter_all.2 (List.contains_iff_mem.2 hr)
  rw [show ResourceName.all.filter enabled.contains = [] from hnames.symm] at hmem
  cases hmem

theorem targetNameOf_isEmpty : ((ScaleConfig.targetNameOf p).getD "").isEmpty = true ↔
    ¬ p.NamesTarget := by
  unfold ScaleConfig.targetNameOf Pod.NamesTarget
  cases p.annotation? Key.targetContainerName with
  | none => simp
  | some text =>
    rw [Option.map_some, Option.getD_some, Text.trim_isEmpty_iff]
    simp

theorem reports_validateCollection (h : ofPod p enabled = .ok configs) :
    ReportsFirst (Demand.Fails p name enabled) [.someResource, .target] configs.validateCollection := by
  cases henabled : configs.enabled with
  | nil =>
    simp only [validateCollection, henabled]
    refine .stop (.someResource (enabled_eq_nil h henabled)) fun e he => ?_
    cases he
    rfl
  | cons first rest =>
    have htarget (c : ScaleConfig) (hc : c ∈ first :: rest) :
        c.targetName = ScaleConfig.targetNameOf p :=
      targetName_of_mem h (List.mem_filter.1 (henabled ▸ hc : c ∈ configs.enabled)).1
    have hrest : rest.forM (checkName ((ScaleConfig.targetNameOf p).getD "")) = .ok () :=
      forM_checkName fun c hc => by rw [htarget c (List.mem_cons_of_mem first hc)]
    simp only [validateCollection, henabled, htarget first List.mem_cons_self, hrest]
    refine .skip (fun e he => ?_) (ReportsFirst.map_ok (.failIf fun e => ?_))
    · cases he with
      | someResource hnone =>
        have hnames := ofPod_enabledNames h
        simp [enabledNames, henabled, hnone] at hnames
    · rw [targetNameOf_isEmpty]
      constructor
      · intro hfails
        cases hfails with
        | target h => exact ⟨h, rfl⟩
      · rintro ⟨h, rfl⟩
        exact .target h

end ScaleConfigs

namespace ScaleConfig
variable {p : Pod} {name : String} {enabled : List ResourceName} {r : ResourceName} {c : Container}
  {config : ScaleConfig}

theorem reports_unmanaged (p : Pod) (name : String) (enabled : List ResourceName) (r : ResourceName)
    (c : Container) :
    ReportsFirst (Demand.Fails p name enabled) [.unconfigured r] ((unmanaged p r).validateAgainst c) := by
  have hcondition : (!(r.keys.filter p.hasAnnotation).isEmpty) = true ↔
      ∃ key ∈ r.keys, p.annotation? key ≠ none := by
    simp [Pod.hasAnnotation, Option.isSome_iff_ne_none]
  refine .failIf fun e => ?_
  show _ ↔ (!(r.keys.filter p.hasAnnotation).isEmpty) = true ∧ _
  rw [hcondition]
  constructor
  · intro hfails
    cases hfails with
    | unconfigured hkey h => exact ⟨⟨_, hkey, h⟩, rfl⟩
  · rintro ⟨⟨key, hkey, h⟩, rfl⟩
    exact .unconfigured hkey h

theorem reports_readable (hc : p.container? name = some c) (side : Side) {text : String}
    (htext : c.quantity? side r.text = some text) :
    ReportsFirst (Demand.Fails p name enabled) [.readable side r]
      ((Quantity.parse text).mapError (Ineligibility.invalidContainerQuantity r)) := by
  refine .single fun e => ?_
  rw [Except.mapError_eq_error]
  constructor
  · rintro ⟨error, hparse, rfl⟩
    exact .readable hc htext hparse
  · intro hfails
    cases hfails with
    | readable hd h hparse =>
      cases hc.symm.trans hd
      cases htext.symm.trans h
      exact ⟨_, hparse, rfl⟩

theorem reports_checkQuantities (hc : p.container? name = some c) {requests limits : String}
    (hrequests : c.request? config.resource.text = some requests)
    (hlimits : c.limit? config.resource.text = some limits) :
    ReportsFirst (Demand.Fails p name enabled)
      [.readable .request config.resource, .readable .limit config.resource,
        .balance config.resource] (config.checkQuantities requests limits) := by
  refine (reports_readable hc .request hrequests).bind fun request hrequest =>
    (reports_readable hc .limit hlimits).bind fun limit hlimit => .failIf fun e => ?_
  have hrequestAmount : c.requestAmount? config.resource = some request := by
    rw [Container.requestAmount?, hrequests, amount?_of_parse (Except.mapError_eq_ok.1 hrequest)]
  have hlimitAmount : c.limitAmount? config.resource = some limit := by
    rw [Container.limitAmount?, hlimits, amount?_of_parse (Except.mapError_eq_ok.1 hlimit)]
  rw [bne_iff_ne]
  constructor
  · intro hfails
    cases hfails with
    | balance hd ha hb h =>
      cases hc.symm.trans hd
      cases hrequestAmount.symm.trans ha
      cases hlimitAmount.symm.trans hb
      exact ⟨h, rfl⟩
  · rintro ⟨h, rfl⟩
    exact .balance hc hrequestAmount hlimitAmount h

theorem reports_checkPolicy (hc : p.container? name = some c) :
    ReportsFirst (Demand.Fails p name enabled) [.policy config.resource] (config.checkPolicy c) := by
  refine .failIf fun e => ?_
  rw [bne_iff_ne]
  constructor
  · intro hfails
    cases hfails with
    | policy hd h =>
      cases hc.symm.trans hd
      exact ⟨h, rfl⟩
  · rintro ⟨h, rfl⟩
    exact .policy hc h

theorem reports_startup {startup requests : MilliValue}
    (hstartup : amount? (p.annotation? r.startupKey) = some startup)
    (hrequests : amount? (p.annotation? r.postStartupRequestsKey) = some requests) :
    ReportsFirst (Demand.Fails p name enabled) [.startup r]
      (failIf (startup < requests) (.startupBelowPostStartupRequests r)) := by
  refine .failIf fun e => ?_
  rw [decide_eq_true_iff]
  constructor
  · intro hfails
    cases hfails with
    | startup ha hb h =>
      cases hstartup.symm.trans ha
      cases hrequests.symm.trans hb
      exact ⟨h, rfl⟩
  · rintro ⟨h, rfl⟩
    exact .startup hstartup hrequests h

theorem reports_postStartup {requests limits : MilliValue}
    (hrequests : amount? (p.annotation? r.postStartupRequestsKey) = some requests)
    (hlimits : amount? (p.annotation? r.postStartupLimitsKey) = some limits) :
    ReportsFirst (Demand.Fails p name enabled) [.postStartup r]
      (failIf (requests != limits) (.postStartupRequestsNotEqualLimits r)) := by
  refine .failIf fun e => ?_
  rw [bne_iff_ne]
  constructor
  · intro hfails
    cases hfails with
    | postStartup ha hb h =>
      cases hrequests.symm.trans ha
      cases hlimits.symm.trans hb
      exact ⟨h, rfl⟩
  · rintro ⟨h, rfl⟩
    exact .postStartup hrequests hlimits h

theorem reports_quantities (hc : p.container? name = some c) {demands : List Demand}
    {next : String → String → Except Ineligibility Unit}
    (hnext : ∀ requests limits, c.request? r.text = some requests → c.limit? r.text = some limits →
      ReportsFirst (Demand.Fails p name enabled) demands (next requests limits)) :
    ReportsFirst (Demand.Fails p name enabled) (.quantities r :: demands)
      (match c.request? r.text, c.limit? r.text with
        | some requests, some limits => next requests limits
        | _, _ => .error (.missingContainerResources r)) := by
  have hone (e : Ineligibility) (he : Demand.Fails p name enabled (.quantities r) e) :
      e = .missingContainerResources r := by
    cases he
    rfl
  cases hrequest : c.request? r.text with
  | none => exact .stop (.quantities hc (.inl hrequest)) hone
  | some requests =>
    cases hlimit : c.limit? r.text with
    | none => exact .stop (.quantities hc (.inr hlimit)) hone
    | some limits =>
      refine .skip (fun e he => ?_) (hnext requests limits hrequest hlimit)
      cases he with
      | quantities hd h =>
        cases hc.symm.trans hd
        simp [hrequest, hlimit] at h

theorem amount?_of_quantityOf {key : String} {q : ConfiguredQuantity}
    (h : quantityOf p r key = .ok q) : amount? (p.annotation? key) = some q.value := by
  obtain ⟨value, hvalue, hparse, -⟩ := quantityOf_eq_ok.1 h
  rw [hvalue, amount?_of_parse hparse]

/-- The checks of a resource are what is asked about it. -/
theorem reports_validateAgainst (h : ScaleConfigs.configOf p enabled r = .ok config)
    (hc : p.container? name = some c) :
    ReportsFirst (Demand.Fails p name enabled) (Demand.ofResource enabled r)
      (config.validateAgainst c) := by
  unfold ScaleConfigs.configOf at h
  unfold Demand.ofResource
  split at h
  · next hcontains =>
    obtain ⟨startup, requests, limits, hstartup, hrequests, hlimits, rfl⟩ := managed_eq_ok.1 h
    have hpost := amount?_of_quantityOf hrequests
    rw [if_pos hcontains]
    refine reports_quantities hc fun request limit hrequest hlimit => ?_
    exact (reports_checkQuantities hc hrequest hlimit).bind fun _ _ =>
      (reports_checkPolicy hc).bind fun _ _ =>
        (reports_startup (amount?_of_quantityOf hstartup) hpost).bind fun _ _ =>
          reports_postStartup hpost (amount?_of_quantityOf hlimits)
  · next hcontains =>
    cases h
    rw [if_neg hcontains]
    exact reports_unmanaged p name enabled r c

end ScaleConfig

variable {p : Pod} {name : String} {enabled : List ResourceName} {configs : ScaleConfigs}

theorem ScaleConfigs.reports_validateAgainst (h : ofPod p enabled = .ok configs) {c : Container}
    (hc : p.container? name = some c) :
    ReportsFirst (Demand.Fails p name enabled) (ResourceName.all.flatMap (Demand.ofResource enabled))
      (configs.validateAgainst c) := by
  obtain ⟨hcpu, hmemory⟩ := ofPod_eq_ok.1 h
  exact (ScaleConfig.reports_validateAgainst hcpu hc).bind fun _ _ =>
    (ScaleConfig.reports_validateAgainst hmemory hc).bind fun _ _ => .ok ()

/-- The checks of a pod are all that is asked of it, in this order. -/
theorem Pod.reports_validate (h : ScaleConfigs.ofPod p enabled = .ok configs) (name : String) :
    ReportsFirst (Demand.Fails p name enabled) (Demand.all enabled) (p.validate name configs) := by
  refine reports_checkOptIn.bind fun _ _ => reports_checkAutoscaler.bind fun _ _ =>
    reports_targetContainer.bind fun c hc => ?_
  have hc : p.container? name = some c := container_eq_ok.1 (Except.mapError_eq_ok.1 hc)
  exact (reports_probe hc).bind fun _ _ => reports_quality.bind fun _ _ =>
    (ScaleConfigs.reports_validateCollection h).bind fun _ _ =>
      ScaleConfigs.reports_validateAgainst h hc

end PodSizing
