import PodSizing.Proofs.Eligibility.Demands

/-!
# When a pod may be managed

A pod may be managed where it has opted in and nobody else manages it, where its container tells that it has
started and can be resized without a restart, and where its quantities agree. These are the demands that the
checks make, put together, so the checks accept just such pods.
-/
namespace PodSizing

/-- What a container and the annotations of its pod must say about a managed resource. -/
structure Container.Resizable (c : Container) (p : Pod) (r : ResourceName) : Prop where
  balanced : ∃ amount, c.requestAmount? r = some amount ∧ c.limitAmount? r = some amount
  restartsNothing : c.restartPolicy? r.text = some "NotRequired"
  configured : ∃ startup post, amount? (p.annotation? r.startupKey) = some startup ∧
    amount? (p.annotation? r.postStartupRequestsKey) = some post ∧
    amount? (p.annotation? r.postStartupLimitsKey) = some post ∧ post.millis ≤ startup.millis

/-- What a pod must be to be managed, with a container and a list of managed resources. -/
structure Pod.Eligible (p : Pod) (name : String) (enabled : List ResourceName) : Prop where
  optedIn : p.label? Key.enabled = some "true"
  unmarked : ∀ key ∈ Key.autoscalerMarks, p.annotation? key = none
  container : ∃ c, p.container? name = some c ∧ (c.startupProbe ≠ none ∨ c.readinessProbe ≠ none) ∧
    ∀ r ∈ enabled, c.Resizable p r
  guaranteed : p.qosClass? = some "Guaranteed"
  someResource : enabled ≠ []
  target : p.NamesTarget
  unconfigured : ∀ r, r ∉ enabled → ∀ key ∈ r.keys, p.annotation? key = none

namespace Demand
variable {enabled : List ResourceName} {d : Demand} {r : ResourceName}

theorem mem_all_of_mem_ofResource (h : d ∈ ofResource enabled r) : d ∈ all enabled :=
  List.mem_append_right _ (List.mem_flatMap.2 ⟨r, r.mem_all, h⟩)

theorem mem_all_managed (hd : d ∈ all enabled) (hr : d.managed? = some r) : r ∈ enabled := by
  rcases List.mem_append.1 hd with hd | hd
  · simp only [List.mem_cons, List.not_mem_nil, or_false] at hd
    rcases hd with rfl | rfl | rfl | rfl | rfl | rfl | rfl <;> cases hr
  · obtain ⟨s, -, hs⟩ := List.mem_flatMap.1 hd
    unfold ofResource at hs
    split at hs
    · next hcontains =>
      simp only [List.mem_cons, List.not_mem_nil, or_false] at hs
      rcases hs with rfl | rfl | rfl | rfl | rfl | rfl | rfl <;> cases hr <;>
        exact List.contains_iff_mem.1 hcontains
    · rw [List.mem_singleton.1 hs] at hr
      cases hr

theorem mem_all_unconfigured (hd : .unconfigured r ∈ all enabled) : r ∉ enabled := by
  intro hr
  rcases List.mem_append.1 hd with hd | hd
  · simp at hd
  · obtain ⟨s, -, hs⟩ := List.mem_flatMap.1 hd
    unfold ofResource at hs
    split at hs
    · simp at hs
    · next hcontains =>
      cases List.mem_singleton.1 hs
      exact hcontains (List.contains_iff_mem.2 hr)

end Demand

variable {p : Pod} {name : String} {enabled : List ResourceName} {configs : ScaleConfigs}

theorem ScaleConfigs.amounts_of_mem (h : ofPod p enabled = .ok configs) {r : ResourceName}
    (hr : r ∈ enabled) : ∃ startup requests limits,
      amount? (p.annotation? r.startupKey) = some startup ∧
      amount? (p.annotation? r.postStartupRequestsKey) = some requests ∧
      amount? (p.annotation? r.postStartupLimitsKey) = some limits := by
  have hconfig : ∃ config, configOf p enabled r = .ok config := by
    obtain ⟨hcpu, hmemory⟩ := ofPod_eq_ok.1 h
    cases r with
    | cpu => exact ⟨_, hcpu⟩
    | memory => exact ⟨_, hmemory⟩
  obtain ⟨config, hconfig⟩ := hconfig
  rw [configOf, if_pos (List.contains_iff_mem.2 hr)] at hconfig
  obtain ⟨startup, requests, limits, hstartup, hrequests, hlimits, -⟩ :=
    ScaleConfig.managed_eq_ok.1 hconfig
  exact ⟨_, _, _, ScaleConfig.amount?_of_quantityOf hstartup,
    ScaleConfig.amount?_of_quantityOf hrequests, ScaleConfig.amount?_of_quantityOf hlimits⟩

theorem Container.Resizable.meets {c : Container} {r : ResourceName} (h : c.Resizable p r)
    (hc : p.container? name = some c) {d : Demand} (hd : d.managed? = some r) (e : Ineligibility) :
    ¬ Demand.Fails p name enabled d e := by
  obtain ⟨amount, hrequest, hlimit⟩ := h.balanced
  obtain ⟨startup, post, hstartup, hrequests, hlimits, hle⟩ := h.configured
  obtain ⟨request, hrequestText, hrequestParse⟩ := amount?_eq_some.1 hrequest
  obtain ⟨limit, hlimitText, hlimitParse⟩ := amount?_eq_some.1 hlimit
  intro hfails
  cases hfails with
  | quantities hc' hmissing =>
    cases hc.symm.trans hc'
    cases hd
    simp [hrequestText, hlimitText] at hmissing
  | @readable side _ _ text error hc' htext hparse =>
    cases hc.symm.trans hc'
    cases hd
    cases side with
    | request =>
      cases hrequestText.symm.trans htext
      cases hrequestParse.symm.trans hparse
    | limit =>
      cases hlimitText.symm.trans htext
      cases hlimitParse.symm.trans hparse
  | balance hc' hrequest' hlimit' hne =>
    cases hc.symm.trans hc'
    cases hd
    cases hrequest.symm.trans hrequest'
    cases hlimit.symm.trans hlimit'
    exact hne rfl
  | policy hc' hpolicy =>
    cases hc.symm.trans hc'
    cases hd
    exact hpolicy h.restartsNothing
  | startup hstartup' hrequests' hlt =>
    cases hd
    cases hstartup.symm.trans hstartup'
    cases hrequests.symm.trans hrequests'
    omega
  | postStartup hrequests' hlimits' hne =>
    cases hd
    cases hrequests.symm.trans hrequests'
    cases hlimits.symm.trans hlimits'
    exact hne rfl
  | optIn | noAutoscaler | container | probe | quality | someResource | target | unconfigured =>
    cases hd

theorem Container.exists_amount {c : Container} {r : ResourceName}
    (hc : p.container? name = some c) (side : Side) (hset : c.quantity? side r.text ≠ none)
    (h : ∀ e, ¬ Demand.Fails p name enabled (.readable side r) e) :
    ∃ amount, amount? (c.quantity? side r.text) = some amount := by
  obtain ⟨text, htext⟩ := Option.ne_none_iff_exists'.1 hset
  cases hparse : Quantity.parse text with
  | ok amount => exact ⟨amount, amount?_eq_some.2 ⟨text, htext, hparse⟩⟩
  | error error => exact absurd (.readable hc htext hparse) (h _)

/-- A container may be resized where all that is asked about a configured resource is met. -/
theorem Container.resizable_of_meets {c : Container} {r : ResourceName}
    (hc : p.container? name = some c) (hconfigs : ScaleConfigs.ofPod p enabled = .ok configs)
    (hr : r ∈ enabled)
    (h : ∀ d ∈ Demand.ofResource enabled r, ∀ e, ¬ Demand.Fails p name enabled d e) :
    c.Resizable p r := by
  rw [Demand.ofResource, if_pos (List.contains_iff_mem.2 hr)] at h
  have hset : c.request? r.text ≠ none ∧ c.limit? r.text ≠ none :=
    not_or.1 fun hmissing => h (.quantities r) (by simp) _ (.quantities hc hmissing)
  obtain ⟨request, hrequest⟩ : ∃ amount, c.requestAmount? r = some amount :=
    Container.exists_amount hc .request hset.1 (h _ (by simp))
  obtain ⟨limit, hlimit⟩ : ∃ amount, c.limitAmount? r = some amount :=
    Container.exists_amount hc .limit hset.2 (h _ (by simp))
  have hbalance : request = limit := Decidable.byContradiction fun hne =>
    h (.balance r) (by simp) _ (.balance hc hrequest hlimit hne)
  have hpolicy : c.restartPolicy? r.text = some "NotRequired" := Decidable.byContradiction fun hne =>
    h (.policy r) (by simp) _ (.policy hc hne)
  obtain ⟨startup, requests, limits, hstartup, hrequests, hlimits⟩ :=
    ScaleConfigs.amounts_of_mem hconfigs hr
  have hpost : requests = limits := Decidable.byContradiction fun hne =>
    h (.postStartup r) (by simp) _ (.postStartup hrequests hlimits hne)
  have hle : requests.millis ≤ startup.millis := Int.not_lt.1 fun hlt =>
    h (.startup r) (by simp) _ (.startup hstartup hrequests hlt)
  exact ⟨⟨request, hrequest, hbalance ▸ hlimit⟩, hpolicy,
    startup, requests, hstartup, hrequests, hpost ▸ hlimits, hle⟩

theorem Pod.Eligible.meets (h : p.Eligible name enabled) {d : Demand} (hd : d ∈ Demand.all enabled)
    (e : Ineligibility) : ¬ Demand.Fails p name enabled d e := by
  obtain ⟨c, hc, hprobe, hresizable⟩ := h.container
  have hmanaged (r : ResourceName) (hr : d.managed? = some r) :
      ¬ Demand.Fails p name enabled d e :=
    (hresizable r (Demand.mem_all_managed hd hr)).meets hc hr e
  intro hfails
  cases hfails with
  | optIn hlabel => exact hlabel h.optedIn
  | noAutoscaler hmarks _ hkey => exact hkey (h.unmarked _ (by simp [hmarks]))
  | container hnone => cases hc.symm.trans hnone
  | probe hc' hstartup hreadiness =>
    cases hc.symm.trans hc'
    exact hprobe.elim (· hstartup) (· hreadiness)
  | quality hclass => exact hclass h.guaranteed
  | someResource hnil => exact h.someResource hnil
  | target htarget => exact htarget h.target
  | unconfigured hkey hset => exact hset (h.unconfigured _ (Demand.mem_all_unconfigured hd) _ hkey)
  | quantities hc' hmissing => exact hmanaged _ rfl (.quantities hc' hmissing)
  | readable hc' htext hparse => exact hmanaged _ rfl (.readable hc' htext hparse)
  | balance hc' hrequest hlimit hne => exact hmanaged _ rfl (.balance hc' hrequest hlimit hne)
  | policy hc' hpolicy => exact hmanaged _ rfl (.policy hc' hpolicy)
  | startup hstartup hrequests hlt => exact hmanaged _ rfl (.startup hstartup hrequests hlt)
  | postStartup hrequests hlimits hne => exact hmanaged _ rfl (.postStartup hrequests hlimits hne)

/-- A configured pod that meets all that is asked may be managed. -/
theorem Pod.eligible_of_meets (hconfigs : ScaleConfigs.ofPod p enabled = .ok configs)
    (h : ∀ d ∈ Demand.all enabled, ∀ e, ¬ Demand.Fails p name enabled d e) :
    p.Eligible name enabled := by
  have hoptIn : p.label? Key.enabled = some "true" := Decidable.byContradiction fun hne =>
    h .optIn (by simp [Demand.all]) _ (.optIn hne)
  have hunmarked : ∀ key ∈ Key.autoscalerMarks, p.annotation? key = none :=
    checkAutoscaler_eq_ok.1 (reports_checkAutoscaler.isOk_iff.2 fun d hd =>
      h d (List.mem_singleton.1 hd ▸ by simp [Demand.all]))
  have hcontainer : p.container? name ≠ none := fun hnone =>
    h .container (by simp [Demand.all]) _ (.container hnone)
  obtain ⟨c, hc⟩ := Option.ne_none_iff_exists'.1 hcontainer
  have hprobe : c.startupProbe ≠ none ∨ c.readinessProbe ≠ none :=
    Decidable.not_and_iff_or_not.1 fun hnone =>
      h .probe (by simp [Demand.all]) _ (.probe hc hnone.1 hnone.2)
  have hquality : p.qosClass? = some "Guaranteed" := Decidable.byContradiction fun hne =>
    h .quality (by simp [Demand.all]) _ (.quality hne)
  have htarget : p.NamesTarget := Classical.byContradiction fun hnot =>
    h .target (by simp [Demand.all]) _ (.target hnot)
  refine ⟨hoptIn, hunmarked, ⟨c, hc, hprobe, fun r hr => ?_⟩, hquality, fun hnil => ?_, htarget,
    fun r hr key hkey => ?_⟩
  · exact Container.resizable_of_meets hc hconfigs hr fun d hd =>
      h d (Demand.mem_all_of_mem_ofResource hd)
  · exact h .someResource (by simp [Demand.all]) _ (.someResource hnil)
  · have hasked : .unconfigured r ∈ Demand.ofResource enabled r := by
      simp [Demand.ofResource, hr]
    exact Decidable.byContradiction fun hset =>
      h _ (Demand.mem_all_of_mem_ofResource hasked) _ (.unconfigured hkey hset)

/-- A configured pod is accepted exactly where it may be managed with the container; else the answer is the
error of the first demand that it does not meet, those about the processor before those about memory. Since
all resources name the one container of the pod, they are never said to differ in it. -/
theorem Pod.validate_decides (hconfigs : ScaleConfigs.ofPod p enabled = .ok configs) (name : String) :
    (p.validate name configs = .ok () ↔ p.Eligible name enabled) ∧
      (∀ e, p.validate name configs = .error e ↔
        FirstFailure (Demand.Fails p name enabled) (Demand.all enabled) e) ∧
      ∀ r told expected,
        p.validate name configs ≠ .error (.targetContainerNameMismatch r told expected) := by
  have hreports := Pod.reports_validate hconfigs name
  refine ⟨⟨fun h => ?_, fun h => ?_⟩, hreports, fun r told expected h => ?_⟩
  · exact Pod.eligible_of_meets hconfigs (hreports.passes h)
  · obtain ⟨_, hvalid⟩ := hreports.isOk_iff.2 fun d hd => h.meets hd
    exact hvalid
  · obtain ⟨d, -, hfails⟩ := ((hreports _).1 h).exists_mem
    cases hfails

/-- A pod of which the processor is configured, with the policies of its container and with annotations in
addition. -/
def processorPod (policies : List ResizePolicy) (strays : List (String × String)) : Pod where
  metadata :=
    { labels := some (.ofList [(Key.enabled, "true")])
      annotations := some (.ofList
        ([(Key.targetContainerName, " app "), (ResourceName.cpu.startupKey, "3m"),
          (ResourceName.cpu.postStartupRequestsKey, "1m"),
          (ResourceName.cpu.postStartupLimitsKey, "0.001")] ++ strays)) }
  spec := some
    { containers :=
        [{ name := "app"
           readinessProbe := some (.obj [])
           resources := some
            { requests := some (.ofList [("cpu", "1")])
              limits := some (.ofList [("cpu", "1000m")]) }
           resizePolicy := some policies }] }
  status := some { qosClass := some "Guaranteed" }

/-- The first of two policies decides; where it asks for restarts, that is the answer although there is also
an annotation of the memory, which is not managed. -/
theorem processorPod_decided :
    let quiet := processorPod [⟨"cpu", "NotRequired"⟩, ⟨"cpu", "RestartContainer"⟩] []
    let loud := processorPod [⟨"cpu", "RestartContainer"⟩, ⟨"cpu", "NotRequired"⟩]
      [(ResourceName.memory.startupKey, "1Gi")]
    let restarts := Ineligibility.resizeRestartPolicy .cpu "RestartContainer" "NotRequired"
    (∃ configs, ScaleConfigs.ofPod quiet [.cpu] = .ok configs ∧ quiet.Eligible "app" [.cpu]) ∧
      ∃ configs, ScaleConfigs.ofPod loud [.cpu] = .ok configs ∧ ¬ loud.Eligible "app" [.cpu] ∧
        FirstFailure (Demand.Fails loud "app" [.cpu]) (Demand.all [.cpu]) restarts := by
  intro quiet loud restarts
  have hquiet : ((ScaleConfigs.ofPod quiet [.cpu]).toOption.any fun configs =>
      (quiet.validate "app" configs).toOption.isSome) = true := by decide +kernel
  have hloud : ((ScaleConfigs.ofPod loud [.cpu]).toOption.any fun configs =>
      match loud.validate "app" configs with
      | .error e => decide (e = restarts)
      | .ok _ => false) = true := by decide +kernel
  obtain ⟨configs, hconfigs, hvalid⟩ := (Option.any_eq_true _ _).1 hquiet
  obtain ⟨configs', hconfigs', hrestarts⟩ := (Option.any_eq_true _ _).1 hloud
  obtain ⟨_, hvalid⟩ := Option.isSome_iff_exists.1 hvalid
  have heligible := (Pod.validate_decides (Except.toOption_eq_some.1 hconfigs) "app").1.1
    (Except.toOption_eq_some.1 hvalid)
  obtain ⟨haccepted, herror, -⟩ :=
    Pod.validate_decides (Except.toOption_eq_some.1 hconfigs') "app"
  refine ⟨⟨configs, Except.toOption_eq_some.1 hconfigs, heligible⟩,
    configs', Except.toOption_eq_some.1 hconfigs', fun h => ?_, (herror restarts).1 ?_⟩
  · rw [haccepted.2 h] at hrestarts
    cases hrestarts
  · split at hrestarts
    · next e he => rw [he, of_decide_eq_true hrestarts]
    · cases hrestarts

end PodSizing
