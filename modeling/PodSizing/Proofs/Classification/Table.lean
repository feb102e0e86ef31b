import PodSizing.Classification
import PodSizing.Proofs.Except
import PodSizing.Proofs.Mutation.Resources

/-!
# The table of a classification

What is found of the reported resources and of a resize, as rows that say when they apply. The order in
which resources are looked at makes no difference, and no condition does but those that are asserted and
tell of a resize.
-/
namespace PodSizing

def Resources.quantity? (r : Resources) : Side → ResourceName → Option String
  | .request, resource => r.requests.bind (·.get? resource.text)
  | .limit, resource => r.limits.bind (·.get? resource.text)

/-- There is no amount to compare. -/
inductive LacksAmount : Option String → Prop
  | missing : LacksAmount none
  | unreadable {quantity : String} (h : Quantity.parse? quantity = none) : LacksAmount (some quantity)
  | zero {quantity : String} {amount : MilliValue} (h : Quantity.parse? quantity = some amount)
      (hzero : amount.isZero = true) : LacksAmount (some quantity)

theorem lacksAmount_iff {quantity : Option String} :
    LacksAmount quantity ↔ ∀ amount, amount? quantity = some amount → amount.isZero = true := by
  constructor
  · intro h amount hamount
    cases h with
    | missing => cases hamount
    | unreadable hnone => simp [amount?, hnone] at hamount
    | zero hread hzero =>
      have hsame : some _ = some amount := hread.symm.trans hamount
      cases hsame
      exact hzero
  · intro h
    cases quantity with
    | none => exact .missing
    | some text =>
      cases hread : Quantity.parse? text with
      | none => exact .unreadable hread
      | some amount => exact .zero hread (h amount hread)

theorem not_lacksAmount {quantity : Option String} (h : ¬ LacksAmount quantity) :
    ∃ amount, amount? quantity = some amount ∧ amount.isZero = false := by
  simpa [lacksAmount_iff] using h

namespace Pod
variable {p : Pod} {c : Container} {reported : Resources} {resource : ResourceName}

/-- What is reported for a resource are the amounts of a container; an allocation may be missing. -/
structure Reports (r : Pod) (c : Container) (reported : Resources) (resource : ResourceName) :
    Prop where
  request : amount? (reported.requests.bind (·.get? resource.text)) = c.requestAmount? resource
  limit : amount? (reported.limits.bind (·.get? resource.text)) = c.limitAmount? resource
  allocation : ∀ allocated, r.allocated c.name resource.text = .ok (some allocated) →
    amount? (some allocated) = c.requestAmount? resource

def Lacks (reported : Resources) (resource : ResourceName) : Prop :=
  ∃ side, LacksAmount (reported.quantity? side resource)

theorem allocationMatches_iff {wanted : Option MilliValue} {name : String} :
    p.allocationMatches name resource wanted = true ↔
      ∀ allocated, p.allocated name resource.text = .ok (some allocated) →
        amount? (some allocated) = wanted := by
  unfold allocationMatches
  split
  · next allocated h => simp [h]
  · next h => simp [h]
  · next h => simp [h]

theorem reportedState_of_lacks (h : Lacks reported resource) :
    p.reportedState c reported resource = .incomplete := by
  obtain ⟨side, hlacks⟩ := h
  have hzero := lacksAmount_iff.1 hlacks
  unfold reportedState
  split
  · next request limit hrequest hlimit =>
    cases side with
    | request => simp [hzero request hrequest]
    | limit => simp [hzero limit hlimit]
  · rfl

theorem reportedState_of_not_lacks (h : ¬ Lacks reported resource) :
    (p.reportedState c reported resource = .containerResourcesMatch ∧
        p.Reports c reported resource) ∨
      (p.reportedState c reported resource = .containerResourcesMismatch ∧
        ¬ p.Reports c reported resource) := by
  obtain ⟨request, hrequest, hrequestZero⟩ := not_lacksAmount fun hlacks => h ⟨.request, hlacks⟩
  obtain ⟨limit, hlimit, hlimitZero⟩ := not_lacksAmount fun hlacks => h ⟨.limit, hlacks⟩
  simp only [Resources.quantity?] at hrequest hlimit
  have hreports : p.Reports c reported resource ↔ c.requestAmount? resource = some request ∧
      c.limitAmount? resource = some limit ∧
        p.allocationMatches c.name resource (c.requestAmount? resource) = true := by
    rw [allocationMatches_iff]
    constructor
    · intro hsame
      exact ⟨hsame.request.symm.trans hrequest, hsame.limit.symm.trans hlimit, hsame.allocation⟩
    · rintro ⟨hsameRequest, hsameLimit, hallocation⟩
      exact ⟨hrequest.trans hsameRequest.symm, hlimit.trans hsameLimit.symm, hallocation⟩
  by_cases hsame : p.Reports c reported resource
  · obtain ⟨hsameRequest, hsameLimit, hallocation⟩ := hreports.1 hsame
    left
    rw [hsameRequest] at hallocation
    simp [reportedState, hrequest, hlimit, hrequestZero, hlimitZero, hsameRequest, hsameLimit,
      hallocation, hsame]
  · right
    rw [hreports] at hsame
    refine ⟨?_, fun hagain => hsame (hreports.1 hagain)⟩
    simp only [reportedState, hrequest, hlimit, hrequestZero, hlimitZero, Bool.or_self,
      Bool.false_eq_true, if_false]
    refine if_neg fun hall => hsame ?_
    simpa [and_assoc] using hall

theorem reportedState_incomplete_iff :
    p.reportedState c reported resource = .incomplete ↔ Lacks reported resource := by
  by_cases hlacks : Lacks reported resource
  · simp [reportedState_of_lacks, hlacks]
  · rcases reportedState_of_not_lacks (p := p) (c := c) hlacks with ⟨hstate, -⟩ | ⟨hstate, -⟩
    · simp [hstate, hlacks]
    · simp [hstate, hlacks]

theorem reportedState_mismatch_iff (h : ¬ Lacks reported resource) :
    p.reportedState c reported resource = .containerResourcesMismatch ↔
      ¬ p.Reports c reported resource := by
  rcases reportedState_of_not_lacks (p := p) (c := c) h with ⟨hstate, hsame⟩ | ⟨hstate, hsame⟩
  · simp [hstate, hsame]
  · simp [hstate, hsame]

/-- The combination depends on nothing but whether some resource is incomplete and whether some differs. -/
theorem combineReported_congr {xs ys : List StatusResourcesState}
    (hincomplete : .incomplete ∈ xs ↔ .incomplete ∈ ys)
    (hdiffers : .containerResourcesMismatch ∈ xs ↔ .containerResourcesMismatch ∈ ys) :
    combineReported xs = combineReported ys := by
  simp [combineReported, hincomplete, hdiffers]

/-- A look at one resource after the other, which ends where nothing is reported or an amount is missing. -/
def scanResources (p : Pod) (c : Container) : List ResourceName → Bool → StatusResourcesState
  | [], agrees => if agrees then .containerResourcesMatch else .containerResourcesMismatch
  | resource :: rest, agrees =>
    match p.reportedResources c.name with
    | .error _ => .unknown
    | .ok reported =>
      match p.reportedState c reported resource with
      | .incomplete => .incomplete
      | state => p.scanResources c rest (agrees && state = .containerResourcesMatch)

theorem scanResources_eq (h : p.reportedResources c.name = .ok reported) (names : List ResourceName)
    (agrees : Bool) :
    p.scanResources c names agrees = combineReported
      ((if agrees then .containerResourcesMatch else .containerResourcesMismatch) ::
        names.map (p.reportedState c reported)) := by
  induction names generalizing agrees with
  | nil => cases agrees <;> rfl
  | cons resource rest ih =>
    by_cases hlacks : Lacks reported resource
    · simp [scanResources, h, reportedState_of_lacks hlacks, combineReported]
    · rcases reportedState_of_not_lacks (p := p) (c := c) hlacks with ⟨hstate, -⟩ | ⟨hstate, -⟩
      · simp only [scanResources, h, hstate, ih, List.map_cons]
        apply combineReported_congr <;> simp
      · simp only [scanResources, h, hstate, ih, List.map_cons]
        apply combineReported_congr <;> cases agrees <;> simp

/-- In whatever order the resources are looked at, the outcome is the same. -/
theorem scanResources_anyOrder {configs : ScaleConfigs} (hnames : configs.enabledNames ≠ [])
    {names : List ResourceName} (hsame : ∀ r, r ∈ names ↔ r ∈ configs.enabledNames) :
    p.scanResources c names true = p.statusResourcesState c configs := by
  obtain ⟨first, others, hcons⟩ := List.exists_cons_of_ne_nil hnames
  cases hreported : p.reportedResources c.name with
  | error e =>
    have hfirst : first ∈ names := (hsame first).2 (hcons ▸ List.mem_cons_self)
    cases names with
    | nil => cases hfirst
    | cons resource rest => simp [scanResources, statusResourcesState, hreported, hcons]
  | ok reported =>
    rw [scanResources_eq hreported, statusResourcesState, hreported, hcons]
    dsimp only
    rw [← hcons]
    apply combineReported_congr <;> simp [hsame]

/-- The rows of the table of reported resources, for the resources of some names. -/
inductive StatusRow (p : Pod) (c : Container) (names : List ResourceName) :
    StatusResourcesState → Prop
  | unknown (h : ∀ reported, p.reportedResources c.name ≠ .ok reported) : StatusRow p c names .unknown
  | incomplete {reported : Resources} (h : p.reportedResources c.name = .ok reported)
      (hlacks : ∃ resource ∈ names, Lacks reported resource) : StatusRow p c names .incomplete
  | agrees {reported : Resources} (h : p.reportedResources c.name = .ok reported)
      (hamounts : ∀ resource ∈ names, ¬ Lacks reported resource)
      (hsame : ∀ resource ∈ names, p.Reports c reported resource) :
      StatusRow p c names .containerResourcesMatch
  | differs {reported : Resources} (h : p.reportedResources c.name = .ok reported)
      (hamounts : ∀ resource ∈ names, ¬ Lacks reported resource)
      (hother : ∃ resource ∈ names, ¬ p.Reports c reported resource) :
      StatusRow p c names .containerResourcesMismatch

theorem StatusRow.unique {names : List ResourceName} {s t : StatusResourcesState}
    (hs : StatusRow p c names s) (ht : StatusRow p c names t) : s = t := by
  cases hs <;> cases ht <;> grind

theorem statusRow_combined (h : p.reportedResources c.name = .ok reported)
    (names : List ResourceName) :
    StatusRow p c names (combineReported (names.map (p.reportedState c reported))) := by
  have hlacks : .incomplete ∈ names.map (p.reportedState c reported) ↔
      ∃ resource ∈ names, Lacks reported resource := by
    simp [reportedState_incomplete_iff]
  by_cases hincomplete : .incomplete ∈ names.map (p.reportedState c reported)
  · rw [combineReported, if_pos (by simpa using hincomplete)]
    exact .incomplete h (hlacks.1 hincomplete)
  · have hamounts : ∀ resource ∈ names, ¬ Lacks reported resource :=
      fun resource hresource hlack => hincomplete (hlacks.2 ⟨resource, hresource, hlack⟩)
    have hother : .containerResourcesMismatch ∈ names.map (p.reportedState c reported) ↔
        ∃ resource ∈ names, ¬ p.Reports c reported resource := by
      rw [List.mem_map]
      exact exists_congr fun resource => and_congr_right fun hresource =>
        reportedState_mismatch_iff (hamounts resource hresource)
    rw [combineReported, if_neg (by simpa using hincomplete)]
    by_cases hdiffers : .containerResourcesMismatch ∈ names.map (p.reportedState c reported)
    · rw [if_pos (by simpa using hdiffers)]
      exact .differs h hamounts (hother.1 hdiffers)
    · rw [if_neg (by simpa using hdiffers)]
      exact .agrees h hamounts fun resource hresource =>
        Classical.not_not.1 fun hne => hdiffers (hother.2 ⟨resource, hresource, hne⟩)

/-- What is found of the reported resources is what the row that applies says. -/
theorem statusResourcesState_eq_iff {configs : ScaleConfigs} (hnames : configs.enabledNames ≠ [])
    {state : StatusResourcesState} :
    p.statusResourcesState c configs = state ↔ StatusRow p c configs.enabledNames state := by
  have hrow : StatusRow p c configs.enabledNames (p.statusResourcesState c configs) := by
    obtain ⟨first, others, hcons⟩ := List.exists_cons_of_ne_nil hnames
    cases hreported : p.reportedResources c.name with
    | error e =>
      simp only [statusResourcesState, hcons, hreported]
      exact .unknown fun reported => by simp [hreported]
    | ok reported =>
      have hcombined := statusRow_combined hreported configs.enabledNames
      simp only [statusResourcesState, hcons, hreported] at hcombined ⊢
      exact hcombined
  constructor
  · rintro rfl
    exact hrow
  · exact hrow.unique

def asserted (p : Pod) (type : String) : List Condition :=
  ((p.status.bind (·.conditions)).getD []).filter fun c => c.type = type && c.status = "True"

theorem assertedCondition?_eq (p : Pod) (type : String) :
    p.assertedCondition? type = (p.asserted type).head? := by
  simp [assertedCondition?, asserted, List.head?_filter]

end Pod

theorem occursIn_iff {part text : List Char} : occursIn part text = true ↔ part <:+: text := by
  induction text with
  | nil => simp [occursIn]
  | cons c rest ih => simp [occursIn, ih, List.infix_cons_iff]

def AwaitsMemory (awaited : String) (inProgress : Condition) : Prop :=
  awaited ≠ "" ∧ awaited.toList <:+: (inProgress.message.getD "").toList

theorem awaitsMemory_iff {awaited : String} {inProgress : Condition} :
    AwaitsMemory awaited inProgress ↔ (awaited.isEmpty ||
      !occursIn awaited.toList (inProgress.message.getD "").toList) = false := by
  simp [AwaitsMemory, ← occursIn_iff]

/-- The rows of the table of a resize, by the first asserted condition of each type. -/
inductive ResizeRow (awaited : String) : Option Condition → Option Condition → Resize → Prop
  | deferred {pending : Condition} {inProgress : Option Condition}
      (h : pending.reason = some "Deferred") :
      ResizeRow awaited (some pending) inProgress ⟨.deferred, pending.message.getD ""⟩
  | infeasible {pending : Condition} {inProgress : Option Condition}
      (h : pending.reason = some "Infeasible") :
      ResizeRow awaited (some pending) inProgress ⟨.infeasible, pending.message.getD ""⟩
  | error {inProgress : Condition} (h : inProgress.reason = some "Error")
      (hawaits : ¬ AwaitsMemory awaited inProgress) :
      ResizeRow awaited none (some inProgress) ⟨.error, inProgress.message.getD ""⟩
  | awaiting {inProgress : Condition} (h : inProgress.reason = some "Error")
      (hawaits : AwaitsMemory awaited inProgress) :
      ResizeRow awaited none (some inProgress) ⟨.inProgress, inProgress.message.getD ""⟩
  | inProgress {inProgress : Condition} (h : inProgress.reason ≠ some "Error") :
      ResizeRow awaited none (some inProgress) ⟨.inProgress, inProgress.message.getD ""⟩
  | rest : ResizeRow awaited none none ⟨.notStartedOrCompleted, ""⟩

theorem ResizeRow.unique {awaited : String} {pending inProgress : Option Condition} {s t : Resize}
    (hs : ResizeRow awaited pending inProgress s) (ht : ResizeRow awaited pending inProgress t) :
    s = t := by
  cases hs <;> cases ht <;> simp_all

namespace Pod
variable {p : Pod} {c : Container} {pending : Condition} {resize : Resize} {awaited name : String}
  {configs : ScaleConfigs} {e : ClassificationError}

/-- A resize is pending for a reason that nobody knows, or for none. -/
structure PendsUnknown (p : Pod) (pending : Condition) : Prop where
  first : p.resizePending? = some pending
  notDeferred : pending.reason ≠ some "Deferred"
  notInfeasible : pending.reason ≠ some "Infeasible"

/-- Either a row applies, or a resize is pending for an unknown reason. -/
theorem resizeState_cases (p : Pod) (awaited : String) :
    (∃ resize, p.resizeState awaited = .ok resize ∧
      ResizeRow awaited p.resizePending? p.resizeInProgress? resize) ∨
    ∃ pending, p.PendsUnknown pending ∧ p.resizeState awaited =
      .error (.unknownPendingReason (pending.reason.getD "") (pending.message.getD "")) := by
  unfold resizeState
  cases hfirst : p.resizePending? with
  | some pending =>
    by_cases hdeferred : pending.reason = some "Deferred"
    · exact .inl ⟨_, by simp [hdeferred], .deferred hdeferred⟩
    · by_cases hinfeasible : pending.reason = some "Infeasible"
      · exact .inl ⟨_, by simp [hinfeasible], .infeasible hinfeasible⟩
      · exact .inr ⟨pending, ⟨hfirst, hdeferred, hinfeasible⟩, by simp [hdeferred, hinfeasible]⟩
  | none =>
    left
    cases p.resizeInProgress? with
    | none => exact ⟨_, rfl, .rest⟩
    | some inProgress =>
      by_cases herror : inProgress.reason = some "Error"
      · by_cases hawaits : AwaitsMemory awaited inProgress
        · have hwaits := awaitsMemory_iff.1 hawaits
          exact ⟨_, by simp [herror, hwaits], .awaiting herror hawaits⟩
        · have hfails := eq_true_of_ne_false (mt awaitsMemory_iff.2 hawaits)
          exact ⟨_, by simp [herror, hfails], .error herror hawaits⟩
      · exact ⟨_, by simp [herror], .inProgress herror⟩

theorem PendsUnknown.no_row (h : p.PendsUnknown pending) :
    ¬ ResizeRow awaited p.resizePending? p.resizeInProgress? resize := by
  intro hrow
  rw [h.first] at hrow
  cases hrow with
  | deferred hdeferred => exact h.notDeferred hdeferred
  | infeasible hinfeasible => exact h.notInfeasible hinfeasible

theorem resizeState_ok_iff :
    p.resizeState awaited = .ok resize ↔ ResizeRow awaited p.resizePending? p.resizeInProgress? resize := by
  rcases p.resizeState_cases awaited with ⟨found, hok, hrow⟩ | ⟨pending, hunknown, herror⟩
  · rw [hok]
    constructor
    · intro h
      cases h
      exact hrow
    · intro h
      rw [hrow.unique h]
  · simp [herror, hunknown.no_row]

theorem resizeState_error_iff :
    p.resizeState awaited = .error e ↔ ∃ pending, p.PendsUnknown pending ∧
      e = .unknownPendingReason (pending.reason.getD "") (pending.message.getD "") := by
  rcases p.resizeState_cases awaited with ⟨found, hok, hrow⟩ | ⟨pending, hunknown, herror⟩
  · rw [hok]
    constructor
    · intro h
      cases h
    · rintro ⟨pending, hunknown, -⟩
      exact absurd hrow hunknown.no_row
  · rw [herror]
    constructor
    · intro h
      cases h
      exact ⟨pending, hunknown, rfl⟩
    · rintro ⟨other, hother, rfl⟩
      obtain rfl : pending = other := Option.some.inj (hunknown.first.symm.trans hother.first)
      rfl

/-- Conditions of other types and those that are not asserted make no difference to a resize. -/
theorem resizeState_congr {q : Pod} (hpending : q.asserted "PodResizePending" =
      p.asserted "PodResizePending")
    (hinProgress : q.asserted "PodResizeInProgress" = p.asserted "PodResizeInProgress")
    (awaited : String) : q.resizeState awaited = p.resizeState awaited := by
  have hfirstPending : q.resizePending? = p.resizePending? := by
    simp only [resizePending?, assertedCondition?_eq, hpending]
  have hfirstInProgress : q.resizeInProgress? = p.resizeInProgress? := by
    simp only [resizeInProgress?, assertedCondition?_eq, hinProgress]
  rw [resizeState, resizeState, hfirstPending, hfirstInProgress]

/-- Why a pod cannot be classified for a container. -/
inductive Unclassifiable (p : Pod) (name : String) : ClassificationError → Prop
  | absent (h : ∀ c ∈ p.containers, c.name ≠ name) :
      Unclassifiable p name (.shape (.containerNotPresent name))
  | pendsUnknown {pending : Condition} (hpresent : ∃ c ∈ p.containers, c.name = name)
      (h : p.PendsUnknown pending) : Unclassifiable p name
        (.unknownPendingReason (pending.reason.getD "") (pending.message.getD ""))

theorem container?_eq_none_iff :
    p.container? name = none ↔ ∀ c ∈ p.containers, c.name ≠ name := by
  simp [container?]

theorem classify_of_absent (h : p.container? name = none) (configs : ScaleConfigs)
    (awaited : String) :
    p.classify name configs awaited = .error (.shape (.containerNotPresent name)) := by
  have hcontainer : p.container name = .error (.containerNotPresent name) := by rw [container, h]
  rw [classify, hcontainer]
  rfl

theorem classify_of_present (h : p.container? name = some c) (configs : ScaleConfigs)
    (awaited : String) :
    (∀ e, p.classify name configs awaited = .error e ↔ p.resizeState awaited = .error e) ∧
      ∀ s, p.classify name configs awaited = .ok s →
        s.statusResources = p.statusResourcesState c configs ∧
          p.resizeState awaited = .ok s.resize := by
  have hcontainer : p.container name = .ok c := by rw [container, h]
  rw [classify, hcontainer]
  cases p.resizeState awaited with
  | error failure =>
    refine ⟨fun e => ⟨fun he => ?_, fun he => ?_⟩, fun s hs => by cases hs⟩
    · cases he
      rfl
    · cases he
      rfl
  | ok resize =>
    refine ⟨fun e => ⟨fun he => (by cases he), fun he => by cases he⟩, fun s hs => ?_⟩
    cases hs
    exact ⟨rfl, rfl⟩

theorem classify_error_iff :
    p.classify name configs awaited = .error e ↔ p.Unclassifiable name e := by
  cases hc : p.container? name with
  | none =>
    have habsent := container?_eq_none_iff.1 hc
    rw [classify_of_absent hc]
    constructor
    · intro h
      cases h
      exact .absent habsent
    · intro h
      cases h with
      | absent => rfl
      | pendsUnknown hpresent =>
        obtain ⟨c, hmem, hname⟩ := hpresent
        exact absurd hname (habsent c hmem)
  | some c =>
    have hmem : c ∈ p.containers := List.mem_of_find?_eq_some hc
    have hname : c.name = name := by simpa using List.find?_some hc
    rw [(classify_of_present hc configs awaited).1, resizeState_error_iff]
    constructor
    · rintro ⟨pending, hunknown, rfl⟩
      exact .pendsUnknown ⟨c, hmem, hname⟩ hunknown
    · intro h
      cases h with
      | absent habsent => exact absurd hname (habsent c hmem)
      | pendsUnknown hpresent hunknown => exact ⟨_, hunknown, rfl⟩

/-- A classification fails exactly if the container is not there or a resize is pending for an unknown
reason. Otherwise the row of each table that applies says what is found of the reported resources and of
the resize. The order of the resources makes no difference to it, and no conditions do but those that are
asserted and tell of a resize. -/
theorem classify_table (p : Pod) (name : String) (configs : ScaleConfigs) (awaited : String)
    (hnames : configs.enabledNames ≠ []) :
    (∀ e, p.classify name configs awaited = .error e ↔ p.Unclassifiable name e) ∧
    (∀ s, p.classify name configs awaited = .ok s → ∃ c, p.container? name = some c ∧
      (∀ state, s.statusResources = state ↔ StatusRow p c configs.enabledNames state) ∧
      (∀ names, (∀ r, r ∈ names ↔ r ∈ configs.enabledNames) →
        p.scanResources c names true = s.statusResources) ∧
      ∀ resize, s.resize = resize ↔ ResizeRow awaited p.resizePending? p.resizeInProgress? resize) ∧
    ∀ q : Pod, q.asserted "PodResizePending" = p.asserted "PodResizePending" →
      q.asserted "PodResizeInProgress" = p.asserted "PodResizeInProgress" →
      q.resizeState awaited = p.resizeState awaited := by
  refine ⟨fun e => classify_error_iff, fun s hs => ?_, fun q hpending hinProgress =>
    resizeState_congr hpending hinProgress awaited⟩
  · cases hc : p.container? name with
    | none =>
      rw [classify_of_absent hc] at hs
      cases hs
    | some c =>
      obtain ⟨hstatus, hresize⟩ := (classify_of_present hc configs awaited).2 s hs
      refine ⟨c, rfl, fun state => ?_, fun names hsame => ?_, fun resize => ?_⟩
      · rw [hstatus]
        exact statusResourcesState_eq_iff hnames
      · rw [hstatus]
        exact scanResources_anyOrder hnames hsame
      · rw [← resizeState_ok_iff, hresize]
        simp

/-- A limit of zero is reported, and the resize that is asserted to be pending comes after one that is
not, and after one that is in progress. -/
def refusedPod : Pod where
  spec := some { containers := [{ name := "app" }] }
  status := some
    { containerStatuses := some
        [{ name := "app"
           resources := some
            { requests := some (.ofList [("cpu", "2")]), limits := some (.ofList [("cpu", "0")]) } }]
      conditions := some
        [⟨"PodResizePending", "False", some "Surprise", none, .null⟩,
          ⟨"PodResizeInProgress", "True", some "Error", none, .null⟩,
          ⟨"PodResizePending", "True", some "Infeasible", some "node too small", .null⟩] }

def cpuOnly : ScaleConfigs where
  cpu := ⟨.cpu, some "app", some ⟨⟨"2", ⟨2000⟩⟩, ⟨"1", ⟨1000⟩⟩, ⟨"1", ⟨1000⟩⟩⟩, []⟩
  memory := ⟨.memory, some "app", none, []⟩

/-- What is reported is incomplete, and the resize infeasible. -/
theorem refusedPod_classified :
    ∃ s, refusedPod.classify "app" cpuOnly "" = .ok s ∧ s.statusResources = .incomplete ∧
      s.resize = ⟨.infeasible, "node too small"⟩ := by
  obtain ⟨herrors, hstates, -⟩ := classify_table refusedPod "app" cpuOnly "" (by decide)
  cases hclassify : refusedPod.classify "app" cpuOnly "" with
  | error e =>
    cases (herrors e).1 hclassify with
    | absent habsent => exact absurd rfl (habsent { name := "app" } (by decide))
    | pendsUnknown hpresent hunknown =>
      have hfirst := hunknown.first
      cases hfirst
      exact absurd rfl hunknown.notInfeasible
  | ok s =>
    obtain ⟨c, hc, hstatus, -, hresize⟩ := hstates s hclassify
    cases hc
    refine ⟨s, rfl, (hstatus _).2 (.incomplete rfl ⟨.cpu, by decide, .limit, ?_⟩),
      (hresize _).2 (.infeasible rfl)⟩
    have hread : Quantity.parse? "0" = some ⟨0⟩ := by decide
    exact .zero hread rfl

end Pod
end PodSizing
