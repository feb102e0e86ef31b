import PodSizing.Proofs.Api.Writing
import PodSizing.Proofs.Reconcile.Rest

/-!
# What a command sets

A command keeps the quantities that it was issued with through all attempts, also where an attempt
starts from a pod that configures others by then. So what it sets is what the patched pod configures
just where that pod still configures the same.
-/
namespace PodSizing
open Reconcile (startedPod)

/-- The container to resize, and its quantities for a direction, by the annotations of a pod. -/
def Pod.configured? (p : Pod) (enabled : List ResourceName) (direction : Direction) :
    Option (String × List ResourceUpdate) :=
  (ScaleConfigs.ofPod p enabled).toOption.bind fun configs =>
    configs.targetName.toOption.map fun name => (name, configs.updates direction)

namespace ResizePatch

def quantity? (r : ResizePatch) (container : String) (side : Side) (resource : String) :
    Option String :=
  (r.containers.lookup container).bind fun resources =>
    Container.quantity? { name := container, resources } side resource

/-- The patch sets what a pod configures, in the container that the pod names. -/
def DerivedFrom (enabled : List ResourceName) (direction : Direction) (p : Pod)
    (r : ResizePatch) : Prop :=
  ∃ name updates, p.configured? enabled direction = some (name, updates) ∧
    ∀ u ∈ updates, ∀ side, r.quantity? name side u.resource.text = some (u.quantity side)

end ResizePatch

namespace ScaleConfigs

theorem updates_resources (c : ScaleConfigs) (direction : Direction) :
    (c.updates direction).map (·.resource) = c.enabledNames := by
  rw [updates, enabledNames, ScaleConfigs.enabled]
  induction c.all with
  | nil => rfl
  | cons config rest ih =>
    cases hr : config.resources with
    | none => simpa [List.filter_cons, ScaleConfig.isEnabled, hr] using ih
    | some r =>
      simpa [List.filter_cons, ScaleConfig.isEnabled, ScaleConfig.update?, hr] using ih

end ScaleConfigs

theorem updates_unique {us vs : List ResourceUpdate} {quantity : Side → String → Option String}
    (hresources : us.map (·.resource) = vs.map (·.resource))
    (hus : ∀ u ∈ us, ∀ side, quantity side u.resource.text = some (u.quantity side))
    (hvs : ∀ v ∈ vs, ∀ side, quantity side v.resource.text = some (v.quantity side)) : us = vs := by
  induction us generalizing vs with
  | nil => cases vs with
    | nil => rfl
    | cons v rest => cases hresources
  | cons u us ih =>
    cases vs with
    | nil => cases hresources
    | cons v vs =>
      rw [List.map_cons, List.map_cons, List.cons.injEq] at hresources
      obtain ⟨hresource, hrest⟩ := hresources
      have hsame (side : Side) : u.quantity side = v.quantity side := by
        have hu := hus u List.mem_cons_self side
        rw [hresource, hvs v List.mem_cons_self side] at hu
        exact (Option.some.inj hu).symm
      have huv : u = v := by
        cases u
        cases v
        cases hresource
        cases hsame .request
        cases hsame .limit
        rfl
      rw [huv, ih hrest (fun w hw => hus w (List.mem_cons_of_mem u hw))
        fun w hw => hvs w (List.mem_cons_of_mem v hw)]

section Configured
variable {p : Pod} {enabled : List ResourceName} {direction : Direction} {name : String}
  {updates : List ResourceUpdate}

theorem Pod.configured?_eq_some (h : p.configured? enabled direction = some (name, updates)) :
    ∃ configs, ScaleConfigs.ofPod p enabled = .ok configs ∧ configs.targetName = .ok name ∧
      configs.updates direction = updates := by
  unfold Pod.configured? at h
  cases hof : ScaleConfigs.ofPod p enabled with
  | error e => simp [hof, Except.toOption] at h
  | ok configs =>
    cases hname : configs.targetName with
    | error e => simp [hof, hname, Except.toOption] at h
    | ok n =>
      simp only [hof, hname, Except.toOption, Option.bind_some, Option.map_some, Option.some.injEq,
        Prod.mk.injEq] at h
      exact ⟨configs, rfl, by rw [hname, h.1], h.2⟩

theorem Pod.configured?_ne_nil (h : p.configured? enabled direction = some (name, updates)) :
    updates ≠ [] := by
  obtain ⟨configs, -, hname, rfl⟩ := Pod.configured?_eq_some h
  intro hnone
  have hresources := configs.updates_resources direction
  rw [hnone, ScaleConfigs.enabledNames] at hresources
  have hempty : configs.enabled = [] := List.map_eq_nil_iff.1 hresources.symm
  simp [ScaleConfigs.targetName, hempty] at hname

theorem Pod.configured?_pairwise (h : p.configured? enabled direction = some (name, updates)) :
    updates.Pairwise fun u v => u.resource.text ≠ v.resource.text := by
  obtain ⟨configs, hof, -, rfl⟩ := Pod.configured?_eq_some h
  exact (ScaleConfigs.ofPod_sound hof).updates_pairwise direction

theorem Pod.configured?_resources (h : p.configured? enabled direction = some (name, updates)) :
    updates.map (·.resource) = [ResourceName.cpu, .memory].filter enabled.contains := by
  obtain ⟨configs, hof, -, rfl⟩ := Pod.configured?_eq_some h
  rw [configs.updates_resources, ScaleConfigs.ofPod_enabledNames hof]

end Configured

section Patch
variable {base edited : Pod} {name : String} {updates : List ResourceUpdate}
  {version : Option String} {r : ResizePatch}

theorem Mutator.applyAll_command {u : StatusUpdate} {now : Time.Instant} {edit : Edit}
    (h : applyAll [resources name updates, u.mutator] now base = .ok edit) :
    edit.pod.containers = (base.withResources name updates).containers := by
  rw [(Writing.applyAll_mutators (z := ⟨u, some (name, updates)⟩) h).1]
  exact Writing.edited_containers _ now base

/-- A patch that sets what one pod configures sets what another does just if they configure the same. -/
theorem ResizePatch.derivedFrom_iff {given p : Pod} {enabled : List ResourceName}
    {direction : Direction} (h : ResizePatch.between? base edited version = some r)
    (hcontainers : edited.containers = (base.withResources name updates).containers)
    (hnames : (base.containers.map (·.name)).Nodup)
    (hgiven : given.configured? enabled direction = some (name, updates)) :
    r.DerivedFrom enabled direction p ↔
      p.configured? enabled direction = some (name, updates) := by
  obtain ⟨c, -, hlookup⟩ := ResizePatch.between?_command h hcontainers hnames
  have hset : ∀ u ∈ updates, ∀ side,
      r.quantity? name side u.resource.text = some (u.quantity side) := by
    intro u hu side
    rw [← c.quantity?_withUpdates (Pod.configured?_pairwise hgiven) side u hu]
    simp only [quantity?, hlookup, Option.bind_some]
    cases side <;> rfl
  constructor
  · rintro ⟨n, us, hp, hus⟩
    have hname : n = name := by
      obtain ⟨u, hu⟩ := List.exists_mem_of_ne_nil us (Pod.configured?_ne_nil hp)
      by_cases hn : n = name
      · exact hn
      · have hnone := hus u hu .request
        rw [quantity?, ResizePatch.lookup_command_of_ne h hcontainers hnames hn] at hnone
        cases hnone
    rw [hname] at hp hus
    have hresources : us.map (·.resource) = updates.map (·.resource) := by
      rw [Pod.configured?_resources hp, Pod.configured?_resources hgiven]
    rw [hp, updates_unique hresources hus hset]
  · intro hp
    exact ⟨name, updates, hp, hset⟩

end Patch

def Target.mutators (t : Target) (direction : Direction) (state : ScaleState) : List Mutator :=
  [.resources t.containerName (t.updates direction),
    (t.statusUpdate (direction.phase ++ " resources commanded") state).mutator]

section Command
variable {w : World} {s : Server} {t : Target}

/-- A command keeps to the client's ways. -/
theorem command_going (hs : s.Sound w) (ht : t.pod ∈ s.history) (hlog : s.log = [])
    (sync : CacheSync) (context : Context) (direction : Direction) (state : ScaleState) :
    Going t.pod (t.mutators direction state) true w
      (((Routing.command context t direction state).overApi sync).run (Server.handle w) s).2 := by
  have hcommand : ((Routing.command context t direction state).overApi sync).wp (Server.handle w)
      (fun _ u => Going t.pod (t.mutators direction state) true w u) s := by
    simp only [PodProgram.overApi, Routing.command, PodProgram.resize, bind, Program.bind,
      Program.interpret, Program.wp_bind, ApiClient.handle]
    refine Program.wp_mono (patch_going hs ht hlog sync context true) fun r u hu => ?_
    cases r <;> exact hu
  obtain ⟨-, -, hend⟩ := (Program.wp_iff_run _ _ _ s).1 hcommand
  exact hend

end Command

def startedTarget : Target where
  pod := (startedPod "3m" "1m").withVersion (some (tally 0))
  containerName := "app"
  configs :=
    { cpu := ⟨.cpu, some "app", some ⟨⟨"3m", ⟨3⟩⟩, ⟨"1m", ⟨1⟩⟩, ⟨"1m", ⟨1⟩⟩⟩, []⟩
      memory := ⟨.memory, some "app", none, []⟩ }
  states := {}

/-- What passes until the command has been carried out, if another writer stores a pod before the first
attempt has reached the server. -/
def logAround (p : Pod) : List Exchange :=
  let w : World := .putBefore 1 p
  let program := Routing.command ⟨⟨"ns", "pod"⟩, ⟨2, 0⟩⟩ startedTarget .down (.commanded .down)
  ((program.overApi {}).run (Server.handle w) (Server.holding w (startedPod "3m" "1m"))).2.log

theorem startedTarget_issued : startedTarget.pod.configured? [.cpu] .down =
    some (startedTarget.containerName, startedTarget.updates .down) := by decide +kernel

theorem startedTarget_stored (p : Pod) :
    (Server.holding (.putBefore 1 p) (startedPod "3m" "1m")).Sound (.putBefore 1 p) ∧
      startedTarget.pod ∈ (Server.holding (.putBefore 1 p) (startedPod "3m" "1m")).history :=
  ⟨Server.store_sound (Server.empty_sound _) (by decide +kernel), List.mem_cons_self⟩

def Patch.resizes (test : ResizePatch → Pod → Bool) : Patch → Pod → Bool
  | .resize r, p => test r p
  | .metadata _, _ => false

theorem exists_resize (log : List Exchange) (test : ResizePatch → Pod → Bool)
    (h : log.any (Exchange.isPatchOf (Patch.resizes test)) = true) :
    ∃ id r before after, .patched id (.resize r) before after ∈ log ∧ test r before = true := by
  obtain ⟨id, patch, before, after, hmem, hpasses⟩ := exists_patch log _ h
  cases patch with
  | resize r => exact ⟨id, r, before, after, hmem, hpasses⟩
  | metadata m => cases hpasses

/-- Each patch of resources that a command has had carried out sets what the command was issued with,
and that is what the patched pod configures just where it configures the same. -/
theorem resize_of_command {w : World} {s : Server} {t : Target} {direction : Direction}
    {state : ScaleState} {enabled : List ResourceName} (hs : s.Sound w)
    (ht : t.pod ∈ s.history) (hlog : s.log = [])
    (hissued : t.pod.configured? enabled direction = some (t.containerName, t.updates direction))
    (sync : CacheSync) (context : Context) {id : PodId} {r : ResizePatch} {before after : Pod}
    (hpatched : .patched id (.resize r) before after ∈
      (((Routing.command context t direction state).overApi sync).run (Server.handle w) s).2.log) :
    r.version = before.resourceVersion ∧
      (∀ u ∈ t.updates direction, ∀ side,
        after.textAt? (.quantityOf t.containerName side u.resource.text) = some (u.quantity side)) ∧
      (r.DerivedFrom enabled direction before ↔
        before.configured? enabled direction = some (t.containerName, t.updates direction)) := by
  have hend := command_going hs ht hlog sync context direction state
  obtain ⟨newer, older, hsplit⟩ := List.append_of_mem hpatched
  cases hend.faithful _ _ _ _ _ _ hsplit with
  | resize horigin _ hbetween =>
    obtain ⟨now, -, hedit⟩ := horigin.applied
    have hcontainers := Mutator.applyAll_command hedit
    obtain ⟨hstored, -⟩ := hend.sound.patched hsplit
    have hnames := hend.sound.distinct before hstored
    have hsets := Mutator.applyAll_sets (Mutator.command_onlySets _ _ _) hedit
    obtain ⟨hquantities, -, -⟩ := resized_entries hend.sound hsplit hbetween hsets
    obtain ⟨c, hc, -⟩ := ResizePatch.between?_command hbetween hcontainers hnames
    refine ⟨ResizePatch.between?_version hbetween, fun u hu side => ?_,
      ResizePatch.derivedFrom_iff hbetween hcontainers hnames hissued⟩
    rw [hquantities, ← c.quantity?_withUpdates (Pod.configured?_pairwise hissued) side u hu]
    simp only [Pod.textAt?, Pod.container?, hcontainers]
    have hfound := before.container?_withResources t.containerName (t.updates direction)
    rw [hc] at hfound
    simp only [Pod.container?] at hfound
    rw [hfound]
    rfl

/-- A pod that is stored again as it was is resized as it configures, under its new version. -/
theorem unchanged_pod_resize_derived :
    ∃ id r before after,
      .patched id (.resize r) before after ∈ logAround (startedPod "3m" "1m") ∧
        before.resourceVersion ≠ startedTarget.pod.resourceVersion ∧
        r.DerivedFrom [.cpu] .down before := by
  obtain ⟨id, r, before, after, hmem, htest⟩ := exists_resize (logAround (startedPod "3m" "1m"))
    (fun _ p => p.resourceVersion ≠ startedTarget.pod.resourceVersion &&
      p.configured? [.cpu] .down = some ("app", startedTarget.updates .down)) (by decide +kernel)
  simp only [Bool.and_eq_true, decide_eq_true_eq] at htest
  obtain ⟨hs, ht⟩ := startedTarget_stored (startedPod "3m" "1m")
  have hresize := resize_of_command hs ht rfl startedTarget_issued _ _ hmem
  exact ⟨id, r, before, after, hmem, htest.1, hresize.2.2.2 htest.2⟩

/-- A pod that configures more by the time of the second attempt is still given what it configured when
the command was issued. -/
theorem reconfigured_pod_resize_stale :
    (Server.holding (.putBefore 1 (startedPod "3m" "2m")) (startedPod "3m" "1m")).Sound
        (.putBefore 1 (startedPod "3m" "2m")) ∧
      startedTarget.pod ∈ (Server.holding (.putBefore 1 (startedPod "3m" "2m"))
        (startedPod "3m" "1m")).history ∧
      startedTarget.pod.configured? [.cpu] .down =
        some (startedTarget.containerName, startedTarget.updates .down) ∧
      ∃ id r before after,
        .patched id (.resize r) before after ∈ logAround (startedPod "3m" "2m") ∧
          r.version = before.resourceVersion ∧ ¬ r.DerivedFrom [.cpu] .down before := by
  obtain ⟨id, r, before, after, hmem, htest⟩ := exists_resize (logAround (startedPod "3m" "2m"))
    (fun r p => r.version = p.resourceVersion &&
      p.configured? [.cpu] .down = some ("app", [⟨.cpu, "2m", "2m"⟩]) &&
        r.quantity? "app" .request "cpu" = some "1m") (by decide +kernel)
  simp only [Bool.and_eq_true, decide_eq_true_eq] at htest
  obtain ⟨⟨hversion, hconfigured⟩, hquantity⟩ := htest
  obtain ⟨hs, ht⟩ := startedTarget_stored (startedPod "3m" "2m")
  refine ⟨hs, ht, startedTarget_issued, id, r, before, after, hmem, hversion, ?_⟩
  rintro ⟨name, updates, hasked, hset⟩
  rw [hconfigured] at hasked
  cases hasked
  have hrequest := hset _ List.mem_cons_self .request
  rw [show ResourceName.cpu.text = "cpu" from rfl, hquantity] at hrequest
  exact absurd hrequest (by decide)

end PodSizing
