import Mathlib.Data.List.TakeWhile
import PodSizing.Proofs.Watch.Timing

/-!
# What is done about reports

About each report the watch does what the report calls for, all of it before it looks at the next one: the
bus is told what happened to the pod, then triggers are sent off, each of a pod that the cache holds. This
is so for reports in any order.
-/
namespace PodSizing

namespace Cache
variable {c : Cache} {p : Pod}

/-- The cache holds a pod under the key of this one; by its name that pod is found. -/
structure Holds (c : Cache) (p : Pod) : Prop where
  key : ∃ q, c.lookup? p.cacheKey = some q
  named : p.metadata.name.isSome = true → (c.find? p.id).isSome = true

theorem holds_of_lookup? (h : ∃ q, c.lookup? p.cacheKey = some q) : c.Holds p := by
  refine ⟨h, fun hname => ?_⟩
  obtain ⟨name, hname⟩ := Option.isSome_iff_exists.1 hname
  obtain ⟨q, hq⟩ := h
  unfold Cache.find? Cache.get?
  simp only [Pod.cacheKey, hname, Option.getD_some, Pod.id, Pod.effectiveName] at hq ⊢
  cases hspace : p.metadata.namespaceName with
  | some space =>
    rw [hspace] at hq
    simp [hq]
  | none =>
    rw [hspace] at hq
    simp [hq]

end Cache

namespace Feed
variable {s t u : Feed} {log : List Moment} {deed : Deed}

def Deed.looked : Deed → List WatchEvent
  | .look report => [report]
  | _ => []

def Deed.came : Deed → List WatchEvent
  | .come report => [report]
  | _ => []

def looked (log : List Moment) : List WatchEvent := log.flatMap (·.deed.looked)

def came (log : List Moment) : List WatchEvent := log.flatMap (·.deed.came)

def meanwhile (log : List Moment) : List Moment := log.takeWhile fun m => !m.deed.isLook

def calledFor (reports : List WatchEvent) (j : Nat) (w : Watch) (report : WatchEvent) :
    List Watch.Action :=
  (w.told report).map .publish ++ (Watch.released reports j).map .trigger

def fresh (queue : TriggerQueue) (bus : Bus) (now : Nat) : Feed := { queue, bus, now }

variable {queue : TriggerQueue} {bus : Bus} {now : Nat}

theorem looked_append (log later : List Moment) : looked (log ++ later) = looked log ++ looked later :=
  List.flatMap_append

@[simp] theorem looked_concat (log : List Moment) (m : Moment) :
    looked (log ++ [m]) = looked log ++ m.deed.looked := by
  simp [looked]

@[simp] theorem came_concat (log : List Moment) (m : Moment) :
    came (log ++ [m]) = came log ++ m.deed.came := by
  simp [came]

/-- The watch is what the reports that it has looked at make of it. -/
theorem Run.watch_eq (h : Run (fresh queue bus now) log t) : t.watch = Watch.after (looked log) := by
  induction h with
  | start => rfl
  | step h hstep ih =>
    rw [looked_concat]
    cases hstep with
    | look => exact ih ▸ (Watch.after_concat _ _).symm
    | _ => exact ih.trans (by simp only [Deed.looked, List.append_nil])

theorem Run.came_eq (h : Run (fresh queue bus now) log t) :
    looked log <+: came log ∧ (t.isRunning = true → came log = looked log ++ t.inbox) := by
  induction h with
  | start => exact ⟨List.prefix_rfl, fun _ => rfl⟩
  | @step log f g deed h hstep ih =>
    obtain ⟨hbegun, hrest⟩ := ih
    rw [looked_concat, came_concat]
    cases hstep with
    | look running free idle next =>
      have hcame := hrest running
      rw [next] at hcame
      simp only [Deed.looked, Deed.came, List.append_nil, hcame, List.append_assoc,
        List.singleton_append, implies_true, and_true]
      exact List.prefix_append_right_inj _ |>.2 ⟨_, rfl⟩
    | come running =>
      simp only [Deed.looked, Deed.came, List.append_nil]
      refine ⟨hbegun.trans (List.prefix_append _ _), fun _ => ?_⟩
      rw [hrest running, List.append_assoc]
    | stop =>
      simp only [Deed.looked, Deed.came, List.append_nil]
      exact ⟨hbegun, fun running => by cases running⟩
    | _ =>
      simp only [Deed.looked, Deed.came, List.append_nil]
      exact ⟨hbegun, hrest⟩

/-- What a report calls for is done in order, up to what is left to do. -/
theorem Run.carried_eq {report : WatchEvent} (hlook : Step s (.look report) t) (hlater : Run t log u)
    (hmeanwhile : ∀ m ∈ log, m.deed.isLook = false) :
    carried log <+: (s.watch.observe report).1 ∧
      (u.isRunning = true → carried log ++ u.actions = (s.watch.observe report).1) := by
  have hcarried := Run.carried_actions hlater hmeanwhile
  cases hlook
  exact hcarried

theorem Run.actions_cached (h : Run (fresh queue bus now) log t) {p : Pod}
    (hp : Watch.Action.trigger p ∈ t.actions) : ∃ q, t.watch.cache.lookup? p.cacheKey = some q := by
  induction h with
  | start => cases hp
  | @step log f g deed h hstep ih =>
    cases hstep with
    | look =>
      have hawaits : f.watch.AwaitsListed := Run.watch_eq h ▸ Watch.after_awaitsListed _
      exact Watch.observe_cached hawaits (List.mem_filterMap.2 ⟨_, hp, rfl⟩)
    | publish running free next | trigger running free next =>
      exact ih (next ▸ List.mem_cons_of_mem _ hp)
    | stop => cases hp
    | _ => exact ih hp

theorem Run.trigger_cached (h : Run (fresh queue bus now) log t) {m : Moment} (hm : m ∈ log) {p : Pod}
    (hdeed : m.deed = .trigger p) : m.state.watch.cache.Holds p := by
  obtain ⟨before, after, rfl⟩ := List.append_of_mem hm
  obtain ⟨s, hbefore, hafter⟩ := h.split
  obtain ⟨rfl, u, hstep, -⟩ := hafter.head
  rw [hdeed] at hstep
  cases hstep with
  | trigger running free next =>
    exact Cache.holds_of_lookup? (Run.actions_cached hbefore (next ▸ List.mem_cons_self))

/-- A report has been handled by `t` as far as may be: what it calls for was begun in order, was all done
before the next report was looked at, and is left to do as far as it has not been done. -/
structure Handled (reports : List WatchEvent) (before : List Moment) (s : Feed) (report : WatchEvent)
    (later : List Moment) (t : Feed) : Prop where
  begun : carried (meanwhile later) <+: calledFor reports (looked before).length s.watch report
  done : (∃ m ∈ later, m.deed.isLook = true) →
    carried (meanwhile later) = calledFor reports (looked before).length s.watch report
  left : (∀ m ∈ later, m.deed.isLook = false) → t.isRunning = true →
    carried later ++ t.actions = calledFor reports (looked before).length s.watch report

/-- The actions of a report are what it is said to call for, whatever comes later. -/
theorem observe_calledFor (earlier more : List WatchEvent) (report : WatchEvent) :
    ((Watch.after earlier).observe report).1 =
      calledFor (earlier ++ report :: more) earlier.length (Watch.after earlier) report := by
  have hlength : earlier.length < (earlier ++ [report]).length := by simp
  have hreleased : Watch.released (earlier ++ report :: more) earlier.length =
      Watch.released (earlier ++ [report]) earlier.length := by
    rw [List.append_cons]
    exact Watch.released_append hlength more
  rw [Watch.observe_told, Watch.triggered_observe, calledFor, hreleased]

theorem Step.of_isLook (h : Step s deed t) (hlooks : deed.isLook = true) :
    s.isRunning = true ∧ s.actions = [] := by
  cases h with
  | look running free idle => exact ⟨running, idle⟩
  | _ => cases hlooks

theorem isLook_meanwhile {later : List Moment} {m : Moment} (hm : m ∈ meanwhile later) :
    m.deed.isLook = false := by
  simpa using List.mem_takeWhile_imp hm

theorem meanwhile_split (later : List Moment) :
    meanwhile later = later ∧ (∀ m ∈ later, m.deed.isLook = false) ∨
      ∃ m rest, later = meanwhile later ++ m :: rest ∧ m.deed.isLook = true := by
  have hsplit : meanwhile later ++ later.dropWhile (fun m => !m.deed.isLook) = later :=
    List.takeWhile_append_dropWhile
  have hhead := List.head?_dropWhile_not (fun m : Moment => !m.deed.isLook) later
  cases hrest : later.dropWhile fun m => !m.deed.isLook with
  | nil =>
    rw [hrest, List.append_nil] at hsplit
    exact .inl ⟨hsplit, fun m hm => isLook_meanwhile (hsplit ▸ hm)⟩
  | cons m rest =>
    rw [hrest] at hsplit hhead
    exact .inr ⟨m, rest, hsplit.symm, by simpa using hhead⟩

theorem Run.handled {before later : List Moment} {report : WatchEvent}
    (h : Run (fresh queue bus now) (before ++ ⟨s, .look report⟩ :: later) t) :
    Handled (looked (before ++ ⟨s, .look report⟩ :: later)) before s report later t := by
  obtain ⟨s', hbefore, hafter⟩ := h.split
  obtain ⟨rfl, u, hlook, hlater⟩ := hafter.head
  have hcalled : (s.watch.observe report).1 =
      calledFor (looked (before ++ ⟨s, .look report⟩ :: later)) (looked before).length s.watch report := by
    have hlooked : looked (before ++ ⟨s, .look report⟩ :: later) =
        looked before ++ report :: looked later := looked_append _ _
    rw [hlooked, Run.watch_eq hbefore, observe_calledFor _ (looked later)]
  rcases meanwhile_split later with ⟨hall, hnone⟩ | ⟨m, rest, hsplit, hlooks⟩
  · obtain ⟨hbegun, hleft⟩ := Run.carried_eq hlook hlater hnone
    rw [hcalled] at hbegun hleft
    refine ⟨hall.symm ▸ hbegun, fun ⟨m, hm, hlooks⟩ => ?_, fun _ => hleft⟩
    rw [hnone m hm] at hlooks
    cases hlooks
  · have hlater' := hlater
    rw [hsplit] at hlater'
    obtain ⟨v, hmeanwhile, hnext⟩ := hlater'.split
    obtain ⟨rfl, w, hlook', -⟩ := hnext.head
    obtain ⟨hrunning, hidle⟩ := hlook'.of_isLook hlooks
    obtain ⟨hbegun, hleft⟩ := Run.carried_eq hlook hmeanwhile fun m hm => isLook_meanwhile hm
    have hdone := hleft hrunning
    rw [hcalled] at hbegun hdone
    rw [hidle, List.append_nil] at hdone
    refine ⟨hbegun, fun _ => hdone, fun hnone => ?_⟩
    have hm : m ∈ later := hsplit ▸ List.mem_append_right _ List.mem_cons_self
    rw [hnone m hm] at hlooks
    cases hlooks

theorem fresh_sound (queue : TriggerQueue) (bus : Bus) (now : Nat) : (fresh queue bus now).Sound :=
  ⟨fun _ => rfl, fun d hd => by cases hd⟩

/-- Whatever is reported, in whatever order, and whatever others do meanwhile: reports are looked at as they
come in, and each one is handled before the next; the cache holds a pod when its trigger is sent; and no
report's trigger is sent off twice. Whatever the feed is made to do, at any point, goes this way. -/
theorem reports_told_then_triggered (hrun : Run (fresh queue bus now) log t) :
    (looked log <+: came log ∧ (t.isRunning = true → came log = looked log ++ t.inbox)) ∧
      (∀ before s report later, log = before ++ ⟨s, .look report⟩ :: later →
        Handled (looked log) before s report later t) ∧
      (∀ m ∈ log, ∀ p, m.deed = .trigger p → m.state.watch.cache.Holds p) ∧
      (∀ i j j', Watch.Releases (looked log) i j → Watch.Releases (looked log) i j' → j = j') ∧
      t.Executed := by
  have hsound : t.Sound := (fresh_sound queue bus now).run hrun
  refine ⟨Run.came_eq hrun, fun before s report later hlog => ?_,
    fun m hm p hdeed => Run.trigger_cached hrun hm hdeed, fun i j j' => Watch.Releases.unique,
    hsound.executed⟩
  subst hlog
  exact Run.handled hrun

/-- A stray end of a list, a list that is broken off and started again, and a change of another pod in the
middle of it: each pod is triggered once. -/
theorem restartedList_triggers :
    let p : Pod := .bare ⟨"ns", "listed"⟩ (some "1")
    let q : Pod := .bare ⟨"ns", "applied"⟩ (some "2")
    let reports : List WatchEvent :=
      [.initDone, .init, .initApply p, .init, .initApply p, .apply q, .initDone]
    ∃ log t, Run (fresh { capacity := 2 } {} 0) log t ∧ looked log = reports ∧
      carried log = [.publish ⟨.create, p⟩, .publish ⟨.create, p⟩, .publish ⟨.create, q⟩, .trigger q,
        .trigger p] ∧ t.queue.pods = [q, p] ∧
      (∀ before s report later, log = before ++ ⟨s, .look report⟩ :: later →
        Handled (looked log) before s report later t) ∧
      (∀ m ∈ log, ∀ p, m.deed = .trigger p → m.state.watch.cache.Holds p) ∧
      t.Executed ∧ t.drain.1 = [q, p] := by
  intro p q reports
  have hrun : Run (fresh { capacity := 2 } {} 0) _ _ := Trace.start.step (.come rfl rfl .initDone)
  have hrun := hrun.step (.come rfl rfl .init)
  have hrun := hrun.step (.look rfl rfl rfl rfl)
  have hrun := hrun.step (.look rfl rfl rfl rfl)
  have hrun := hrun.step (.come rfl rfl (.initApply p))
  have hrun := hrun.step (.come rfl rfl .init)
  have hrun := hrun.step (.look rfl rfl rfl rfl)
  have hrun := hrun.step (.publish rfl rfl rfl)
  have hrun := hrun.step (.come rfl rfl (.initApply p))
  have hrun := hrun.step (.bus (.conclude rfl rfl) rfl)
  have hrun := hrun.step (.look rfl rfl rfl rfl)
  have hrun := hrun.step (.look rfl rfl rfl rfl)
  have hrun := hrun.step (.publish rfl rfl rfl)
  have hrun := hrun.step (.bus (.conclude rfl rfl) rfl)
  have hrun := hrun.step (.come rfl rfl (.apply q))
  have hrun := hrun.step (.come rfl rfl .initDone)
  have hrun := hrun.step (.look rfl rfl rfl rfl)
  have hrun := hrun.step (.publish rfl rfl rfl)
  have hrun := hrun.step (.bus (.conclude rfl rfl) rfl)
  have hrun := hrun.step (.trigger rfl rfl rfl rfl (by decide +kernel))
  have hrun := hrun.step (.look rfl rfl rfl rfl)
  have hrun := hrun.step (.trigger rfl rfl rfl rfl (by decide +kernel))
  obtain ⟨-, hhandled, hcached, -, hexecuted⟩ := reports_told_then_triggered hrun
  exact ⟨_, _, hrun, by decide +kernel, by decide +kernel, by decide +kernel, hhandled, hcached,
    hexecuted, by decide +kernel⟩

end Feed
end PodSizing
