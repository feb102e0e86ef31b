import PodSizing.Controller
import PodSizing.Proofs.Reconcile.Sessions

/-!
# One reconcile at a time for each pod

Reconciles that take turns in any order keep to their pods. Whatever a controller does as time passes is
one of the ways to take turns, where those that it gives up are cancelled: the pods in progress are those
of the reconciles that it waits for, also when one has failed and takes down the others.
-/
namespace PodSizing
namespace Controller
open Pool (Leads Follows)

abbrev Active := CacheKey × Session.Run × Nat

def waiting (active : List Active) : List Running := active.map (·.2.1.waiting)

structure Tracks (config : ReconcileConfig) (c : Controller) (after : List Running) (t : Pool) :
    Prop where
  config_eq : c.config = config
  follows : t.Follows c.session.store c.session.inProgress (waiting c.active ++ after)

variable {config : ReconcileConfig} {t : Pool} {c : Controller} {after : List Running}

theorem cancel_leads (active : List Active) {store : Store} {inProgress : InProgress}
    (h : t.Follows store inProgress (waiting active ++ after)) :
    Leads config t
      (·.Follows store (active.foldl (fun s a => s.release a.2.1.id) inProgress) after) := by
  induction active generalizing t inProgress with
  | nil => exact .here h
  | cons a rest ih =>
    have hfirst : t.Follows store inProgress ([] ++ a.2.1.waiting :: (waiting rest ++ after)) := h
    exact .next (.cancel [] (waiting rest ++ after) h.running) (ih hfirst.leave)

theorem giveUp_leads (h : Tracks config c after t) :
    Leads config t (Tracks config c.giveUp after) :=
  (cancel_leads c.active h.follows).trans fun _ hu => .here ⟨h.config_eq, hu⟩

theorem settleRun_leads (h : Tracks config c after t) (key : CacheKey)
    (result : Except String Outcome) :
    Leads config t (Tracks config (settleRun key result c) after) := by
  cases result with
  | error message => exact (giveUp_leads h).trans fun _ hu => .here ⟨hu.config_eq, hu.follows⟩
  | ok outcome =>
    have hsame : (settleRun key (.ok outcome) c).config = c.config ∧
        (settleRun key (.ok outcome) c).session = c.session ∧
        (settleRun key (.ok outcome) c).active = c.active := by
      unfold settleRun
      dsimp only
      split <;> exact ⟨rfl, rfl, rfl⟩
    obtain ⟨hconfig, hsession, hactive⟩ := hsame
    exact .here ⟨hconfig.trans h.config_eq, by rw [hsession, hactive]; exact h.follows⟩

theorem completeDue_leads (active : List Active) (h : Tracks config c (waiting active) t) :
    Leads config t (Tracks config (completeDue active c) []) := by
  induction active generalizing c t with
  | nil => exact .here h
  | cons a rest ih =>
    obtain ⟨key, run, due⟩ := a
    unfold completeDue
    split
    · refine giveUp_leads ⟨h.config_eq, ?_⟩
      simpa [waiting] using h.follows
    · split
      · refine ih ⟨h.config_eq, ?_⟩
        simpa [waiting] using h.follows
      · refine (Session.complete_leads h.follows).trans fun u hu => ?_
        have hdone : Tracks config { c with session := (c.session.complete run).2 } (waiting rest) u :=
          ⟨h.config_eq, hu⟩
        exact (settleRun_leads hdone key _).trans fun _ hv => ih hv

theorem start_leads (h : Tracks config c [] t) (key : CacheKey) :
    Leads config t (Tracks config (start key c) []) := by
  obtain ⟨rfl, hfollows⟩ := h
  rw [List.append_nil] at hfollows
  unfold start
  split
  · exact .here ⟨rfl, by rwa [List.append_nil]⟩
  · next p hp =>
    refine (Session.start_leads hfollows p.id).trans fun u hu => ?_
    cases hstart : c.session.start c.config p.id with
    | mk first session =>
      rw [hstart] at hu
      rcases first with result | run
      · have hended : Tracks c.config { c with session } [] u := ⟨rfl, hu⟩
        exact settleRun_leads hended key result
      · refine .here ⟨rfl, ?_⟩
        simpa [waiting, Session.Start.waiting] using hu

theorem startDue_leads (count : Nat) (h : Tracks config c [] t) :
    Leads config t (Tracks config (startDue count c) []) := by
  induction count generalizing c t with
  | zero => exact .here h
  | succ count ih =>
    unfold startDue
    split
    · exact .here h
    · split
      · exact .here ⟨h.config_eq, h.follows⟩
      · split
        · next key queue htake =>
          have hqueue : Tracks config { c with queue } [] t := ⟨h.config_eq, h.follows⟩
          exact (start_leads hqueue key).trans fun _ hu => ih hu
        · exact .here ⟨h.config_eq, h.follows⟩

theorem rounds_leads (count : Nat) (h : Tracks config c [] t) :
    Leads config t (Tracks config (rounds count c) []) := by
  induction count generalizing c t with
  | zero => exact .here h
  | succ count ih =>
    have hmoved : Tracks config { c with active := [] } (waiting c.active) t :=
      ⟨h.config_eq, by simpa [waiting] using h.follows⟩
    exact (completeDue_leads c.active hmoved).trans fun _ hu =>
      (startDue_leads _ hu).trans fun _ hv => ih hv

theorem conclude_leads (h : Tracks config c [] t) :
    Leads config t (Tracks config c.conclude []) := by
  have hgrace : Leads config t (Tracks config (if c.isGraceOver then c.giveUp else c) []) := by
    split
    · exact giveUp_leads h
    · exact .here h
  unfold conclude
  split
  · split <;> exact .here ⟨h.config_eq, h.follows⟩
  · generalize (if c.isGraceOver then c.giveUp else c) = d at hgrace ⊢
    refine hgrace.trans fun _ hu => .here ?_
    dsimp only
    split <;> exact ⟨hu.config_eq, hu.follows⟩

theorem settle_leads (h : Tracks config c [] t) :
    Leads config t (Tracks config c.settle []) :=
  (rounds_leads _ h).trans fun _ hu => conclude_leads hu

/-- As time passes, reconciles take turns. -/
theorem pass_leads (millis : Nat) (h : Tracks config c [] t) :
    Leads config t (Tracks config (c.pass millis) []) := by
  induction millis using Nat.strongRecOn generalizing c t with
  | ind millis ih =>
    unfold pass
    split
    · exact .here h
    · refine (settle_leads h).trans fun u hu => ih _ (by omega) ?_
      exact ⟨hu.config_eq, hu.follows.events, hu.follows.inProgress, hu.follows.running⟩

/-- What a controller becomes by all that can be done to it. -/
inductive Moves (c : Controller) : Controller → Prop where
  | start : Moves c c
  | pass {d : Controller} (h : Moves c d) (millis : Nat) : Moves c (d.pass millis)
  | trigger {d : Controller} (h : Moves c d) (keys : List CacheKey) : Moves c (d.trigger keys)
  | close {d : Controller} (h : Moves c d) : Moves c d.close
  | drain {d : Controller} (h : Moves c d) : Moves c d.drain
  /-- Others change the pods. -/
  | change {d : Controller} (h : Moves c d) {store : Store}
    (hevents : store.events = d.session.store.events) :
    Moves c { d with session := { d.session with store } }

theorem moves_leads {d : Controller} (hmoves : Moves c d) (h : Tracks config c [] t) :
    Leads config t (Tracks config d []) := by
  induction hmoves with
  | start => exact .here h
  | pass _ millis ih => exact ih.trans fun _ hu => pass_leads millis hu
  | trigger _ keys ih =>
    refine ih.trans fun _ hu => .here ?_
    unfold trigger
    split
    · exact hu
    · exact ⟨hu.config_eq, hu.follows⟩
  | close _ ih => exact ih.trans fun _ hu => .here ⟨hu.config_eq, hu.follows⟩
  | drain _ ih => exact ih.trans fun _ hu => .here ⟨hu.config_eq, hu.follows⟩
  | change _ hevents ih =>
    exact ih.trans fun _ hu =>
      .here ⟨hu.config_eq, hu.follows.events.trans hevents.symm, hu.follows.inProgress,
        hu.follows.running⟩

/-- Whatever is done to a controller that has started nothing yet, the pods in progress are those of the
reconciles that it waits for. -/
theorem inProgress_perm {d : Controller} (hmoves : Moves c d)
    (hactive : c.active = []) (hnone : c.session.inProgress.ids = []) :
    d.session.inProgress.ids.Perm (d.active.map (·.2.1.id)) := by
  have htidy : Pool.Tidy ⟨c.session.inProgress, [], [], c.session.store.events⟩ :=
    ⟨by simp [hnone], by simp⟩
  have htracks : Tracks c.config c [] ⟨c.session.inProgress, [], [], c.session.store.events⟩ :=
    ⟨rfl, rfl, rfl, by simp [hactive, waiting]⟩
  obtain ⟨acts, u, hrun, hu⟩ := moves_leads hmoves htracks
  have hperm := (htidy.run hrun).1.held
  rw [hu.follows.running, hu.follows.inProgress] at hperm
  simpa [waiting, Session.Run.waiting, Function.comp_def] using hperm

end Controller

namespace Pool
variable {config : ReconcileConfig} {s : Pool}

/-- How sessions and controllers carry reconciles out. -/
structure Executed (config : ReconcileConfig) : Prop where
  deferred : ∀ (s : Session) (id : PodId), s.inProgress.contains id = true →
    Session.start config id s = (.over (.ok (.requeue config.requeueMillis)),
      { s with store := s.store.record [.existingInProgress] })
  started : ∀ (s : Session) (ids : List PodId), s.store.faults.panicsOnGet = false →
    Session.Started ids s (Session.startAll config ids s).2
  /-- However its reconciles end, a session gives back all pods. -/
  completed : ∀ (s : Session) (ids : List PodId), s.inProgress.ids = [] →
    (Session.reconcileAll config ids s).2.inProgress.ids = []
  /-- Also when it gives up what runs, a controller waits for one reconcile of each pod in progress. -/
  controlled : ∀ c d : Controller, c.config = config → c.active = [] →
    c.session.inProgress.ids = [] → Controller.Moves c d →
    (d.active.map (·.2.1.id)).Nodup ∧
      d.session.inProgress.ids.Perm (d.active.map (·.2.1.id))

theorem executed (config : ReconcileConfig) : Executed config where
  deferred _ _ h := Session.start_deferred (InProgress.contains_iff.1 h)
  started _ ids hcalm := Session.startAll_started config ids hcalm
  completed _ ids hnone := Session.reconcileAll_inProgress config ids hnone
  controlled _ d _ hactive hnone hmoves :=
    have hperm := Controller.inProgress_perm hmoves hactive hnone
    ⟨hperm.nodup_iff.1 d.session.inProgress.nodup, hperm⟩

/-- At most one reconcile runs for each pod, through any turns, panics and cancellations: one that is asked
for while another runs is to come back later, and changes nothing but the count of those; when none runs,
no pod is in progress, and whatever is asked for is admitted. Sessions and controllers carry reconciles
out just so. -/
theorem reconciles_oneAtATime {acts : List Act} (h : Run config {} acts s) :
    (∀ id, s.inProgress.contains id = true ↔ ∃ r ∈ s.running, r.id = id) ∧
      (s.running.map (·.id)).Nodup ∧
      (∀ id, s.inProgress.contains id = true → s.request config id =
        (.deferred (.requeue config.requeueMillis),
          { s with events := s.events ++ [.existingInProgress] })) ∧
      (∀ id, s.inProgress.contains id = false → (s.request config id).1 = .admitted) ∧
      s.events.count .existingInProgress = acts.countP Act.isDeferral ∧
      (s.running = [] → s.inProgress.ids = [] ∧ ∀ id, (s.request config id).1 = .admitted) ∧
      Executed config := by
  obtain ⟨htidy, hcount⟩ := empty_tidy.run h
  have hadmitted {id : PodId} (hid : id ∉ s.inProgress.ids) :
      (s.request config id).1 = .admitted := by
    rw [request_admitted hid]
  refine ⟨fun id => ?_, ?_, fun id hid => ?_, fun id hid => ?_, ?_, fun hnone => ?_, executed config⟩
  · rw [InProgress.contains_iff, htidy.held.mem_iff, List.mem_map]
  · exact htidy.held.nodup_iff.1 s.inProgress.nodup
  · exact request_deferred (InProgress.contains_iff.1 hid)
  · exact hadmitted (decide_eq_false_iff_not.1 hid)
  · simpa using hcount
  · have hids : s.inProgress.ids = [] := by
      have hperm := htidy.held
      rwa [hnone, List.map_nil, List.perm_nil] at hperm
    exact ⟨hids, fun id => hadmitted (by simp [hids])⟩

/-- One pod is asked for again while its reconcile waits, the reconcile of another pod is cancelled, and
one that is admitted later panics. -/
theorem twoPods_oneAtATime :
    ∃ acts s, Run { enabled := [.cpu] } {} acts s ∧ acts.countP Act.isDeferral = 1 ∧
      s.running = [] ∧ s.inProgress.ids = [] ∧ s.events.count .existingInProgress = 1 ∧
      Executed { enabled := [.cpu] } := by
  have hadmitted : Run { enabled := [.cpu] } {} [_] _ :=
    Run.start.step (.enter ⟨"ns", "a"⟩ (by simp))
  have hasked := hadmitted.step (.ask [] [] rfl rfl)
  have hdeferred := hasked.step (.defer ⟨"ns", "a"⟩ (by simp))
  have hother := hdeferred.step (.enter ⟨"ns", "b"⟩ (by decide))
  have hanswered := hother.step (.answer [] [_] rfl (Except.ok none))
  have hcancelled := hanswered.step (.cancel [_] [] rfl)
  have hcounted := hcancelled.step (.record [] [] rfl)
  have hfinished := hcounted.step (.finish [] [] rfl)
  have hagain := hfinished.step (.enter ⟨"ns", "a"⟩ (by decide))
  have hpanicked := hagain.step (.panic [] [] rfl)
  obtain ⟨-, -, -, -, hcount, hempty, hexecuted⟩ := reconciles_oneAtATime hpanicked
  exact ⟨_, _, hpanicked, rfl, rfl, (hempty rfl).1, hcount, hexecuted⟩

end Pool
end PodSizing
