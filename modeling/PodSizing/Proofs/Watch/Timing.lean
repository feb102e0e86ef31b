import PodSizing.Proofs.Watch.Settling

/-!
# The feed in time

Time passes only where the watch cannot go on by itself, so a subscriber is waited for no longer than it
may be. Draining the queue leaves no trigger behind that could still come from what has been reported. A
new subscription waits for the publication in hand, which is over in the time that its subscribers have.
-/
namespace PodSizing
namespace Feed
variable {f g : Feed} {log : List Moment} {deed : Deed}

/-- A watch that has ended has nothing in hand, and nobody is waited for past the timeout. -/
structure Sound (f : Feed) : Prop where
  ended : f.isRunning = false → f.delivery = none
  prompt : ∀ d, f.delivery = some d → f.now ≤ d.turn + d.timeoutMillis

theorem Step.sound (hstep : Step f deed g) (h : f.Sound) : g.Sound := by
  obtain ⟨hended, hprompt⟩ := h
  cases hstep with
  | look | trigger | come | complete | take | closeQueue => exact ⟨hended, hprompt⟩
  | publish running =>
    refine ⟨fun ended => ?_, fun d hd => ?_⟩
    · rw [running] at ended
      cases ended
    · cases hd
      exact Nat.le_add_right _ _
  | stop _ free => exact ⟨fun _ => free, hprompt⟩
  | bus hbus others =>
    cases hbus with
    | subscribe | unsubscribe | clear | abandon | receive => exact ⟨hended, hprompt⟩
    | publish => cases others
    | hand under | pass under | miss under =>
      refine ⟨fun ended => ?_, fun d hd => ?_⟩
      · cases under.symm.trans (hended ended)
      · cases hd
        exact Nat.le_add_right _ _
    | wait under _ _ _ millis _ early =>
      refine ⟨hended, fun d hd => ?_⟩
      cases under.symm.trans hd
      exact early
    | idle free =>
      refine ⟨hended, fun d hd => ?_⟩
      cases free.symm.trans hd
    | conclude => exact ⟨fun _ => rfl, fun d hd => by cases hd⟩

theorem Sound.run (h : f.Sound) (hrun : Run f log g) : g.Sound := by
  induction hrun with
  | start => exact h
  | step _ hstep ih => exact hstep.sound ih

theorem Sound.via {A : Moment → Prop} (h : f.Sound) (hvia : Via Step A f g) : g.Sound := by
  obtain ⟨log, hlog, -⟩ := hvia
  exact h.run hlog

theorem Step.own_now (hstep : Step f deed g) (hown : deed.isOwn = true) : g.now = f.now := by
  cases hstep with
  | bus hbus =>
    cases hbus with
    | wait | idle => cases hown
    | _ => rfl
  | _ => rfl

theorem Settles.now (h : f.Settles g) : g.now = f.now :=
  h.2.keeps (P := fun s => s.now = f.now) rfl fun hstep hown hs => (hstep.own_now hown).trans hs

def Awaits (m : Moment) : Prop := Timely m ∧ ∃ deed, m.deed = .bus deed

theorem Blocked.wait (h : f.Blocked) {millis : Nat} (hmillis : 0 < millis)
    (hlong : f.delivery.isSome = true → millis = 1) :
    Via Step Awaits f { f with now := f.now + millis } := by
  have hwait : Traffic.Step f.traffic (.wait millis) ⟨f.bus, f.now + millis, f.delivery⟩ := by
    by_cases hfree : f.delivery = none
    · exact Traffic.Step.idle (s := f.traffic) hfree millis hmillis
    · obtain ⟨d, hd⟩ := Option.ne_none_iff_exists'.1 hfree
      obtain ⟨id, rest, hnext, hthere, hfull, hearly⟩ := h.waits hd
      obtain rfl : millis = 1 := hlong (by rw [hd]; rfl)
      exact Traffic.Step.wait (s := f.traffic) hd hnext hthere hfull 1 hmillis hearly
  exact .single (.bus hwait rfl) ⟨.inr ⟨h, millis, rfl⟩, _, rfl⟩

theorem pass_via (millis : Nat) (h : f.Sound) :
    Via Step Timely f (pass millis f) ∧ (pass millis f).now = f.now + millis := by
  induction millis generalizing f with
  | zero => exact ⟨.refl f, rfl⟩
  | succ millis ih =>
    have hsettles := settle_settles f h.ended
    have hsettled : Via Step Timely f f.settle := hsettles.2.mono fun _ => .inl
    have hsound := h.via hsettled
    unfold pass
    simp only
    split
    · have hlater := hsettled.trans ((hsettles.1.wait Nat.one_pos fun _ => rfl).mono fun _ h => h.1)
      obtain ⟨hvia, hnow⟩ := ih (h.via hlater)
      refine ⟨hlater.trans hvia, ?_⟩
      rw [hnow]
      simp only [hsettles.now]
      omega
    · next hfree =>
      have hlater := hsettles.1.wait (Nat.succ_pos millis) fun hwaits => absurd hwaits hfree
      exact ⟨hsettled.trans (hlater.mono fun _ h => h.1), congrArg (· + (millis + 1)) hsettles.now⟩

def triggersLeft (actions : List Watch.Action) : Nat := (Watch.triggered actions).length

theorem triggersLeft_trigger (p : Pod) (actions : List Watch.Action) :
    triggersLeft (.trigger p :: actions) = triggersLeft actions + 1 := rfl

def toCome (f : Feed) : Nat :=
  f.queue.pods.length + triggersLeft f.actions + f.watch.awaiting.length + f.inbox.length

theorem toCome_le_outstanding (f : Feed) : f.toCome ≤ f.outstanding := by
  have hactions : triggersLeft f.actions ≤ f.actions.length := List.length_filterMap_le _ _
  unfold toCome outstanding
  omega

theorem wanted_length (e : PodEvent) : (Watch.wanted e).length ≤ 1 := by
  unfold Watch.wanted
  split
  · exact Nat.le_refl _
  · exact Nat.zero_le _

/-- A report brings one trigger at most, at once or at the end of its list. -/
theorem observe_toCome (w : Watch) (report : WatchEvent) :
    triggersLeft (w.observe report).1 + (w.observe report).2.awaiting.length ≤
      w.awaiting.length + 1 := by
  cases report with
  | init => simp [Watch.observe, triggersLeft]
  | initDone => simp [Watch.observe, triggersLeft]
  | delete p => simp [Watch.observe, triggersLeft]
  | initApply p =>
    have hwanted := wanted_length (w.change p)
    simp only [Watch.observe, triggersLeft, Watch.triggered_publication, Watch.triggered_nil,
      List.length_nil, List.length_append]
    omega
  | apply p =>
    have hwanted := wanted_length (w.change p)
    simp only [Watch.observe, triggersLeft, Watch.triggered_publication, Watch.triggered_map_trigger]
    omega

theorem Step.toCome_le (hstep : Step f deed g) (h : Timely ⟨f, deed⟩) : g.toCome ≤ f.toCome := by
  cases hstep with
  | @look report rest running free idle next =>
    have hobserved := observe_toCome f.watch report
    simp only [toCome, next, List.length_cons]
    omega
  | publish running free next =>
    simp only [toCome, next]
    exact Nat.le_refl _
  | trigger running free next =>
    simp only [toCome, next, triggersLeft_trigger, List.length_append, List.length_singleton]
    omega
  | stop =>
    have hnone : triggersLeft [] = 0 := rfl
    simp only [toCome, Feed.stop, hnone, List.length_nil]
    omega
  | bus => exact Nat.le_refl _
  | _ =>
    rcases h with hown | ⟨-, millis, hwait⟩
    · cases hown
    · cases hwait

def Drains (m : Moment) : Prop := Timely m ∨ ∃ p, m.deed = .take p

theorem taken_timely {log : List Moment} (h : ∀ m ∈ log, Timely m) : taken log = [] := by
  refine List.flatMap_eq_nil_iff.2 fun m hm => ?_
  rcases h m hm with hown | ⟨-, millis, hwait⟩
  · cases hdeed : m.deed <;> simp_all [Deed.taken, Deed.isOwn]
  · rw [hwait]
    rfl

/-- With a trigger taken and a millisecond passed, one trigger less can come. -/
theorem take_pass (h : f.Sound) {p : Pod} {rest : List Pod} (hpods : f.queue.pods = p :: rest) :
    let g := pass 1 { f with queue := { f.queue with pods := rest } }
    (∃ log, Run f (⟨f, .take p⟩ :: log) g ∧ ∀ m ∈ log, Timely m) ∧ g.Sound ∧
      g.toCome + 1 ≤ f.toCome ∧ g.now = f.now + 1 := by
  have htake : Step f (.take p) { f with queue := { f.queue with pods := rest } } := .take hpods
  have hsound := htake.sound h
  obtain ⟨hvia, hnow⟩ := pass_via 1 hsound
  have hpassed := hvia.keeps
    (P := fun s => s.toCome ≤ toCome { f with queue := { f.queue with pods := rest } })
    (Nat.le_refl _) fun hstep htimely hs => Nat.le_trans (hstep.toCome_le htimely) hs
  obtain ⟨log, hlog, htimely⟩ := id hvia
  refine ⟨⟨log, (Trace.single htake).trans hlog, htimely⟩, hsound.via hvia, ?_, hnow⟩
  simp only [toCome, hpods, List.length_cons] at hpassed ⊢
  omega

theorem drainWithin_run (fuel : Nat) (h : f.Sound) (hfuel : f.toCome ≤ fuel) :
    ∃ log, Run f log (drainWithin fuel f).2 ∧ (∀ m ∈ log, Drains m) ∧
      taken log = (drainWithin fuel f).1 ∧ (drainWithin fuel f).2.queue.pods = [] ∧
      (drainWithin fuel f).2.now = f.now + (drainWithin fuel f).1.length := by
  induction fuel generalizing f with
  | zero =>
    have hempty : f.queue.pods.length = 0 := by
      unfold toCome at hfuel
      omega
    exact ⟨[], .start, by simp, rfl, List.length_eq_zero_iff.1 hempty, rfl⟩
  | succ fuel ih =>
    unfold drainWithin
    split
    · next hempty => exact ⟨[], .start, by simp, rfl, hempty, rfl⟩
    · next p rest hpods =>
      obtain ⟨⟨log, hlog, htimely⟩, hsound, hless, hnow⟩ := take_pass h hpods
      obtain ⟨later, hlater, hdrains, htaken, hqueue, hend⟩ := ih hsound (by omega)
      refine ⟨(⟨f, .take p⟩ :: log) ++ later, hlog.trans hlater, fun m hm => ?_, ?_, hqueue, ?_⟩
      · rcases List.mem_append.1 hm with hm | hm
        · rcases List.mem_cons.1 hm with rfl | hm
          · exact .inr ⟨p, rfl⟩
          · exact .inl (htimely m hm)
        · exact hdrains m hm
      · have hfirst : taken (⟨f, .take p⟩ :: log) = p :: taken log := rfl
        rw [taken_append, hfirst, taken_timely htimely, htaken]
        rfl
      · rw [hend, hnow, List.length_cons]
        omega

def closing (f : Feed) : Nat :=
  match f.delivery with
  | some d => d.turn + d.remaining.length * d.timeoutMillis
  | none => 0

theorem publicationMillis_eq (f : Feed) : f.publicationMillis = f.closing - f.now := by
  unfold publicationMillis closing
  cases f.delivery with
  | none => exact (Nat.zero_sub _).symm
  | some d => rfl

/-- Each turn takes its timeout at most. -/
theorem Step.closing_le (hstep : Step f deed g) (hdelivers : Delivers ⟨f, deed⟩) (h : f.Sound) :
    g.closing ≤ f.closing := by
  obtain ⟨deed, rfl, hinstant⟩ := hdelivers
  cases hstep with
  | bus hbus =>
    cases hbus with
    | @hand d id rest under next | @pass d id rest under next | @miss d id rest under next =>
      have hprompt : f.now ≤ d.turn + d.timeoutMillis := h.prompt d under
      have hdelivery : f.delivery = some d := under
      simp only [closing, within, hdelivery, next, List.length_cons, Nat.succ_mul, traffic]
      omega
    | conclude => exact Nat.zero_le _
    | _ => cases hinstant

theorem resumeDelivery_closing (h : f.Sound) : f.resumeDelivery.closing ≤ f.closing := by
  refine ((resumeDelivery_via f).keeps (P := fun s => s.Sound ∧ s.closing ≤ f.closing)
    ⟨h, Nat.le_refl _⟩ fun hstep hdelivers hs => ?_).2
  exact ⟨hstep.sound hs.1, Nat.le_trans (hstep.closing_le hdelivers hs.1) hs.2⟩

theorem resumeDelivery_now (f : Feed) : f.resumeDelivery.now = f.now :=
  (resumeDelivery_via f).keeps (P := fun s => s.now = f.now) rfl fun hstep hdelivers hs =>
    (hstep.own_now hdelivers.isOwn).trans hs

theorem now_lt_closing (h : f.Sound) (hwaits : f.resumeDelivery.delivery.isSome = true) :
    f.now < f.closing := by
  obtain ⟨d, hd⟩ := Option.isSome_iff_exists.1 hwaits
  obtain ⟨id, rest, hnext, -, -, hearly⟩ := (resumeDelivery_blocked hwaits).waits hd
  have hbound : f.resumeDelivery.closing = d.turn + (rest.length * d.timeoutMillis + d.timeoutMillis) := by
    simp only [closing, hd, hnext, List.length_cons, Nat.succ_mul]
  have hclosing := resumeDelivery_closing h
  rw [resumeDelivery_now] at hearly
  omega

theorem awaitPublication_via (millis : Nat) (h : f.Sound) (hlong : f.closing ≤ f.now + millis) :
    Via Step Awaits f (awaitPublication millis f) ∧ (awaitPublication millis f).delivery = none := by
  have hresumed {f : Feed} : Via Step Awaits f f.resumeDelivery :=
    (resumeDelivery_via f).mono fun m hm => ⟨.inl hm.isOwn, hm.imp fun _ h => h.1⟩
  induction millis generalizing f with
  | zero =>
    refine ⟨hresumed, ?_⟩
    by_contra hwaits
    have hlate := now_lt_closing h (Option.isSome_iff_ne_none.2 hwaits)
    omega
  | succ millis ih =>
    unfold awaitPublication
    simp only
    split
    · next hwaits =>
      have hlater := hresumed.trans ((resumeDelivery_blocked hwaits).wait Nat.one_pos fun _ => rfl)
      have hclosing : closing { f.resumeDelivery with now := f.resumeDelivery.now + 1 } ≤ f.closing :=
        resumeDelivery_closing h
      obtain ⟨hvia, hdone⟩ := ih (h.via hlater) (by simp only [resumeDelivery_now] at hclosing ⊢; omega)
      exact ⟨hlater.trans hvia, hdone⟩
    · next hdone => exact ⟨hresumed, by simpa using hdone⟩

theorem subscribe_run (h : f.Sound) (pod : PodId) (kinds : List EventKind) (capacity : Nat) :
    let p := f.subscribe pod kinds capacity
    ∃ log s, Run f (log ++ [⟨s, .bus (.subscribe p.1 pod kinds capacity)⟩]) p.2 ∧
      ∀ m ∈ log, Awaits m := by
  have hlong : f.closing ≤ f.now + f.publicationMillis := by
    rw [publicationMillis_eq]
    omega
  obtain ⟨⟨log, hlog, hawaits⟩, hdone⟩ := awaitPublication_via _ h hlong
  have hsubscribe : Traffic.Step (awaitPublication f.publicationMillis f).traffic _ _ :=
    .subscribe hdone pod kinds capacity
  exact ⟨log, _, hlog.step (.bus hsubscribe rfl), hawaits⟩

theorem receive_empty {bus : Bus} {id : Nat} {q : Subscription} (hq : bus.find? id = some q)
    (hempty : q.buffer = []) : (∀ n, (bus.receive id).1 ≠ .notice n) ∧ (bus.receive id).2 = bus := by
  refine ⟨fun n hn => ?_, by simp [Bus.receive, hq, hempty]⟩
  simp only [Bus.receive_fst hq, hempty] at hn
  split at hn <;> cases hn

theorem receive_next {id : Nat} {q : Subscription} (hq : f.bus.find? id = some q)
    (hattended : q.isAttended = true) {n : Notice} {rest : List Notice} (hbuffer : q.buffer = n :: rest) :
    f.bus.receive id = (.notice n, (f.bus.receive id).2) ∧
      Step f (.bus (.receive id (.notice n))) { f with bus := (f.bus.receive id).2 } ∧
      (f.bus.receive id).2.find? id = some { q with buffer := rest } := by
  have hfirst : (f.bus.receive id).1 = .notice n := by rw [Bus.receive_fst hq, hbuffer]
  have hreceive : Traffic.Step f.traffic (.receive id (.notice n))
      { f.traffic with bus := (f.bus.receive id).2 } :=
    hfirst ▸ .receive id (Traffic.attends_iff.2 ⟨q, hq, hattended⟩)
  refine ⟨Prod.ext hfirst rfl, .bus hreceive rfl, ?_⟩
  rw [Bus.find?_receive, if_pos rfl, hq, Option.map_some, hbuffer, List.tail_cons]

/-- Whoever takes all that its buffer holds receives one event after the other, until nothing is left. -/
theorem receiveUpTo_run (count id : Nat) {q : Subscription} (hq : f.bus.find? id = some q)
    (hattended : q.isAttended = true) (hcount : q.buffer.length ≤ count) :
    let p := f.bus.receiveUpTo count id
    (∃ log, Run f log { f with bus := p.2 } ∧
      log.map (·.deed) = p.1.map fun n => .bus (.receive id (.notice n))) ∧
    ∀ n, (p.2.receive id).1 ≠ .notice n := by
  induction count generalizing f q with
  | zero =>
    have hempty : q.buffer = [] := List.length_eq_zero_iff.1 (Nat.le_zero.1 hcount)
    exact ⟨⟨[], .start, rfl⟩, (receive_empty hq hempty).1⟩
  | succ count ih =>
    cases hbuffer : q.buffer with
    | nil =>
      obtain ⟨hnone, hsame⟩ := receive_empty hq hbuffer
      have hstop : f.bus.receiveUpTo (count + 1) id = ([], f.bus) := by
        unfold Bus.receiveUpTo
        split
        · next n _ hreceive => exact absurd (congrArg Prod.fst hreceive) (hnone n)
        · next hreceive => rw [← hsame, hreceive]
      rw [hstop]
      exact ⟨⟨[], .start, rfl⟩, hnone⟩
    | cons n rest =>
      obtain ⟨hpair, hstep, hlater⟩ := receive_next hq hattended hbuffer
      have hless : rest.length ≤ count := by
        rw [hbuffer] at hcount
        exact Nat.le_of_succ_le_succ hcount
      obtain ⟨⟨log, hlog, hdeeds⟩, hnone⟩ :=
        ih (f := { f with bus := (f.bus.receive id).2 }) hlater hattended hless
      have hgoes : f.bus.receiveUpTo (count + 1) id =
          (n :: ((f.bus.receive id).2.receiveUpTo count id).1,
            ((f.bus.receive id).2.receiveUpTo count id).2) := by
        conv_lhs => rw [Bus.receiveUpTo, hpair]
      rw [hgoes]
      refine ⟨⟨⟨f, _⟩ :: log, (Trace.single hstep).trans hlog, ?_⟩, hnone⟩
      rw [List.map_cons, hdeeds]
      rfl

/-- What the feed is made to do consists of its steps and of nothing else. -/
structure Executed (f : Feed) : Prop where
  /-- Actions are carried out in order, and what is not carried out is left to do or held up. -/
  acted : ∀ actions, f.isRunning = true → f.delivery = none →
    let g := act actions f
    (∃ log, Run { f with actions } log g ∧ (∀ m ∈ log, Acts m) ∧ carried log <+: actions ∧
      (g.isRunning = true → carried log ++ g.actions = actions)) ∧
    (g.isRunning = false ∨ g.isHeldUp = true → g.Blocked)
  settled : ∀ g, f.Settles g ↔ g = f.settle
  passed : ∀ millis, Via Step Timely f (pass millis f) ∧ (pass millis f).now = f.now + millis
  reported : ∀ report, f.isRunning = true → f.isComplete = false →
    Step f (.come report) (f.report report)
  refused : ∀ report, f.isRunning = false ∨ f.isComplete = true → f.report report = f
  completed : Step f .complete f.complete
  closed : Step f .closeQueue f.closeQueue
  drained : ∃ log, Run f log f.drain.2 ∧ (∀ m ∈ log, Drains m) ∧ taken log = f.drain.1 ∧
    f.drain.2.queue.pods = [] ∧ f.drain.2.now = f.now + f.drain.1.length
  subscribed : ∀ pod kinds capacity,
    let p := f.subscribe pod kinds capacity
    ∃ log s, Run f (log ++ [⟨s, .bus (.subscribe p.1 pod kinds capacity)⟩]) p.2 ∧
      ∀ m ∈ log, Awaits m
  received : ∀ id q, f.bus.find? id = some q → q.isAttended = true →
    let p := f.receiveAll id
    (∃ log, Run f log p.2 ∧
      log.map (·.deed) = p.1.map fun n => .bus (.receive id (.notice n))) ∧
    ∀ n, (p.2.bus.receive id).1 ≠ .notice n

theorem Sound.executed (h : f.Sound) : f.Executed where
  acted actions running free := by
    obtain ⟨log, hlog, hacts⟩ := act_via actions f running free
    obtain ⟨hbegun, hleft⟩ := Run.carried_actions hlog fun m hm => (hacts m hm).2
    exact ⟨⟨log, hlog, hacts, hbegun, hleft⟩, act_blocked actions f free⟩
  settled _ := settles_iff h.ended
  passed millis := pass_via millis h
  reported report running awaited := by
    have hreport : f.report report = { f with inbox := f.inbox ++ [report] } :=
      if_pos (by simp [running, awaited])
    exact hreport ▸ .come running awaited report
  refused report hover := if_neg (by rcases hover with hover | hover <;> simp [hover])
  completed := .complete
  closed := .closeQueue
  drained := drainWithin_run f.outstanding h f.toCome_le_outstanding
  subscribed := subscribe_run h
  received id q hq hattended :=
    receiveUpTo_run _ id hq hattended (by rw [hq]; exact Nat.le_refl _)

end Feed
end PodSizing
