import PodSizing.Proofs.Watch.Feeding

/-!
# What the feed is made to do

To act is to carry out actions in order, to settle is to go on until nothing can be done, and to let time
pass is to settle and to wait in turn. Triggers are taken until none is left to come, and whoever subscribes
waits for the publication in hand. All these are runs of the feed's steps.
-/
namespace PodSizing
namespace Feed
variable {f g h : Feed} {log : List Moment} {deed : Deed}

theorem via_within {allowed : Moment → Prop} {P : Traffic.Moment → Prop} {t : Traffic}
    (ht : Via Traffic.Step P f.traffic t) (hothers : ∀ m, P m → m.deed.isPublication = false)
    (hallowed : ∀ m, P m → allowed ⟨f.within m.state, .bus m.deed⟩) :
    Via Step allowed f (f.within t) := by
  obtain ⟨log, hlog, hP⟩ := ht
  induction hlog with
  | start => exact .refl f
  | @step log s t deed hlog hstep ih =>
    simp only [List.forall_mem_append, List.forall_mem_singleton] at hP
    have hbus : Step (f.within s) (.bus deed) (f.within t) := .bus hstep (hothers _ hP.2)
    exact (ih hP.1).trans (.single hbus (hallowed _ hP.2))

def Delivers (m : Moment) : Prop := ∃ deed : Traffic.Deed, m.deed = .bus deed ∧ deed.isInstant = true

theorem Delivers.isOwn {m : Moment} (h : Delivers m) : m.deed.isOwn = true := by
  obtain ⟨deed, hdeed, hinstant⟩ := h
  rw [hdeed]
  exact hinstant

theorem via_deliver {d : Delivery} (hd : f.delivery = some d) :
    Via Step Delivers f (f.deliver d) := by
  have hserved := Traffic.serve_instantly d f.now f.bus
  have htraffic : f.traffic = ⟨f.bus, f.now, some d⟩ := by rw [traffic, hd]
  have hended : Via Traffic.Step (·.deed.isInstant = true) f.traffic
      ⟨(f.deliver d).bus, f.now, (f.deliver d).delivery⟩ := by
    rw [htraffic]
    by_cases hover : (d.advance (some (f.now + 1)) f.now f.bus).1.isOver = true
    · simp only [deliver, if_pos hover]
      exact hserved.trans (.single (.conclude rfl (List.isEmpty_iff.1 hover)) rfl)
    · simp only [deliver, if_neg hover]
      exact hserved
  refine via_within hended (fun m hm => ?_) fun m hm => ⟨m.deed, rfl, hm⟩
  cases hdeed : m.deed <;> simp_all [Traffic.Deed.isInstant, Traffic.Deed.isPublication]

/-- A delivery that is held up holds the watch up, whatever is left to do. -/
theorem deliver_blocked (d : Delivery) (h : (f.deliver d).delivery.isSome = true)
    (actions : List Watch.Action) : Blocked { f.deliver d with actions } := by
  have hstops := Delivery.serve_some_stops d.notice d.timeoutMillis (f.now + 1) d.remaining d.turn
    f.now f.bus
  have hnow := Delivery.serve_now d.notice d.timeoutMillis d.remaining d.turn f.now f.bus
  by_cases hover : (d.advance (some (f.now + 1)) f.now f.bus).1.isOver = true
  · simp [deliver, hover] at h
  · rcases hstops with hempty | ⟨id, rest, hnext, hthere, hfull, hlate⟩
    · exact absurd (List.isEmpty_iff.2 hempty) hover
    · rw [hnow] at hlate
      have hunder : (f.deliver d).delivery = some (d.advance (some (f.now + 1)) f.now f.bus).1 := by
        simp only [deliver, if_neg hover]
      exact blocked_of_waits hunder hnext hthere hfull (by simp only [deliver, Delivery.advance]; omega)

theorem resumeDelivery_via (f : Feed) : Via Step Delivers f f.resumeDelivery := by
  unfold resumeDelivery
  split
  · next d hd => exact via_deliver hd
  · exact .refl f

theorem resumeDelivery_isRunning (f : Feed) : f.resumeDelivery.isRunning = f.isRunning := by
  unfold resumeDelivery
  split <;> rfl

theorem resumeDelivery_blocked (h : f.resumeDelivery.delivery.isSome = true) :
    f.resumeDelivery.Blocked := by
  cases hd : f.delivery with
  | none => simp [resumeDelivery, hd] at h
  | some d =>
    have hresumed : f.resumeDelivery = f.deliver d := by rw [resumeDelivery, hd]
    rw [hresumed] at h ⊢
    exact deliver_blocked d h _

def Acts (m : Moment) : Prop := m.deed.isOwn = true ∧ m.deed.isLook = false

theorem Delivers.acts {m : Moment} (h : Delivers m) : Acts m := by
  obtain ⟨deed, hdeed, -⟩ := id h
  exact ⟨h.isOwn, by rw [hdeed]; rfl⟩

/-- What the watch has begun to do it does in order, until it looks at another report. -/
theorem Run.carried_actions (h : Run f log g) (hlooks : ∀ m ∈ log, m.deed.isLook = false) :
    carried log <+: f.actions ∧ (g.isRunning = true → carried log ++ g.actions = f.actions) := by
  induction h with
  | start => exact ⟨List.nil_prefix, fun _ => rfl⟩
  | @step log s t deed h hstep ih =>
    simp only [List.forall_mem_append, List.forall_mem_singleton] at hlooks
    obtain ⟨hbegun, hleft⟩ := ih hlooks.1
    rw [carried_concat]
    cases hstep with
    | look => cases hlooks.2
    | publish running free next | trigger running free next =>
      have hcarried := hleft running
      rw [next, List.append_cons] at hcarried
      exact ⟨⟨_, hcarried⟩, fun _ => hcarried⟩
    | stop =>
      simp only [Deed.carried, List.append_nil]
      exact ⟨hbegun, fun running => by cases running⟩
    | _ =>
      simp only [Deed.carried, List.append_nil]
      exact ⟨hbegun, hleft⟩

theorem act_via (actions : List Watch.Action) (f : Feed) (running : f.isRunning = true)
    (free : f.delivery = none) : Via Step Acts { f with actions } (act actions f) := by
  induction actions generalizing f with
  | nil => exact .refl _
  | cons action rest ih =>
    cases action with
    | publish n =>
      have hpublish : Step { f with actions := .publish n :: rest } (.publish n) _ :=
        .publish running free rfl
      have hdeliver : Via Step Delivers
          { f with actions := rest, delivery := some (.begin n none f.now f.bus) }
          { f.deliver (.begin n none f.now f.bus) with actions := rest } := via_deliver rfl
      have hbegun : Via Step Acts { f with actions := .publish n :: rest } _ :=
        (Via.single hpublish ⟨rfl, rfl⟩).trans (hdeliver.mono fun _ => Delivers.acts)
      simp only [act]
      split
      · exact hbegun
      · next hfree => exact hbegun.trans (ih (f.deliver _) running (by simpa using hfree))
    | trigger p =>
      simp only [act]
      split
      · next hclosed =>
        have hover : IsOver { f with actions := .trigger p :: rest } :=
          .inl ⟨p, rest, rfl, by simpa using hclosed⟩
        have hstop : Step { f with actions := .trigger p :: rest } .stop _ := .stop running free hover
        exact .single hstop ⟨rfl, rfl⟩
      · next htaken =>
        split
        · next hroom =>
          have htrigger : Step { f with actions := .trigger p :: rest } (.trigger p) _ :=
            .trigger running free rfl (by simpa using htaken) hroom
          exact (Via.single htrigger ⟨rfl, rfl⟩).trans
            (ih { f with queue := { f.queue with pods := f.queue.pods ++ [p] } } running free)
        · exact .refl _

theorem act_blocked (actions : List Watch.Action) (f : Feed) (free : f.delivery = none)
    (hstopped : (act actions f).isRunning = false ∨ (act actions f).isHeldUp = true) :
    (act actions f).Blocked := by
  induction actions generalizing f with
  | nil =>
    rcases hstopped with hended | hheld
    · exact blocked_of_ended hended free
    · simp [act, isHeldUp, free] at hheld
  | cons action rest ih =>
    cases action with
    | publish n =>
      simp only [act] at hstopped ⊢
      split
      · next hwaits => exact deliver_blocked _ hwaits rest
      · next hfree =>
        rw [if_neg hfree] at hstopped
        exact ih _ (by simpa using hfree) hstopped
    | trigger p =>
      simp only [act] at hstopped ⊢
      split
      · exact blocked_of_ended rfl free
      · next htaken =>
        rw [if_neg htaken] at hstopped
        split
        · next hroom =>
          rw [if_pos hroom] at hstopped
          exact ih _ free hstopped
        · next hfull =>
          exact blocked_of_full free rfl (by simpa using htaken) (Nat.le_of_not_lt hfull)

theorem act_inbox (actions : List Watch.Action) (running : f.isRunning = true)
    (free : f.delivery = none) (running' : (act actions f).isRunning = true) :
    (act actions f).inbox = f.inbox := by
  refine (act_via actions f running free).keeps (P := fun s => s.isRunning = true → s.inbox = f.inbox)
    (fun _ => rfl) (fun hstep hacts hs => ?_) running'
  cases hstep with
  | publish | trigger | bus => exact hs
  | stop => exact fun running => by cases running
  | look => cases hacts.2
  | _ => cases hacts.1

theorem free_to_look (h : ¬ (!f.isRunning || f.isHeldUp) = true) :
    f.isRunning = true ∧ f.delivery = none ∧ f.actions = [] := by
  simpa [isHeldUp] using h

/-- To look at reports in turn is to settle. -/
theorem take_settles (reports : List WatchEvent) (f : Feed) (running : f.isRunning = true)
    (free : f.delivery = none) (idle : f.actions = []) (hinbox : f.inbox = reports) :
    f.Settles (take reports f) := by
  induction reports generalizing f with
  | nil =>
    simp only [take]
    split
    · next hcomplete =>
      have hstop : Step f .stop f.stop := .stop running free (.inr ⟨idle, hinbox, hcomplete⟩)
      exact ⟨blocked_of_ended rfl free, .single hstop rfl⟩
    · next hawaited =>
      exact ⟨blocked_of_idle free idle hinbox (by simpa using hawaited), .refl f⟩
  | cons report rest ih =>
    have hlook : Step f (.look report) _ := .look running free idle hinbox
    have hacted := (act_via (f.watch.observe report).1 { f with
      inbox := rest
      watch := (f.watch.observe report).2
      events := f.events ++ f.watch.counted report } running free).mono fun _ h => h.1
    have hlooked : Via Step (·.deed.isOwn = true) f _ := .single hlook rfl
    have hreached := hlooked.trans hacted
    simp only [take]
    split
    · next hstopped =>
      refine ⟨act_blocked _ _ free ?_, hreached⟩
      simpa [Bool.or_eq_true] using hstopped
    · next hgoes =>
      obtain ⟨hrunning, hfree, hidle⟩ := free_to_look hgoes
      obtain ⟨hblocked, hvia⟩ := ih _ hrunning hfree hidle (act_inbox _ running free hrunning)
      exact ⟨hblocked, hreached.trans hvia⟩

theorem settle_settles (f : Feed) (hended : f.isRunning = false → f.delivery = none) :
    f.Settles f.settle := by
  unfold settle
  split
  · next hstopped =>
    have hstopped : f.isRunning = false := by simpa using hstopped
    exact ⟨blocked_of_ended hstopped (hended hstopped), .refl f⟩
  · next hrunning =>
    have hresumed : Via Step (·.deed.isOwn = true) f f.resumeDelivery :=
      (resumeDelivery_via f).mono fun _ h => h.isOwn
    have running : f.resumeDelivery.isRunning = true := by
      rw [resumeDelivery_isRunning]
      simpa using hrunning
    simp only
    split
    · next hwaits => exact ⟨resumeDelivery_blocked hwaits, hresumed⟩
    · next hfree =>
      have free : f.resumeDelivery.delivery = none := by simpa using hfree
      have hacted := (act_via f.resumeDelivery.actions f.resumeDelivery running free).mono
        fun _ (h : Acts _) => h.1
      split
      · next hstopped =>
        refine ⟨act_blocked _ _ free ?_, hresumed.trans hacted⟩
        simpa [Bool.or_eq_true] using hstopped
      · next hgoes =>
        obtain ⟨hrunning, hfree, hidle⟩ := free_to_look hgoes
        obtain ⟨hblocked, hvia⟩ := take_settles _ _ hrunning hfree hidle rfl
        exact ⟨hblocked, (hresumed.trans hacted).trans hvia⟩

theorem settles_iff (hended : f.isRunning = false → f.delivery = none) :
    f.Settles g ↔ g = f.settle := by
  constructor
  · rintro ⟨hblocked, hvia⟩
    obtain ⟨hsettled, hvia'⟩ := settle_settles f hended
    refine Via.unique (fun h hd h' hd' => h.own_unique hd h' hd') hvia hvia' ?_
    rintro v (rfl | rfl) d w hstep hown
    · exact absurd hown (by simp [hblocked _ _ hstep])
    · exact absurd hown (by simp [hsettled _ _ hstep])
  · rintro rfl
    exact settle_settles f hended

end Feed
end PodSizing
