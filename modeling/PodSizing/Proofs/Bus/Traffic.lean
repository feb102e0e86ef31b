import PodSizing.Proofs.Bus.Index
import PodSizing.Proofs.Trace

/-!
# Traffic on the bus

Subscriptions come and go, subscribers receive at any time, and one event after another is published. While
a publication is under way nobody subscribes or unsubscribes, and time passes only while the subscriber
whose turn it is has no room. The executions of the bus are runs of these steps.
-/
namespace PodSizing

structure Traffic where
  bus : Bus
  now : Nat := 0
  delivery : Option Delivery := none

namespace Traffic

inductive Deed where
  | subscribe (id : Nat) (pod : PodId) (kinds : List EventKind) (capacity : Nat)
  | unsubscribe (id : Nat)
  | clear
  /-- A receiver goes away. -/
  | abandon (id : Nat)
  | receive (id : Nat) (received : Bus.Received)
  | publish (n : Notice) (timeoutMillis : Nat)
  /-- An event comes into a buffer. -/
  | hand (id : Nat) (n : Notice)
  /-- A subscriber is gone whose turn it is. -/
  | pass (id : Nat)
  /-- A delivery has timed out. -/
  | miss (id : Nat)
  | wait (millis : Nat)
  /-- A publication is over. -/
  | conclude

def Deed.isOwn : Deed → Bool
  | .hand .. | .pass _ | .miss _ | .wait _ | .conclude => true
  | _ => false

/-- One deed. Whoever subscribes or unsubscribes has to wait for a publication that is under way. -/
inductive Step : Traffic → Deed → Traffic → Prop where
  | subscribe {s : Traffic} (idle : s.delivery = none) (pod : PodId) (kinds : List EventKind)
      (capacity : Nat) :
    Step s (.subscribe s.bus.nextId pod kinds capacity)
      { s with bus := (s.bus.subscribe pod kinds capacity).2 }
  | unsubscribe {s : Traffic} (idle : s.delivery = none) (id : Nat) :
    Step s (.unsubscribe id) { s with bus := s.bus.unsubscribe id }
  | clear {s : Traffic} (idle : s.delivery = none) : Step s .clear { s with bus := s.bus.clear }
  | abandon {s : Traffic} (id : Nat) : Step s (.abandon id) { s with bus := s.bus.abandon id }
  | receive {s : Traffic} (id : Nat) (attended : s.bus.attends id = true) :
    Step s (.receive id (s.bus.receive id).1) { s with bus := (s.bus.receive id).2 }
  | publish {s : Traffic} (idle : s.delivery = none) (n : Notice) (timeoutMillis : Option Nat) :
    Step s (.publish n (timeoutMillis.getD s.bus.sendTimeoutMillis))
      { s with delivery := some (.begin n timeoutMillis s.now s.bus) }
  | hand {s : Traffic} {d : Delivery} {id : Nat} {rest : List Nat} (under : s.delivery = some d)
      (next : d.remaining = id :: rest) (attended : s.bus.attends id = true)
      (room : s.bus.isFull id = false) :
    Step s (.hand id d.notice)
      { s with
        bus := s.bus.modify id (·.push d.notice)
        delivery := some { d with remaining := rest, turn := s.now } }
  | pass {s : Traffic} {d : Delivery} {id : Nat} {rest : List Nat} (under : s.delivery = some d)
      (next : d.remaining = id :: rest) (gone : s.bus.attends id = false) :
    Step s (.pass id) { s with delivery := some { d with remaining := rest, turn := s.now } }
  | miss {s : Traffic} {d : Delivery} {id : Nat} {rest : List Nat} (under : s.delivery = some d)
      (next : d.remaining = id :: rest) (attended : s.bus.attends id = true)
      (full : s.bus.isFull id = true) (due : d.turn + d.timeoutMillis ≤ s.now) :
    Step s (.miss id) { s with delivery := some { d with remaining := rest, turn := s.now } }
  | wait {s : Traffic} {d : Delivery} {id : Nat} {rest : List Nat} (under : s.delivery = some d)
      (next : d.remaining = id :: rest) (attended : s.bus.attends id = true)
      (full : s.bus.isFull id = true) (millis : Nat) (passes : 0 < millis)
      (early : s.now + millis ≤ d.turn + d.timeoutMillis) :
    Step s (.wait millis) { s with now := s.now + millis }
  | idle {s : Traffic} (idle : s.delivery = none) (millis : Nat) (passes : 0 < millis) :
    Step s (.wait millis) { s with now := s.now + millis }
  | conclude {s : Traffic} {d : Delivery} (under : s.delivery = some d) (all : d.remaining = []) :
    Step s .conclude { s with delivery := none }

abbrev Moment := Occurrence Traffic Deed

abbrev Run := Trace Step

variable {s t u : Traffic} {log : List Moment} {deed : Deed} {n : Notice} {bus : Bus}
  {timeoutMillis now turn id : Nat}

def Deed.serves : Deed → Bool
  | .hand .. | .pass _ | .miss _ | .wait _ => true
  | _ => false

def Deed.isInstant : Deed → Bool
  | .hand .. | .pass _ | .miss _ | .conclude => true
  | _ => false

def Deed.isPublication : Deed → Bool
  | .publish .. => true
  | _ => false

def Before (horizon : Option Nat) (m : Moment) : Prop :=
  match m.deed with
  | .hand .. | .pass _ => True
  | .miss _ => horizon.all (m.state.now < ·) = true
  | .wait millis => horizon.all (m.state.now + millis < ·) = true
  | _ => False

def Early (horizon : Nat) (m : Moment) : Prop :=
  m.deed.isOwn = true ∧ ∀ id, m.deed = .miss id → m.state.now < horizon

def Waits (s : Traffic) : Prop :=
  ∀ d, s.delivery = some d → ∃ id rest, d.remaining = id :: rest ∧ s.bus.attends id = true ∧
    s.bus.isFull id = true

abbrev Advances : Traffic → Traffic → Prop := Via Step (·.deed.isOwn = true)

theorem Before.serves {horizon : Option Nat} {m : Moment} (h : Before horizon m) :
    m.deed.serves = true := by
  cases hdeed : m.deed <;> simp_all [Before, Deed.serves]

theorem Deed.isOwn_of_serves (h : deed.serves = true) : deed.isOwn = true := by
  cases deed <;> simp_all [Deed.serves, Deed.isOwn]

theorem Before.early {horizon : Nat} {m : Moment} (h : Before (some horizon) m) : Early horizon m := by
  refine ⟨Deed.isOwn_of_serves h.serves, fun id hmiss => ?_⟩
  simpa [Before, hmiss] using h

theorem Step.now_le (h : Step s deed t) : s.now ≤ t.now := by
  cases h with
  | wait | idle => exact Nat.le_add_right _ _
  | _ => exact Nat.le_refl _

theorem Run.now_le (h : Run s log t) : s.now ≤ t.now := by
  induction h with
  | start => exact Nat.le_refl _
  | step _ hstep ih => exact Nat.le_trans ih hstep.now_le

theorem Run.now_le_of_mem (h : Run s log t) {m : Moment} (hm : m ∈ log) : s.now ≤ m.state.now := by
  obtain ⟨before, after, rfl⟩ := List.append_of_mem hm
  obtain ⟨u, hbefore, hafter⟩ := h.split
  exact hafter.head.1 ▸ Run.now_le hbefore

theorem Step.isInstant_idle (h : Step s deed t) (hidle : s.delivery = none) :
    deed.isInstant = false := by
  cases h with
  | hand under | pass under | miss under | conclude under =>
    rw [hidle] at under
    cases under
  | _ => rfl

theorem Step.isInstant_early (h : Step s deed t) {d : Delivery} {rest : List Nat}
    (under : s.delivery = some d) (next : d.remaining = id :: rest) (attended : s.bus.attends id = true)
    (full : s.bus.isFull id = true) (early : s.now < d.turn + d.timeoutMillis) :
    deed.isInstant = false := by
  cases h with
  | hand under' next' _ room =>
    cases under.symm.trans under'
    cases next.symm.trans next'
    rw [full] at room
    cases room
  | pass under' next' gone =>
    cases under.symm.trans under'
    cases next.symm.trans next'
    rw [attended] at gone
    cases gone
  | miss under' next' _ _ due =>
    cases under.symm.trans under'
    omega
  | conclude under' all =>
    cases under.symm.trans under'
    rw [all] at next
    cases next
  | _ => rfl

/-- At a point of time the bus has no choice. -/
theorem Step.instant_unique {deed' : Deed} (h : Step s deed t) (hdeed : deed.isInstant = true)
    (h' : Step s deed' u) (hdeed' : deed'.isInstant = true) : t = u := by
  cases h with
  | hand | pass | miss | conclude => cases h' <;> simp_all [Deed.isInstant]
  | _ => cases hdeed

theorem Step.wait_pos {millis : Nat} (h : Step s (.wait millis) t) : 0 < millis := by
  cases h <;> assumption

theorem via_wait {allowed : Moment → Prop} {horizon : Nat} {d : Option Delivery} (hnow : now ≤ horizon)
    (h : now < horizon → Step ⟨bus, now, d⟩ (.wait (horizon - now)) ⟨bus, now + (horizon - now), d⟩)
    (hallowed : now < horizon → allowed ⟨⟨bus, now, d⟩, .wait (horizon - now)⟩) :
    Via Step allowed ⟨bus, now, d⟩ ⟨bus, horizon, d⟩ := by
  rcases Nat.lt_or_eq_of_le hnow with hlt | rfl
  · have hlater := Via.single (h hlt) (hallowed hlt)
    rwa [Nat.add_sub_cancel' hnow] at hlater
  · exact .refl _

theorem via_miss {horizon : Option Nat} {rest : List Nat} (attended : bus.attends id = true)
    (full : bus.isFull id = true) (hdue : horizon.all (max now (turn + timeoutMillis) < ·) = true) :
    Via Step (Before horizon) ⟨bus, now, some ⟨n, timeoutMillis, id :: rest, turn⟩⟩
      ⟨bus, max now (turn + timeoutMillis),
        some ⟨n, timeoutMillis, rest, max now (turn + timeoutMillis)⟩⟩ := by
  have hwait : Via Step (Before horizon) ⟨bus, now, some ⟨n, timeoutMillis, id :: rest, turn⟩⟩
      ⟨bus, max now (turn + timeoutMillis), some ⟨n, timeoutMillis, id :: rest, turn⟩⟩ := by
    refine via_wait (Nat.le_max_left _ _) (fun hlt => ?_) (fun _ => ?_)
    · exact .wait rfl rfl attended full _ (by omega) (by simp only; omega)
    · simpa [Before, Nat.add_sub_cancel' (Nat.le_max_left now _)] using hdue
  have hmiss : Step
      ⟨bus, max now (turn + timeoutMillis), some ⟨n, timeoutMillis, id :: rest, turn⟩⟩ (.miss id) _ :=
    .miss rfl rfl attended full (Nat.le_max_right _ _)
  exact hwait.trans (.single hmiss hdue)

/-- To serve subscribers in turn is to take such steps. -/
theorem via_serve (n : Notice) (timeoutMillis : Nat) (horizon : Option Nat) (remaining : List Nat)
    (turn now : Nat) (bus : Bus) :
    let p := Delivery.serve n timeoutMillis horizon remaining turn now bus
    Via Step (Before horizon) ⟨bus, now, some ⟨n, timeoutMillis, remaining, turn⟩⟩
      ⟨p.bus, p.now, some ⟨n, timeoutMillis, p.remaining, p.turn⟩⟩ := by
  induction remaining generalizing turn now bus with
  | nil => exact .refl _
  | cons id rest ih =>
    rw [Delivery.serve_cons]
    split
    · next hgone =>
      have hpass : Step ⟨bus, now, some ⟨n, timeoutMillis, id :: rest, turn⟩⟩ (.pass id) _ :=
        .pass rfl rfl hgone
      exact (Via.single hpass trivial).trans (ih now now bus)
    · next hthere =>
      rw [Bool.not_eq_false] at hthere
      split
      · next hroom =>
        have hhand : Step ⟨bus, now, some ⟨n, timeoutMillis, id :: rest, turn⟩⟩ (.hand id n) _ :=
          .hand (d := ⟨n, timeoutMillis, id :: rest, turn⟩) rfl rfl hthere hroom
        exact (Via.single hhand trivial).trans (ih now now _)
      · next hfull =>
        rw [Bool.not_eq_false] at hfull
        split
        · next hdue => exact (via_miss hthere hfull hdue).trans (ih _ _ bus)
        · exact .refl _

theorem serve_instantly (d : Delivery) (now : Nat) (bus : Bus) :
    let p := d.advance (some (now + 1)) now bus
    Via Step (·.deed.isInstant = true) ⟨bus, now, some d⟩ ⟨p.2.2, now, some p.1⟩ := by
  obtain ⟨log, hrun, hbefore⟩ := via_serve d.notice d.timeoutMillis (some (now + 1)) d.remaining d.turn
    now bus
  rw [Delivery.serve_now] at hrun
  refine ⟨log, hrun, fun m hm => ?_⟩
  have hnow : now ≤ m.state.now := Run.now_le_of_mem hrun hm
  have hm' := hbefore m hm
  obtain ⟨u, hstep⟩ := hrun.step_of_mem hm
  simp only
  cases hdeed : m.deed with
  | hand | pass | miss => rfl
  | wait millis =>
    rw [hdeed] at hstep
    have hpasses := hstep.wait_pos
    simp only [Before, hdeed, Option.all_some, decide_eq_true_eq] at hm'
    omega
  | _ => simp [Before, hdeed] at hm'

/-- A publication that nobody disturbs comes to its end, whatever the clock shows. -/
theorem advance_concludes (d : Delivery) (millis now : Nat) (bus : Bus) :
    let p := d.advance none now bus
    ∃ during u, Run ⟨bus, millis + now, some (d.ahead millis)⟩ (during ++ [⟨u, .conclude⟩])
        ⟨p.2.2, millis + p.2.1, none⟩ ∧
      u.now = millis + p.2.1 ∧ ∀ m ∈ during, m.deed.serves = true := by
  obtain ⟨during, hrun, hbefore⟩ := via_serve d.notice d.timeoutMillis none d.remaining
    (millis + d.turn) (millis + now) bus
  have hover := Delivery.serve_none_remaining d.notice d.timeoutMillis d.remaining (millis + d.turn)
    (millis + now) bus
  have hahead := Delivery.serve_ahead d.notice d.timeoutMillis none millis d.remaining d.turn now bus
  rw [Option.map_none] at hahead
  rw [hahead] at hrun hover
  exact ⟨during, _, hrun.step (.conclude rfl hover), rfl, fun m hm => (hbefore m hm).serves⟩

/-- Undisturbed it comes to a point of time, if it is not over before. -/
theorem advance_until (d : Delivery) (millis : Nat) {now horizon : Nat} (hnow : now ≤ horizon)
    (bus : Bus) :
    let p := d.advance (some horizon) now bus
    ∃ e, Via Step (Early (millis + horizon)) ⟨bus, millis + now, some (d.ahead millis)⟩
        ⟨p.2.2, millis + horizon, e⟩ ∧
      (e = some (p.1.ahead millis) ∨ p.1.remaining = [] ∧ e = none) ∧
      Waits ⟨p.2.2, millis + horizon, e⟩ := by
  have hserved := (via_serve d.notice d.timeoutMillis (some (millis + horizon)) d.remaining
    (millis + d.turn) (millis + now) bus).mono fun _ => Before.early
  have hahead := Delivery.serve_ahead d.notice d.timeoutMillis (some horizon) millis d.remaining d.turn
    now bus
  have hstops := Delivery.serve_some_stops d.notice d.timeoutMillis horizon d.remaining d.turn now bus
  have hreached := Delivery.serve_now_le d.notice d.timeoutMillis d.remaining d.turn bus hnow
  rw [Option.map_some] at hahead
  rw [hahead] at hserved
  simp only [Delivery.advance] at hserved hstops ⊢
  generalize Delivery.serve d.notice d.timeoutMillis (some horizon) d.remaining d.turn now bus = p
    at hserved hstops hreached ⊢
  have hlater : millis + p.now ≤ millis + horizon := Nat.add_le_add_left hreached millis
  rcases hstops with hover | ⟨id, rest, hnext, hthere, hfull, hlate⟩
  · refine ⟨none, ?_, .inr ⟨hover, rfl⟩, fun d hd => by cases hd⟩
    refine (hserved.trans (.single (.conclude rfl hover) ⟨rfl, by simp⟩)).trans ?_
    exact via_wait hlater (fun hlt => .idle rfl _ (by omega)) fun _ => ⟨rfl, by simp⟩
  · refine ⟨_, ?_, .inl rfl, fun e he => ?_⟩
    · refine hserved.trans (via_wait hlater (fun hlt => ?_) fun _ => ⟨rfl, by simp⟩)
      simp only [Delivery.Progress.ahead] at hlt ⊢
      exact .wait rfl hnext hthere hfull _ (by omega) (by simp only; omega)
    · cases he
      exact ⟨id, rest, hnext, hthere, hfull⟩

theorem Step.attends_own (h : Step s deed t) (hown : deed.isOwn = true) (id : Nat) :
    t.bus.attends id = s.bus.attends id := by
  cases h with
  | hand under next attended room => exact Bus.attends_push _ _ _ id
  | pass | miss | wait | idle | conclude => rfl
  | _ => cases hown

/-- To publish while nobody receives is such a run. -/
theorem publish_run (hidle : t.delivery = none) (n : Notice) (timeoutMillis : Option Nat) :
    let p := t.bus.publish n timeoutMillis
    ∃ during u, Run t
        (⟨t, .publish n (timeoutMillis.getD t.bus.sendTimeoutMillis)⟩ :: (during ++ [⟨u, .conclude⟩]))
        ⟨p.2, t.now + p.1, none⟩ ∧
      u.now = t.now + p.1 ∧ ∀ m ∈ during, m.deed.serves = true := by
  have hpublish : Step t _ _ := .publish hidle n timeoutMillis
  obtain ⟨during, u, hrun, hend, hserves⟩ :=
    advance_concludes (.begin n timeoutMillis 0 t.bus) t.now 0 t.bus
  exact ⟨during, u, (Trace.single hpublish).trans hrun, hend, hserves⟩

theorem publishReceiving_run (hidle : t.delivery = none) (n : Notice) (timeoutMillis : Option Nat)
    {receiver : Nat} (hattended : t.bus.attends receiver = true) (afterMillis : Nat) :
    let p := t.bus.publishReceiving n timeoutMillis receiver afterMillis
    ∃ first s second, Run t
        (⟨t, .publish n (timeoutMillis.getD t.bus.sendTimeoutMillis)⟩ ::
          (first ++ ⟨s, .receive receiver p.1⟩ :: second))
        ⟨p.2.2, t.now + p.2.1, none⟩ ∧
      s.now = t.now + afterMillis ∧ s.Waits ∧ (∀ m ∈ first, Early s.now m) ∧
      ∀ m ∈ second, m.deed.isOwn = true := by
  have hpublish : Step t _ _ := .publish hidle n timeoutMillis
  have huntil := advance_until (.begin n timeoutMillis 0 t.bus) t.now (Nat.zero_le afterMillis) t.bus
  have hreached : ((Delivery.begin n timeoutMillis 0 t.bus).advance (some afterMillis) 0 t.bus).2.1 ≤
      afterMillis := Delivery.serve_now_le _ _ _ _ _ (Nat.zero_le afterMillis)
  simp only [Bus.publishReceiving] at huntil ⊢
  generalize (Delivery.begin n timeoutMillis 0 t.bus).advance (some afterMillis) 0 t.bus = p
    at huntil hreached ⊢
  obtain ⟨d, now, met⟩ := p
  rw [Nat.max_eq_right hreached]
  obtain ⟨e, ⟨first, hfirst, hearly⟩, hstage, hwaits⟩ := huntil
  have hthere : met.attends receiver = true := by
    have hkept : ∀ id, met.attends id = t.bus.attends id :=
      Via.keeps (P := fun s => ∀ id, s.bus.attends id = t.bus.attends id) ⟨first, hfirst, hearly⟩
        (fun _ => rfl) fun hstep hown hs id => (hstep.attends_own hown.1 id).trans (hs id)
    rw [hkept, hattended]
  have hreceived : Run t _ _ :=
    ((Trace.single hpublish).trans hfirst).step (.receive receiver hthere)
  rcases hstage with rfl | ⟨hover, rfl⟩
  · obtain ⟨during, u, hrun, -, hserves⟩ :=
      advance_concludes d t.now afterMillis (met.receive receiver).2
    refine ⟨first, _, during ++ [⟨u, .conclude⟩], ?_, rfl, hwaits, hearly, fun m hm => ?_⟩
    · simpa using hreceived.trans hrun
    · rcases List.mem_append.1 hm with hm | hm
      · exact Deed.isOwn_of_serves (hserves m hm)
      · rw [List.mem_singleton.1 hm]
        rfl
  · simp only [Delivery.advance_over hover]
    refine ⟨first, _, [], ?_, rfl, hwaits, hearly, by simp⟩
    simpa using hreceived

end Traffic
end PodSizing
