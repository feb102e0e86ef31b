import PodSizing.Proofs.Bus.Accounts

/-!
# Publications

While an event is published every subscriber that it is for has its turn. The event comes into its buffer,
unless the receiver has gone or the buffer has had no room since the event was published, and none for as
long as the timeout after the turn came. So nobody misses an event because of another one, and a publication
lasts no longer than all those timeouts.
-/
namespace PodSizing

namespace Traffic
variable {s t u : Traffic} {log : List Moment} {deed : Deed} {id : Nat} {n : Notice}
  {timeoutMillis sendTimeoutMillis start : Nat}

def Deed.givesTurn : Deed → Bool
  | .publish .. | .hand .. | .pass _ | .miss _ => true
  | _ => false

def TurnCame (log : List Moment) (turn : Nat) : Prop :=
  ∃ earlier m waiting, log = earlier ++ m :: waiting ∧ m.deed.givesTurn = true ∧
    (∀ w ∈ waiting, w.deed.givesTurn = false) ∧ m.state.now = turn

/-- What has become of an event for a subscriber, by what has been done since it was published. -/
inductive Fate (n : Notice) (timeoutMillis : Nat) (log : List Moment) (id : Nat) : Prop where
  | handed {m : Moment} (hm : m ∈ log) (hand : m.deed = .hand id n)
  | gone {m : Moment} (hm : m ∈ log) (pass : m.deed = .pass id)
      (gone : m.state.bus.attends id = false)
  /-- There was no room all the time, and the timeout is over since the turn came. -/
  | missed {earlier later : List Moment} {m : Moment} {turn : Nat} (hm : log = earlier ++ m :: later)
      (miss : m.deed = .miss id) (full : ∀ m' ∈ earlier ++ [m], m'.state.bus.isFull id = true)
      (came : TurnCame earlier turn) (late : turn + timeoutMillis ≤ m.state.now)

theorem TurnCame.concat {m : Moment} {turn : Nat} (h : TurnCame log turn)
    (hdeed : m.deed.givesTurn = false) : TurnCame (log ++ [m]) turn := by
  obtain ⟨earlier, m', waiting, rfl, hgives, hwaiting, hcame⟩ := h
  refine ⟨earlier, m', waiting ++ [m], by simp, hgives, fun w hw => ?_, hcame⟩
  rcases List.mem_append.1 hw with hw | hw
  · exact hwaiting w hw
  · rwa [List.mem_singleton.1 hw]

theorem TurnCame.now {m : Moment} (log : List Moment) (hdeed : m.deed.givesTurn = true) :
    TurnCame (log ++ [m]) m.state.now :=
  ⟨log, m, [], rfl, hdeed, by simp, rfl⟩

theorem Fate.concat (h : Fate n timeoutMillis log id) (m : Moment) :
    Fate n timeoutMillis (log ++ [m]) id := by
  cases h with
  | handed hm hand => exact .handed (List.mem_append_left _ hm) hand
  | gone hm pass gone => exact .gone (List.mem_append_left _ hm) pass gone
  | missed hm miss full came late =>
    exact .missed (by rw [hm, List.append_assoc]; rfl) miss full came late

/-- How far a publication has come: some subscribers have been served, and it is the turn of those that
remain. The log begins with the publication. -/
structure Underway (subscribers : List Nat) (n : Notice) (timeoutMillis start : Nat)
    (log : List Moment) (t : Traffic) (served : List Nat) (d : Delivery) : Prop where
  under : t.delivery = some d
  notice : d.notice = n
  timeout : d.timeoutMillis = timeoutMillis
  split : subscribers = served ++ d.remaining
  fates : ∀ id ∈ served, Fate n timeoutMillis log id
  /-- A buffer that is full when the turn comes has been full since the event was published. -/
  full : ∀ id ∈ d.remaining, t.bus.isFull id = true → ∀ m ∈ log, m.state.bus.isFull id = true
  came : TurnCame log d.turn
  prompt : d.turn ≤ start + served.length * timeoutMillis
  soon : t.now ≤ d.turn + timeoutMillis
  ended : d.remaining = [] → t.now = d.turn

variable {subscribers served : List Nat} {d : Delivery}

theorem Underway.now_le (h : Underway subscribers n timeoutMillis start log t served d) :
    t.now ≤ start + subscribers.length * timeoutMillis := by
  have hlength : subscribers.length = served.length + d.remaining.length := by
    rw [h.split, List.length_append]
  have hprompt := h.prompt
  cases hremaining : d.remaining with
  | nil =>
    rw [hremaining, List.length_nil, Nat.add_zero] at hlength
    rw [h.ended hremaining, hlength]
    exact hprompt
  | cons id rest =>
    have hsoon := h.soon
    rw [hremaining, List.length_cons] at hlength
    have hturns : (served.length + 1) * timeoutMillis ≤ subscribers.length * timeoutMillis :=
      Nat.mul_le_mul_right _ (by omega)
    rw [Nat.succ_mul] at hturns
    omega

theorem Deed.isFull_of_leaves {q : Option Subscription}
    (hsubscribe : ∀ pod kinds capacity, deed ≠ .subscribe id pod kinds capacity)
    (hhand : ∀ n, deed ≠ .hand id n) (hfull : (deed.leaves id q).any (!·.hasRoom) = true) :
    q.any (!·.hasRoom) = true := by
  cases deed with
  | subscribe j pod kinds capacity =>
    have hj : id ≠ j := fun hj => hsubscribe pod kinds capacity (by rw [hj])
    simpa [leaves, hj] using hfull
  | hand j n =>
    have hj : id ≠ j := fun hj => hhand n (by rw [hj])
    simpa [leaves, hj] using hfull
  | abandon j =>
    by_cases hj : id = j
    · cases q with
      | none => simp [leaves] at hfull
      | some q =>
        have hnone : q.capacity ≤ 0 := by
          simpa [leaves, hj, Subscription.hasRoom, Subscription.abandon] using hfull
        simp [Subscription.hasRoom, Nat.le_zero.1 hnone]
    · simpa [leaves, hj] using hfull
  | receive j r =>
    by_cases hj : id = j
    · cases q with
      | none => simp [leaves] at hfull
      | some q =>
        have hlength : q.capacity ≤ q.buffer.length - 1 := by
          simpa [leaves, hj, Subscription.hasRoom] using hfull
        have hle : q.capacity ≤ q.buffer.length := Nat.le_trans hlength (Nat.sub_le _ _)
        simpa [Subscription.hasRoom] using hle
    · simpa [leaves, hj] using hfull
  | _ => exact hfull

theorem Underway.full_concat (h : Underway subscribers n timeoutMillis start log s served d)
    (hid : id ∈ d.remaining) (hback : t.bus.isFull id = true → s.bus.isFull id = true)
    (hfull : t.bus.isFull id = true) : ∀ m ∈ log ++ [⟨s, deed⟩], m.state.bus.isFull id = true := by
  have hs := hback hfull
  intro m hm
  rcases List.mem_append.1 hm with hm | hm
  · exact h.full id hid hs m hm
  · rwa [List.mem_singleton.1 hm]

theorem Underway.stay (h : Underway subscribers n timeoutMillis start log s served d)
    (hdeed : deed.givesTurn = false) (hdelivery : t.delivery = s.delivery)
    (hback : ∀ id ∈ d.remaining, t.bus.isFull id = true → s.bus.isFull id = true)
    (hsoon : t.now ≤ d.turn + timeoutMillis) (hover : d.remaining = [] → t.now = d.turn) :
    Underway subscribers n timeoutMillis start (log ++ [⟨s, deed⟩]) t served d where
  under := hdelivery.trans h.under
  notice := h.notice
  timeout := h.timeout
  split := h.split
  fates id hid := (h.fates id hid).concat _
  full id hid := h.full_concat hid (hback id hid)
  came := h.came.concat hdeed
  prompt := h.prompt
  soon := hsoon
  ended := hover

theorem Underway.serve {rest : List Nat} (h : Underway subscribers n timeoutMillis start log s served d)
    (next : d.remaining = id :: rest) (hdeed : deed.givesTurn = true)
    (hdelivery : t.delivery = some { d with remaining := rest, turn := s.now }) (hnow : t.now = s.now)
    (hback : ∀ j ∈ rest, t.bus.isFull j = true → s.bus.isFull j = true)
    (hfate : Fate n timeoutMillis (log ++ [⟨s, deed⟩]) id) :
    Underway subscribers n timeoutMillis start (log ++ [⟨s, deed⟩]) t (served ++ [id])
      { d with remaining := rest, turn := s.now } where
  under := hdelivery
  notice := h.notice
  timeout := h.timeout
  split := by rw [h.split, next, List.append_assoc]; rfl
  fates j hj := by
    rcases List.mem_append.1 hj with hj | hj
    · exact (h.fates j hj).concat _
    · rwa [List.mem_singleton.1 hj]
  full j hj := h.full_concat (next ▸ List.mem_cons_of_mem _ hj) (hback j hj)
  came := .now (m := ⟨s, deed⟩) log hdeed
  prompt := by
    have hprompt := h.prompt
    have hsoon := h.soon
    simp only [List.length_append, List.length_singleton, Nat.succ_mul]
    omega
  soon := hnow ▸ Nat.le_add_right _ _
  ended _ := hnow

/-- Each deed takes a publication on, or leaves it where it is. -/
theorem Underway.step (h : Underway subscribers n timeoutMillis start log s served d)
    (hstep : Step s deed t) (hfind : ∀ id, t.bus.find? id = deed.leaves id (s.bus.find? id))
    (honce : d.remaining.Nodup) (hdeed : deed ≠ .conclude) :
    ∃ served d, Underway subscribers n timeoutMillis start (log ++ [⟨s, deed⟩]) t served d := by
  have hunder := h.under
  have hback (id : Nat) (hhand : ∀ n, deed ≠ .hand id n)
      (hsubscribe : ∀ pod kinds capacity, deed ≠ .subscribe id pod kinds capacity)
      (hfull : t.bus.isFull id = true) : s.bus.isFull id = true := by
    rw [Bus.isFull, hfind] at hfull
    exact Deed.isFull_of_leaves hsubscribe hhand hfull
  cases hstep with
  | subscribe idle | unsubscribe idle | clear idle | publish idle | idle idle =>
    rw [idle] at hunder
    cases hunder
  | conclude => exact absurd rfl hdeed
  | abandon j =>
    exact ⟨served, d, h.stay rfl rfl (fun id _ => hback id (by simp) (by simp)) h.soon h.ended⟩
  | receive j =>
    exact ⟨served, d, h.stay rfl rfl (fun id _ => hback id (by simp) (by simp)) h.soon h.ended⟩
  | wait under next attended full millis passes early =>
    rw [under] at hunder
    cases hunder
    refine ⟨served, d, h.stay rfl rfl (fun id _ => hback id (by simp) (by simp)) ?_ fun hover => ?_⟩
    · exact h.timeout ▸ early
    · rw [hover] at next
      cases next
  | @hand e j rest under next attended room =>
    rw [under] at hunder
    cases hunder
    rw [next] at honce
    refine ⟨_, _, h.serve next rfl rfl rfl (fun id hid => ?_)
      (.handed (List.mem_append_right _ List.mem_cons_self) (by rw [h.notice]))⟩
    have hne : id ≠ j := fun hsame => (List.nodup_cons.1 honce).1 (hsame ▸ hid)
    exact hback id (by simp [Ne.symm hne]) (by simp)
  | @pass e j rest under next gone =>
    rw [under] at hunder
    cases hunder
    exact ⟨_, _, h.serve next rfl rfl rfl (fun id _ => hback id (by simp) (by simp))
      (.gone (List.mem_append_right _ List.mem_cons_self) rfl gone)⟩
  | @miss e j rest under next attended full due =>
    rw [under] at hunder
    cases hunder
    refine ⟨_, _, h.serve next rfl rfl rfl (fun id _ => hback id (by simp) (by simp))
      (.missed rfl rfl ?_ h.came (h.timeout ▸ due))⟩
    exact h.full_concat (next ▸ List.mem_cons_self) (fun _ => full) full

theorem Step.underway {timeout : Nat} (hstep : Step s (.publish n timeout) t) :
    ∃ d, Underway (s.bus.index.subscribers n.topic) n timeout s.now [⟨s, .publish n timeout⟩] t [] d := by
  cases hstep with
  | publish idle n timeoutMillis =>
    refine ⟨_, rfl, rfl, rfl, rfl, by simp, fun id _ hfull => ?_, .now [] rfl, ?_, ?_, fun _ => rfl⟩
    · simpa using hfull
    · exact Nat.le_add_right _ _
    · exact Nat.le_add_right _ _

theorem Run.underway {before during : List Moment}
    (hbefore : Run (fresh sendTimeoutMillis start) before s)
    (hpublish : Step s (.publish n timeoutMillis) t) (hduring : Run t during u)
    (hnames : NamesOnce (before ++ ⟨s, .publish n timeoutMillis⟩ :: during))
    (hopen : ∀ m ∈ during, m.deed ≠ .conclude) :
    ∃ served d, Underway (s.bus.index.subscribers n.topic) n timeoutMillis s.now
      (⟨s, .publish n timeoutMillis⟩ :: during) u served d := by
  induction hduring with
  | start => exact ⟨[], hpublish.underway⟩
  | @step during v w deed hduring hstep ih =>
    rw [← List.cons_append, ← List.append_assoc] at hnames
    simp only [List.forall_mem_append, List.forall_mem_singleton] at hopen
    obtain ⟨served, d, hunder⟩ := ih hnames.init hopen.1
    have hrun : Run (fresh sendTimeoutMillis start)
        (before ++ ⟨s, .publish n timeoutMillis⟩ :: during) v := by
      rw [List.append_cons]
      exact (hbefore.step hpublish).trans hduring
    exact hunder.step hstep (hrun.find?_step hstep) (hrun.nodup_remaining hnames.init hunder.under)
      hopen.2

/-- A subscription gets what was published for it, in order and once each at most. Its buffer is bounded,
and gives out what came in till nothing is left; then it is closed if the subscription has ended. -/
structure Kept (id : Nat) (log : List Moment) (t : Traffic) : Prop where
  received : (account id log).received <+: (account id log).handed
  handed : (account id log).handed.Sublist (account id log).offered
  bounded : ∀ q, t.bus.find? id = some q → q.buffer.length ≤ max (account id log).capacity 1
  next : t.bus.attends id = true → (t.bus.receive id).1 = (account id log).next

/-- A publication that is over by `u` has come to everybody that it was for. -/
structure Published (before : List Moment) (s : Traffic) (n : Notice) (timeoutMillis : Nat)
    (during : List Moment) (u : Traffic) : Prop where
  prompt : u.now ≤ s.now + (audience n before).length * timeoutMillis
  fates : ∀ id ∈ audience n before,
    Fate n timeoutMillis (⟨s, .publish n timeoutMillis⟩ :: during) id

theorem Account.Balances.received {a : Account} {q : Option Subscription} (h : a.Balances q) :
    a.received <+: a.handed := by
  cases q with
  | none =>
    cases h
    exact List.prefix_rfl
  | some q => exact Holds.received h

theorem Run.kept (h : Run (fresh sendTimeoutMillis start) log t) (hnames : NamesOnce log) (id : Nat) :
    Kept id log t := by
  have hbalances := h.balances id
  refine ⟨hbalances.received, (h.ordered hnames id).handed, fun q hq => ?_, fun hattends => ?_⟩
  · rw [hq] at hbalances
    exact hbalances.capacity ▸ hbalances.bounded
  · obtain ⟨q, hq, hthere⟩ := attends_iff.1 hattends
    rw [hq] at hbalances
    have hleft : (account id log).handed.drop (account id log).received.length = q.buffer := by
      rw [hbalances.conserved hthere, List.drop_left]
    rw [Bus.receive_fst hq, Account.next, hleft]
    cases q.buffer with
    | cons n rest => rfl
    | nil =>
      by_cases htopics : (account id log).topics = []
      · have hended : ¬ t.bus.index.mentions id = true := fun h' => (h.mentions id).1 h' htopics
        simp [htopics, hended]
      · have hlasts := (h.mentions id).2 htopics
        simp [htopics, hlasts]

theorem Run.published {before during after : List Moment} {v : Traffic}
    (h : Run (fresh sendTimeoutMillis start)
      (before ++ ⟨s, .publish n timeoutMillis⟩ :: (during ++ ⟨u, .conclude⟩ :: after)) v)
    (hnames : NamesOnce (before ++ ⟨s, .publish n timeoutMillis⟩ :: (during ++ ⟨u, .conclude⟩ :: after)))
    (hopen : ∀ m ∈ during, m.deed ≠ .conclude) : Published before s n timeoutMillis during u := by
  obtain ⟨s', hbefore, hafter⟩ := h.split
  obtain ⟨rfl, t, hpublish, hafter⟩ := hafter.head
  obtain ⟨u', hduring, hafter⟩ := hafter.split
  obtain ⟨rfl, w, hconclude, -⟩ := hafter.head
  have hnames' : NamesOnce (before ++ ⟨s, .publish n timeoutMillis⟩ :: during) := by
    refine fun m hm => hnames m ?_
    rw [← List.cons_append, ← List.append_assoc]
    exact List.mem_append_left _ hm
  obtain ⟨served, d, hunder⟩ := Run.underway hbefore hpublish hduring hnames' hopen
  have hover : d.remaining = [] := by
    have hd := hunder.under
    cases hconclude with
    | conclude under all =>
      rw [under] at hd
      cases hd
      exact all
  have hserved : s.bus.index.subscribers n.topic = served := by
    rw [hunder.split, hover, List.append_nil]
  have hbefore' : NamesOnce before := fun m hm => hnames m (List.mem_append_left _ hm)
  have hperm := Run.perm_audience hbefore hbefore' n
  refine ⟨?_, fun id hid => hunder.fates id ?_⟩
  · rw [← hperm.length_eq]
    exact hunder.now_le
  · exact hserved ▸ hperm.mem_iff.2 hid

/-- To publish an event while none is being published is to give everybody that it is for a turn, and to do
nothing else till the publication is over. A subscriber that receives meanwhile does so at its time, before
anyone is given up at that time. -/
structure Executed (log : List Moment) (t : Traffic) (n : Notice) (timeoutMillis : Option Nat) :
    Prop where
  published :
    let timeout := timeoutMillis.getD t.bus.sendTimeoutMillis
    let p := t.bus.publish n timeoutMillis
    ∃ during u,
      Run t (⟨t, .publish n timeout⟩ :: (during ++ [⟨u, .conclude⟩])) ⟨p.2, t.now + p.1, none⟩ ∧
      (∀ m ∈ during, m.deed.serves = true) ∧ u.now = t.now + p.1 ∧
      Published log t n timeout during u
  receiving : ∀ receiver afterMillis, t.bus.attends receiver = true →
    let timeout := timeoutMillis.getD t.bus.sendTimeoutMillis
    let p := t.bus.publishReceiving n timeoutMillis receiver afterMillis
    ∃ first s second,
      Run t (⟨t, .publish n timeout⟩ :: (first ++ ⟨s, .receive receiver p.1⟩ :: second))
        ⟨p.2.2, t.now + p.2.1, none⟩ ∧
      s.now = t.now + afterMillis ∧ s.Waits ∧ (∀ m ∈ first, Early s.now m) ∧
      ∀ m ∈ second, m.deed.isOwn = true

theorem Run.executed (h : Run (fresh sendTimeoutMillis start) log t) (hnames : NamesOnce log)
    (hidle : t.delivery = none) (n : Notice) (timeoutMillis : Option Nat) :
    Executed log t n timeoutMillis := by
  refine ⟨?_, fun receiver afterMillis hattended =>
    publishReceiving_run hidle n timeoutMillis hattended afterMillis⟩
  obtain ⟨during, u, hrun, hend, hserves⟩ := publish_run hidle n timeoutMillis
  refine ⟨during, u, hrun, hserves, hend, Run.published (h.trans hrun) ?_ fun m hm hconclude => ?_⟩
  · intro m hm
    rcases List.mem_append.1 hm with hm | hm
    · exact hnames m hm
    · rcases List.mem_cons.1 hm with rfl | hm
      · exact .nil
      · rcases List.mem_append.1 hm with hm | hm
        · have hserves' := hserves m hm
          cases hdeed : m.deed <;> simp_all [Deed.serves, Deed.kinds]
        · rw [List.mem_singleton.1 hm]
          exact .nil
  · have hserves' := hserves m hm
    rw [hconclude] at hserves'
    cases hserves'

/-- A publication can always be brought to its end. -/
theorem exists_advances (t : Traffic) : ∃ u, Advances t u ∧ u.delivery = none := by
  obtain ⟨bus, now, delivery⟩ := t
  cases delivery with
  | none => exact ⟨_, .refl _, rfl⟩
  | some d =>
    have hserved := (via_serve d.notice d.timeoutMillis none d.remaining d.turn now bus).mono
      fun _ h => Deed.isOwn_of_serves h.serves
    have hover := Delivery.serve_none_remaining d.notice d.timeoutMillis d.remaining d.turn now bus
    exact ⟨_, hserved.trans (.single (.conclude rfl hover) rfl), rfl⟩

/-- Whatever subscriptions come and go, receive and are left while one event after another is published:
each subscription gets what it should, each publication comes to everybody within all timeouts, and none
goes on for ever. What the bus does to publish an event, alone or while a subscriber receives, is such a
run. -/
theorem run_delivers (hrun : Run (fresh sendTimeoutMillis start) log t) (hnames : NamesOnce log) :
    (∀ id, Kept id log t) ∧
      (∀ before s n timeoutMillis during u after,
        log = before ++ ⟨s, .publish n timeoutMillis⟩ :: (during ++ ⟨u, .conclude⟩ :: after) →
        (∀ m ∈ during, m.deed ≠ .conclude) → Published before s n timeoutMillis during u) ∧
      (∃ u, Advances t u ∧ u.delivery = none) ∧
      (t.delivery = none → ∀ n timeoutMillis, Executed log t n timeoutMillis) := by
  refine ⟨hrun.kept hnames, fun before s n timeoutMillis during u after hlog hopen => ?_,
    exists_advances t, hrun.executed hnames⟩
  subst hlog
  exact hrun.published hnames hopen

/-- A subscriber with room for one event gets the first of two and misses the second, for which it is waited
for ten milliseconds; another one gets both. After its end the first still receives what it got. -/
theorem slowSubscriber_misses :
    let n : Notice := ⟨.update, .bare ⟨"ns", "pod"⟩ none⟩
    ∃ log t, Run (fresh 3000 0) log t ∧ NamesOnce log ∧ t.now = 10 ∧
      (account 0 log).offered = [n, n] ∧ (account 0 log).received = [n] ∧
      (account 0 log).next = .closed ∧ (account 1 log).handed = [n, n] ∧
      (∀ id, Kept id log t) ∧
      (∀ before s n timeoutMillis during u after,
        log = before ++ ⟨s, .publish n timeoutMillis⟩ :: (during ++ ⟨u, .conclude⟩ :: after) →
        (∀ m ∈ during, m.deed ≠ .conclude) → Published before s n timeoutMillis during u) ∧
      t.delivery = none ∧ (t.bus.publish n none).1 = 0 ∧ Executed log t n none := by
  intro n
  have hstart : Run (fresh 3000 0) [] _ := .start
  have hslow := hstart.step (.subscribe rfl ⟨"ns", "pod"⟩ [.update] 0)
  have hfast := hslow.step (.subscribe rfl ⟨"ns", "pod"⟩ [.update, .delete] 8)
  have hfirst := hfast.step (.publish rfl n none)
  have hfirst := hfirst.step (.hand rfl rfl (by decide +kernel) (by decide +kernel))
  have hfirst := hfirst.step (.hand rfl rfl (by decide +kernel) (by decide +kernel))
  have hfirst := hfirst.step (.conclude rfl rfl)
  have hsecond := hfirst.step (.publish rfl n (some 10))
  have hsecond := hsecond.step
    (.wait rfl rfl (by decide +kernel) (by decide +kernel) 10 (by decide)
      (by decide +kernel))
  have hsecond := hsecond.step
    (.miss rfl rfl (by decide +kernel) (by decide +kernel) (by decide +kernel))
  have hsecond := hsecond.step (.hand rfl rfl (by decide +kernel) (by decide +kernel))
  have hsecond := hsecond.step (.conclude rfl rfl)
  have hended := hsecond.step (.unsubscribe rfl 0)
  have hreceived := hended.step (.receive 0 (by decide +kernel))
  have hrun := hreceived.step (.receive 0 (by decide +kernel))
  refine ⟨_, _, hrun, ?hnames, by decide +kernel, by decide +kernel, by decide +kernel,
    by decide +kernel, by decide +kernel, (run_delivers hrun ?hnames).1, (run_delivers hrun ?hnames).2.1,
    rfl, by decide +kernel, (run_delivers hrun ?hnames).2.2.2 rfl n none⟩
  decide +kernel

end Traffic
end PodSizing
