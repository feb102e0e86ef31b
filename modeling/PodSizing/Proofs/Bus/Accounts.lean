import Mathlib.Data.List.Induction
import PodSizing.Proofs.Bus.Traffic

/-!
# Accounts of subscribers

What a subscription asks about, what was published for it, what came into its buffer and what was received
are accounted for by the deeds alone. The bus keeps to these accounts: it lists a subscription under what it
asks about until it ends, and a buffer holds what came in and has not been received.
-/
namespace PodSizing

namespace Bus
variable {bus : Bus} {live : List Nat} {id : Nat} {f : Subscription → Subscription}

theorem find?_unsubscribe (bus : Bus) (id j : Nat) :
    (bus.unsubscribe id).find? j = bus.find? j := by
  unfold unsubscribe
  split <;> rfl

theorem receive_fst {q : Subscription} (h : bus.find? id = some q) :
    (bus.receive id).1 =
      match q.buffer with
      | n :: _ => .notice n
      | [] => if bus.index.mentions id then .pending else .closed := by
  cases hbuffer : q.buffer <;> simp [receive, h, hbuffer]

theorem find?_receive (bus : Bus) (id j : Nat) :
    (bus.receive id).2.find? j =
      if j = id then (bus.find? j).map fun q => { q with buffer := q.buffer.tail } else bus.find? j := by
  cases hfind : bus.find? id with
  | none =>
    have hbus : (bus.receive id).2 = bus := by simp [receive, hfind]
    rw [hbus]
    by_cases hj : j = id
    · simp [hj, hfind]
    · simp [hj]
  | some q =>
    cases hbuffer : q.buffer with
    | nil =>
      have hbus : (bus.receive id).2 = bus := by simp [receive, hfind, hbuffer]
      rw [hbus]
      by_cases hj : j = id
      · simp only [hj, if_true, hfind, Option.map_some, hbuffer, List.tail_nil]
        rw [← hbuffer]
      · simp [hj]
    | cons n rest =>
      have hbus : (bus.receive id).2 = bus.modify id fun q => { q with buffer := rest } := by
        simp [receive, hfind, hbuffer]
      rw [hbus, find?_modify (f := fun q => { q with buffer := rest }) fun _ => rfl]
      by_cases hj : j = id
      · simp [hj, hfind, hbuffer]
      · simp [hj]

theorem Indexed.modify (h : Indexed bus live) (hid : ∀ q, (f q).id = q.id)
    (htopics : ∀ q, (f q).topics = q.topics) (id : Nat) : Indexed (bus.modify id f) live := by
  have hfind (j : Nat) : (bus.modify id f).find? j =
      if j = id then (bus.find? j).map f else bus.find? j := Bus.find?_modify hid j
  refine ⟨h.proper, fun t => ?_, h.distinct, fun j hj => ?_, fun q hq => ?_⟩
  · have hsame (j : Nat) : (bus.modify id f).topicsOf j = bus.topicsOf j := by
      rw [topicsOf, topicsOf, hfind]
      split
      · cases bus.find? j <;> simp [htopics]
      · rfl
    simp only [hsame]
    exact h.subscribers t
  · rw [hfind]
    split <;> simpa using h.found j hj
  · obtain ⟨q', hq', rfl⟩ := List.mem_map.1 hq
    split
    · rw [hid]
      exact h.fresh q' hq'
    · exact h.fresh q' hq'

theorem Indexed.receive (h : Indexed bus live) (id : Nat) : Indexed (bus.receive id).2 live := by
  unfold Bus.receive
  split
  · next rest _ =>
    exact h.modify (f := fun q => { q with buffer := rest }) (fun _ => rfl) (fun _ => rfl) id
  · exact h

theorem Indexed.mentions_iff (h : Indexed bus live) :
    bus.index.mentions id = true ↔ id ∈ live ∧ bus.topicsOf id ≠ [] := by
  have hlisted : bus.index.mentions id = true ↔ ∃ t, id ∈ bus.index.subscribers t := by
    simp only [TopicIndex.mentions, List.any_eq_true, List.contains_iff_mem]
    constructor
    · rintro ⟨e, he, hid⟩
      exact ⟨e.1, TopicIndex.subscribers_of_mem h.proper he ▸ hid⟩
    · rintro ⟨t, hid⟩
      exact ⟨_, TopicIndex.mem_of_subscribers (List.ne_nil_of_mem hid), hid⟩
  rw [hlisted]
  simp only [h.mem_subscribers, exists_and_left]
  exact and_congr_right fun _ => ⟨fun ⟨t, ht⟩ => List.ne_nil_of_mem ht, List.exists_mem_of_ne_nil _⟩

end Bus

namespace Traffic
variable {s t : Traffic} {log : List Moment} {deed : Deed} {id : Nat}

def Deed.leaves (id : Nat) : Deed → Option Subscription → Option Subscription
  | .subscribe j pod kinds capacity, q =>
    if id = j then some ⟨j, pod, kinds, max capacity 1, [], true⟩ else q
  | .abandon j, q => if id = j then q.map (·.abandon) else q
  | .receive j _, q => if id = j then q.map fun q => { q with buffer := q.buffer.tail } else q
  | .hand j n, q => if id = j then q.map (·.push n) else q
  | _, q => q

def Deed.living : Deed → List Nat → List Nat
  | .subscribe id .., live => live ++ [id]
  | .unsubscribe id, live => live.filter (· ≠ id)
  | .clear, _ => []
  | _, live => live

theorem Step.find?_eq (h : Step s deed t) (hfresh : ∀ q ∈ s.bus.subscriptions, q.id < s.bus.nextId)
    (id : Nat) : t.bus.find? id = deed.leaves id (s.bus.find? id) := by
  cases h with
  | subscribe idle pod kinds capacity => exact Bus.find?_subscribe hfresh pod kinds capacity
  | unsubscribe idle j => exact Bus.find?_unsubscribe s.bus j id
  | clear => rfl
  | abandon j => exact Bus.find?_modify (f := (·.abandon)) (fun _ => rfl) id
  | receive j => exact Bus.find?_receive s.bus j id
  | publish => rfl
  | hand => exact Bus.find?_modify (f := (·.push _)) (fun _ => rfl) id
  | pass => rfl
  | miss => rfl
  | wait => rfl
  | idle => rfl
  | conclude => rfl

theorem Step.indexed {live : List Nat} (h : Step s deed t) (hindexed : s.bus.Indexed live) :
    t.bus.Indexed (deed.living live) := by
  cases h with
  | subscribe idle pod kinds capacity => exact hindexed.subscribe pod kinds capacity
  | unsubscribe idle j => exact hindexed.unsubscribe j
  | clear => exact hindexed.clear
  | abandon j => exact hindexed.modify (f := (·.abandon)) (fun _ => rfl) (fun _ => rfl) j
  | receive j => exact hindexed.receive j
  | publish => exact hindexed
  | hand => exact hindexed.modify (f := (·.push _)) (fun _ => rfl) (fun _ => rfl) _
  | pass => exact hindexed
  | miss => exact hindexed
  | wait => exact hindexed
  | idle => exact hindexed
  | conclude => exact hindexed

/-- What a subscription has come to. -/
structure Account where
  /-- What it asks about, until it ends. -/
  topics : List Topic := []
  capacity : Nat := 0
  /-- What was published for it. -/
  offered : List Notice := []
  /-- What came into its buffer. -/
  handed : List Notice := []
  received : List Notice := []

namespace Account

def after (id : Nat) (a : Account) : Deed → Account
  | .subscribe j pod kinds capacity =>
    if id = j then { a with topics := kinds.map (⟨pod, ·⟩), capacity } else a
  | .unsubscribe j => if id = j then { a with topics := [] } else a
  | .clear => { a with topics := [] }
  | .publish n _ => if n.topic ∈ a.topics then { a with offered := a.offered ++ [n] } else a
  | .hand j n => if id = j then { a with handed := a.handed ++ [n] } else a
  | .receive j (.notice n) => if id = j then { a with received := a.received ++ [n] } else a
  | _ => a

theorem after_topics (id : Nat) (a : Account) (deed : Deed) :
    (a.after id deed).topics =
      match deed with
      | .subscribe j pod kinds _ => if id = j then kinds.map (⟨pod, ·⟩) else a.topics
      | .unsubscribe j => if id = j then [] else a.topics
      | .clear => []
      | _ => a.topics := by
  cases deed with
  | subscribe | unsubscribe => exact apply_ite Account.topics _ _ _
  | publish | hand => exact (apply_ite Account.topics _ _ _).trans (ite_self _)
  | receive j r =>
    cases r with
    | notice => exact (apply_ite Account.topics _ _ _).trans (ite_self _)
    | pending | closed => rfl
  | _ => rfl

theorem after_handed (id : Nat) (a : Account) (deed : Deed) :
    (a.after id deed).handed =
      match deed with
      | .hand j n => if id = j then a.handed ++ [n] else a.handed
      | _ => a.handed := by
  cases deed with
  | hand => exact apply_ite Account.handed _ _ _
  | subscribe | unsubscribe | publish => exact (apply_ite Account.handed _ _ _).trans (ite_self _)
  | receive j r =>
    cases r with
    | notice => exact (apply_ite Account.handed _ _ _).trans (ite_self _)
    | pending | closed => rfl
  | _ => rfl

theorem after_offered (id : Nat) (a : Account) (deed : Deed) :
    (a.after id deed).offered =
      match deed with
      | .publish n _ => if n.topic ∈ a.topics then a.offered ++ [n] else a.offered
      | _ => a.offered := by
  cases deed with
  | publish => exact apply_ite Account.offered _ _ _
  | subscribe | unsubscribe | hand => exact (apply_ite Account.offered _ _ _).trans (ite_self _)
  | receive j r =>
    cases r with
    | notice => exact (apply_ite Account.offered _ _ _).trans (ite_self _)
    | pending | closed => rfl
  | _ => rfl

def next (a : Account) : Bus.Received :=
  match a.handed.drop a.received.length with
  | n :: _ => .notice n
  | [] => if a.topics = [] then .closed else .pending

end Account

def account (id : Nat) (log : List Moment) : Account :=
  log.foldl (fun a m => a.after id m.deed) {}

def enrolled (log : List Moment) : List Nat :=
  log.filterMap fun m =>
    match m.deed with
    | .subscribe id .. => some id
    | _ => none

def audience (n : Notice) (log : List Moment) : List Nat :=
  (enrolled log).filter fun id => n.topic ∈ (account id log).topics

def living (log : List Moment) : List Nat := log.foldl (fun live m => m.deed.living live) []

def Deed.kinds : Deed → List EventKind
  | .subscribe _ _ kinds _ => kinds
  | _ => []

/-- No subscriber names a kind of event twice. -/
def NamesOnce (log : List Moment) : Prop := ∀ m ∈ log, m.deed.kinds.Nodup

instance (log : List Moment) : Decidable (NamesOnce log) :=
  inferInstanceAs (Decidable (∀ m ∈ log, m.deed.kinds.Nodup))

@[simp] theorem account_concat (log : List Moment) (m : Moment) :
    account id (log ++ [m]) = (account id log).after id m.deed := by
  simp [account]

@[simp] theorem living_concat (log : List Moment) (m : Moment) :
    living (log ++ [m]) = m.deed.living (living log) := by
  simp [living]

theorem NamesOnce.init {m : Moment} (h : NamesOnce (log ++ [m])) : NamesOnce log :=
  fun m' hm' => h m' (List.mem_append_left _ hm')

def fresh (sendTimeoutMillis now : Nat) : Traffic := { bus := { sendTimeoutMillis }, now }

variable {sendTimeoutMillis start : Nat}

theorem Run.indexed (h : Run (fresh sendTimeoutMillis start) log t) : t.bus.Indexed (living log) := by
  induction h with
  | start => exact .start sendTimeoutMillis
  | step _ hstep ih =>
    rw [living_concat]
    exact hstep.indexed ih

theorem Run.find?_step {deed : Deed} (h : Run (fresh sendTimeoutMillis start) log s)
    (hstep : Step s deed t) (id : Nat) : t.bus.find? id = deed.leaves id (s.bus.find? id) :=
  hstep.find?_eq h.indexed.fresh id

theorem topics_ite_map {p : Prop} [Decidable p] {f : Subscription → Subscription}
    (hf : ∀ q, (f q).topics = q.topics) (q : Option Subscription) :
    ((if p then q.map f else q).map (·.topics)).getD [] = (q.map (·.topics)).getD [] := by
  split <;> cases q <;> simp [hf]

theorem Run.topicsOf_step (h : Run (fresh sendTimeoutMillis start) log s) (hstep : Step s deed t)
    (hdeed : ∀ pod kinds capacity, deed ≠ .subscribe id pod kinds capacity) :
    t.bus.topicsOf id = s.bus.topicsOf id := by
  rw [Bus.topicsOf, Bus.topicsOf, h.find?_step hstep]
  cases deed with
  | subscribe j pod kinds capacity =>
    have hne : id ≠ j := fun hsame => hdeed pod kinds capacity (by rw [hsame])
    simp [Deed.leaves, hne]
  | abandon j => exact topics_ite_map (f := (·.abandon)) (fun _ => rfl) _
  | receive j r =>
    exact topics_ite_map (f := fun q => { q with buffer := q.buffer.tail }) (fun _ => rfl) _
  | hand j n => exact topics_ite_map (f := (·.push n)) (fun _ => rfl) _
  | _ => rfl

theorem Run.topics (h : Run (fresh sendTimeoutMillis start) log t) (id : Nat) :
    (account id log).topics = if id ∈ living log then t.bus.topicsOf id else [] := by
  induction h with
  | start => rfl
  | @step log s t deed h hstep ih =>
    rw [account_concat, living_concat, Account.after_topics]
    cases deed with
    | subscribe j pod kinds capacity =>
      by_cases hj : id = j
      · subst hj
        have hfind := Run.find?_step h hstep id
        rw [Bus.topicsOf, hfind]
        simp [Deed.leaves, Deed.living, Subscription.topics]
      · rw [Run.topicsOf_step h hstep (by simp [Ne.symm hj])]
        simpa [Deed.living, hj] using ih
    | unsubscribe j =>
      rw [Run.topicsOf_step h hstep (by simp)]
      by_cases hj : id = j
      · simp [Deed.living, hj]
      · simpa [Deed.living, hj] using ih
    | clear => rfl
    | _ =>
      rw [Run.topicsOf_step h hstep (by simp)]
      exact ih

theorem topics_nodup (hnames : NamesOnce log) (id : Nat) : (account id log).topics.Nodup := by
  induction log using List.reverseRecOn with
  | nil => exact .nil
  | append_singleton log m ih =>
    have hold := ih hnames.init
    rw [account_concat, Account.after_topics]
    split
    · next j pod kinds capacity hdeed =>
      split
      · have hkinds := hnames m (by simp)
        rw [hdeed] at hkinds
        exact hkinds.map (Bus.kind_injective pod)
      · exact hold
    · split
      · exact .nil
      · exact hold
    · exact .nil
    · exact hold

/-- The bus lists a subscription under a topic exactly as long as it asks about it. -/
theorem Run.mem_subscribers (h : Run (fresh sendTimeoutMillis start) log t) (topic : Topic) :
    id ∈ t.bus.index.subscribers topic ↔ topic ∈ (account id log).topics := by
  rw [h.indexed.mem_subscribers, h.topics]
  split
  · next hlive => simp [hlive]
  · next hdead => simp [hdead]

theorem Run.mentions (h : Run (fresh sendTimeoutMillis start) log t) (id : Nat) :
    t.bus.index.mentions id = true ↔ (account id log).topics ≠ [] := by
  rw [h.indexed.mentions_iff, h.topics]
  split
  · next hlive => simp [hlive]
  · next hdead => simp [hdead]

theorem Run.nodup_subscribers (h : Run (fresh sendTimeoutMillis start) log t)
    (hnames : NamesOnce log) (topic : Topic) : (t.bus.index.subscribers topic).Nodup := by
  refine h.indexed.nodup_subscribers (fun id hid => ?_) topic
  have htopics := h.topics id
  rw [if_pos hid] at htopics
  exact htopics ▸ topics_nodup hnames id

theorem Run.nodup_remaining (h : Run (fresh sendTimeoutMillis start) log t)
    (hnames : NamesOnce log) {d : Delivery} (hd : t.delivery = some d) : d.remaining.Nodup := by
  induction h generalizing d with
  | start => cases hd
  | @step log s t deed h hstep ih =>
    have hold := fun d => ih hnames.init (d := d)
    cases hstep with
    | subscribe | unsubscribe | clear | abandon | receive | wait | idle => exact hold d hd
    | publish idle n timeoutMillis =>
      cases hd
      exact Run.nodup_subscribers h hnames.init _
    | hand under next | pass under next | miss under next =>
      cases hd
      have hnext := hold _ under
      rw [next] at hnext
      exact (List.nodup_cons.1 hnext).2
    | conclude => cases hd

theorem Run.enrolled (h : Run (fresh sendTimeoutMillis start) log t) :
    enrolled log = List.range t.bus.nextId := by
  induction h with
  | start => rfl
  | @step log s t deed h hstep ih =>
    have hconcat : Traffic.enrolled (log ++ [⟨s, deed⟩]) =
        Traffic.enrolled log ++ Traffic.enrolled [⟨s, deed⟩] := List.filterMap_append
    rw [hconcat, ih]
    cases hstep with
    | subscribe idle pod kinds capacity => exact List.range_succ.symm
    | unsubscribe idle j =>
      have hnext : (s.bus.unsubscribe j).nextId = s.bus.nextId := by
        unfold Bus.unsubscribe
        split <;> rfl
      simp [hnext, Traffic.enrolled]
    | receive j =>
      have hnext : (s.bus.receive j).2.nextId = s.bus.nextId := by
        unfold Bus.receive
        split <;> rfl
      simp [hnext, Traffic.enrolled]
    | _ => exact List.append_nil _

/-- Those whose turn comes are those that an event is for. -/
theorem Run.perm_audience (h : Run (fresh sendTimeoutMillis start) log t) (hnames : NamesOnce log)
    (n : Notice) : (t.bus.index.subscribers n.topic).Perm (audience n log) := by
  have hdistinct : (audience n log).Nodup := by
    rw [audience, h.enrolled]
    exact List.nodup_range.filter _
  refine (List.perm_ext_iff_of_nodup (h.nodup_subscribers hnames _) hdistinct).2 fun id => ?_
  rw [h.mem_subscribers, audience, h.enrolled]
  simp only [List.mem_filter, List.mem_range, decide_eq_true_eq, iff_and_self]
  intro htopic
  have hlive : id ∈ living log := by
    by_contra hdead
    rw [h.topics, if_neg hdead] at htopic
    cases htopic
  exact h.indexed.lt_nextId hlive

namespace Account

/-- A subscription that keeps to its account: its buffer is bounded, and holds what came in and has not
been received. -/
structure Holds (a : Account) (q : Subscription) : Prop where
  capacity : q.capacity = max a.capacity 1
  bounded : q.buffer.length ≤ q.capacity
  received : a.received <+: a.handed
  conserved : q.isAttended = true → a.handed = a.received ++ q.buffer

def Balances (a : Account) : Option Subscription → Prop
  | none => a = {}
  | some q => a.Holds q

variable {a : Account} {q : Subscription} {n : Notice} {rest : List Notice}

theorem Holds.abandon (h : a.Holds q) : a.Holds q.abandon where
  capacity := h.capacity
  bounded := Nat.zero_le _
  received := h.received
  conserved := by simp [Subscription.abandon]

theorem Holds.push (h : a.Holds q) (attended : q.isAttended = true) (room : q.hasRoom = true)
    (n : Notice) : Holds { a with handed := a.handed ++ [n] } (q.push n) where
  capacity := h.capacity
  bounded := by
    have hlt : q.buffer.length < q.capacity := by simpa [Subscription.hasRoom] using room
    simp only [Subscription.push, List.length_append, List.length_singleton]
    exact hlt
  received := h.received.trans (List.prefix_append _ _)
  conserved _ := by simp [Subscription.push, h.conserved attended]

theorem Holds.pull (h : a.Holds q) (attended : q.isAttended = true) (hbuffer : q.buffer = n :: rest) :
    Holds { a with received := a.received ++ [n] } { q with buffer := rest } := by
  have hconserved : a.handed = a.received ++ [n] ++ rest := by
    rw [h.conserved attended, hbuffer, List.append_assoc]
    rfl
  have hbounded := h.bounded
  rw [hbuffer] at hbounded
  exact ⟨h.capacity, Nat.le_of_succ_le hbounded, ⟨rest, hconserved.symm⟩, fun _ => hconserved⟩

theorem Balances.ended {q : Option Subscription} (h : a.Balances q) :
    Balances { a with topics := [] } q := by
  cases q with
  | none =>
    cases h
    rfl
  | some q => exact ⟨h.capacity, h.bounded, h.received, h.conserved⟩

theorem Balances.offer {q : Option Subscription} (h : a.Balances q) (n : Notice) :
    (if n.topic ∈ a.topics then { a with offered := a.offered ++ [n] } else a).Balances q := by
  cases q with
  | none =>
    cases h
    rfl
  | some q =>
    split
    · exact ⟨h.capacity, h.bounded, h.received, h.conserved⟩
    · exact h

end Account

theorem attends_iff {bus : Bus} :
    bus.attends id = true ↔ ∃ q, bus.find? id = some q ∧ q.isAttended = true := by
  cases hfind : bus.find? id <;> simp [Bus.attends, hfind]

theorem isFull_of_find {bus : Bus} {q : Subscription} (h : bus.find? id = some q) :
    bus.isFull id = !q.hasRoom := by
  simp [Bus.isFull, h]

theorem after_receive_other {a : Account} {j : Nat} (hj : id ≠ j) (r : Bus.Received) :
    a.after id (.receive j r) = a := by
  cases r with
  | notice n => exact if_neg hj
  | pending | closed => rfl

theorem Step.balances_receive {bus : Bus} {a : Account} (h : a.Balances (bus.find? id))
    (attended : bus.attends id = true) :
    (a.after id (.receive id (bus.receive id).1)).Balances
      ((bus.find? id).map fun q => { q with buffer := q.buffer.tail }) := by
  obtain ⟨q, hq, hthere⟩ := attends_iff.1 attended
  rw [hq] at h ⊢
  rw [Bus.receive_fst hq]
  cases hbuffer : q.buffer with
  | nil =>
    have hsame : { q with buffer := q.buffer.tail } = q := by rw [hbuffer, List.tail_nil, ← hbuffer]
    simp only [Option.map_some, hsame]
    split <;> exact h
  | cons n rest =>
    have hpulled := h.pull hthere hbuffer
    simpa [Account.after, Account.Balances, hbuffer] using hpulled

theorem Step.balances {a : Account} (hstep : Step s deed t)
    (hfresh : ∀ q ∈ s.bus.subscriptions, q.id < s.bus.nextId) (h : a.Balances (s.bus.find? id)) :
    (a.after id deed).Balances (deed.leaves id (s.bus.find? id)) := by
  cases hstep with
  | subscribe idle pod kinds capacity =>
    by_cases hj : id = s.bus.nextId
    · have hnone : s.bus.find? id = none := by
        simpa [Bus.find?, hj] using fun q hq => Nat.ne_of_lt (hfresh q hq)
      rw [hnone] at h
      cases h
      simp only [Account.after, Deed.leaves, hj, if_true]
      exact ⟨rfl, Nat.zero_le _, List.prefix_rfl, fun _ => rfl⟩
    · simpa only [Account.after, Deed.leaves, hj, if_false] using h
  | unsubscribe idle j =>
    simp only [Account.after, Deed.leaves]
    split
    · exact h.ended
    · exact h
  | clear => exact h.ended
  | abandon j =>
    simp only [Account.after, Deed.leaves]
    split
    · cases hq : s.bus.find? id with
      | none => rwa [hq] at h
      | some q =>
        rw [hq] at h
        exact h.abandon
    · exact h
  | receive j attended =>
    by_cases hj : id = j
    · subst hj
      simpa only [Deed.leaves, if_true] using balances_receive h attended
    · rw [after_receive_other hj]
      simpa only [Deed.leaves, hj, if_false] using h
  | publish idle n timeoutMillis => exact h.offer n
  | @hand d j rest under next attended room =>
    by_cases hj : id = j
    · subst hj
      obtain ⟨q, hq, hthere⟩ := attends_iff.1 attended
      rw [isFull_of_find hq, Bool.not_eq_false'] at room
      rw [hq] at h ⊢
      simp only [Account.after, Deed.leaves, if_true, Option.map_some]
      exact h.push hthere room _
    · simpa only [Account.after, Deed.leaves, hj, if_false] using h
  | pass => exact h
  | miss => exact h
  | wait => exact h
  | idle => exact h
  | conclude => exact h

/-- What has been received is what came in, in order, but for what is in the buffer still. -/
theorem Run.balances (h : Run (fresh sendTimeoutMillis start) log t) (id : Nat) :
    (account id log).Balances (t.bus.find? id) := by
  induction h with
  | start => rfl
  | step h hstep ih =>
    rw [account_concat, Run.find?_step h hstep]
    exact hstep.balances (Run.indexed h).fresh ih

/-- What came in was published for the subscription, in order. What is being delivered to it was published
for it last, and has not come in. -/
structure Account.Ordered (a : Account) (id : Nat) (delivery : Option Delivery) : Prop where
  handed : a.handed.Sublist a.offered
  due : ∀ d, delivery = some d → id ∈ d.remaining →
    ∃ earlier, a.offered = earlier ++ [d.notice] ∧ a.handed.Sublist earlier

namespace Account
variable {a : Account} {d : Option Delivery} {n : Notice}

theorem Ordered.congr {b : Account} {d' : Option Delivery} (h : a.Ordered id d)
    (hhanded : b.handed = a.handed) (hoffered : b.offered = a.offered)
    (hd : ∀ e', d' = some e' → ∃ e, d = some e ∧ e.notice = e'.notice ∧ e'.remaining ⊆ e.remaining) :
    b.Ordered id d' := by
  refine ⟨hhanded ▸ hoffered ▸ h.handed, fun e' he' hid => ?_⟩
  obtain ⟨e, he, hnotice, hsub⟩ := hd e' he'
  rw [hhanded, hoffered, ← hnotice]
  exact h.due e he (hsub hid)

theorem Ordered.publish (h : a.Ordered id none) {timeoutMillis now : Nat} {remaining : List Nat}
    (hlisted : id ∈ remaining → n.topic ∈ a.topics) :
    (a.after id (.publish n timeoutMillis)).Ordered id (some ⟨n, timeoutMillis, remaining, now⟩) := by
  have hhanded : (a.after id (.publish n timeoutMillis)).handed = a.handed := after_handed _ _ _
  have hoffered := after_offered id a (.publish n timeoutMillis)
  by_cases htopic : n.topic ∈ a.topics
  · simp only [htopic, if_true] at hoffered
    refine ⟨?_, fun e he _ => ?_⟩
    · rw [hhanded, hoffered]
      exact h.handed.trans (List.sublist_append_left _ _)
    · cases he
      exact ⟨a.offered, hoffered, hhanded ▸ h.handed⟩
  · simp only [htopic, if_false] at hoffered
    refine ⟨hhanded ▸ hoffered ▸ h.handed, fun e he hid => ?_⟩
    cases he
    exact absurd (hlisted hid) htopic

theorem Ordered.hand {e : Delivery} {rest : List Nat} {now : Nat} (h : a.Ordered id (some e))
    (next : e.remaining = id :: rest) (honce : id ∉ rest) :
    (a.after id (.hand id e.notice)).Ordered id (some { e with remaining := rest, turn := now }) := by
  have hhanded := after_handed id a (.hand id e.notice)
  have hoffered : (a.after id (.hand id e.notice)).offered = a.offered := after_offered _ _ _
  simp only [if_true] at hhanded
  obtain ⟨earlier, hlast, hsub⟩ := h.due e rfl (next ▸ List.mem_cons_self)
  refine ⟨?_, fun e' he' hid => ?_⟩
  · rw [hhanded, hoffered, hlast]
    exact hsub.append_right _
  · cases he'
    exact absurd hid honce

end Account

/-- Nothing comes into a buffer but what was published for it, in that order and once each. -/
theorem Run.ordered (h : Run (fresh sendTimeoutMillis start) log t) (hnames : NamesOnce log)
    (id : Nat) : (account id log).Ordered id t.delivery := by
  induction h with
  | start => exact ⟨.slnil, fun d hd => by cases hd⟩
  | @step log s t deed h hstep ih =>
    have hold := ih hnames.init
    rw [account_concat]
    cases hstep with
    | subscribe | unsubscribe | clear | abandon | receive | wait | idle =>
      exact hold.congr (Account.after_handed _ _ _) (Account.after_offered _ _ _)
        fun e he => ⟨e, he, rfl, fun _ hid => hid⟩
    | publish idle n timeoutMillis =>
      rw [idle] at hold
      exact hold.publish (Run.mem_subscribers h n.topic).1
    | @hand d j rest under next attended room =>
      by_cases hj : id = j
      · subst hj
        have hdistinct := Run.nodup_remaining h hnames.init under
        rw [next] at hdistinct
        exact (under ▸ hold).hand next (List.nodup_cons.1 hdistinct).1
      · refine hold.congr ((Account.after_handed _ _ _).trans (if_neg hj))
          (Account.after_offered _ _ _) fun e he => ?_
        cases he
        exact ⟨d, under, rfl, next ▸ List.subset_cons_self _ _⟩
    | pass under next | miss under next =>
      refine hold.congr (Account.after_handed _ _ _) (Account.after_offered _ _ _) fun e he => ?_
      cases he
      exact ⟨_, under, rfl, next ▸ List.subset_cons_self _ _⟩
    | conclude =>
      exact hold.congr (Account.after_handed _ _ _) (Account.after_offered _ _ _) fun e he => by cases he

end Traffic
end PodSizing
