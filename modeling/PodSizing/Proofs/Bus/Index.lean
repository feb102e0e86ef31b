import Mathlib.Data.List.Dedup
import PodSizing.Proofs.Bus.Delivery
import PodSizing.Proofs.Keyed

/-!
# The index of subscribers

Under each topic the index lists the subscriptions that ask about it and have not ended, as often as they
ask. So it is well formed, with each of them listed once and each event delivered to them once, exactly as
long as none of them names a kind of event twice.
-/
namespace PodSizing

namespace TopicIndex
variable {index : TopicIndex} {id : Nat} {t u : Topic}

def topics (index : TopicIndex) : List Topic := index.map (·.1)

structure Proper (index : TopicIndex) : Prop where
  topics : index.topics.Nodup
  inhabited : ∀ e ∈ index, e.2 ≠ []

theorem Proper.nil : Proper [] := ⟨.nil, by simp⟩

theorem proper_cons {e : Topic × List Nat} :
    Proper (e :: index) ↔ e.1 ∉ index.topics ∧ e.2 ≠ [] ∧ index.Proper := by
  constructor
  · rintro ⟨htopics, hinhabited⟩
    obtain ⟨hnew, hrest⟩ := List.nodup_cons.1 htopics
    exact ⟨hnew, hinhabited e List.mem_cons_self, hrest,
      fun d hd => hinhabited d (List.mem_cons_of_mem e hd)⟩
  · rintro ⟨hnew, he, htopics, hinhabited⟩
    exact ⟨List.nodup_cons.2 ⟨hnew, htopics⟩, List.forall_mem_cons.2 ⟨he, hinhabited⟩⟩

@[simp] theorem subscribers_nil : subscribers [] t = [] := rfl

theorem subscribers_cons (e : Topic × List Nat) :
    subscribers (e :: index) t = if e.1 = t then e.2 else subscribers index t := by
  unfold subscribers
  rw [Keyed.lookup_cons_ite]
  by_cases h : t = e.1
  · simp [h]
  · simp [h, Ne.symm h]

theorem subscribers_eq_nil (h : t ∉ index.topics) : index.subscribers t = [] := by
  induction index with
  | nil => rfl
  | cons e rest ih =>
    obtain ⟨hne, hrest⟩ := List.ne_and_not_mem_of_not_mem_cons h
    rw [subscribers_cons, if_neg (Ne.symm hne), ih hrest]

theorem subscribers_of_mem (h : index.Proper) {e : Topic × List Nat} (he : e ∈ index) :
    index.subscribers e.1 = e.2 := by
  induction index with
  | nil => cases he
  | cons d rest ih =>
    obtain ⟨hnew, -, hrest⟩ := proper_cons.1 h
    rcases List.mem_cons.1 he with rfl | he
    · rw [subscribers_cons, if_pos rfl]
    · have hne : d.1 ≠ e.1 := fun hsame => hnew (hsame ▸ List.mem_map_of_mem he)
      rw [subscribers_cons, if_neg hne, ih hrest he]

theorem mem_of_subscribers (h : index.subscribers t ≠ []) : (t, index.subscribers t) ∈ index := by
  induction index with
  | nil => exact absurd rfl h
  | cons e rest ih =>
    rw [subscribers_cons] at h ⊢
    split at h
    · next he => rw [if_pos he, ← he]; exact List.mem_cons_self
    · next he => rw [if_neg he]; exact List.mem_cons_of_mem e (ih h)

theorem mem_topics_enroll : u ∈ (enroll id t index).topics ↔ u = t ∨ u ∈ index.topics := by
  induction index with
  | nil => simp [enroll, topics]
  | cons e rest ih =>
    unfold enroll
    split
    · next he => simp [topics, he]
    · simp only [topics, List.map_cons, List.mem_cons] at ih ⊢
      rw [ih]
      tauto

theorem enroll_proper (h : index.Proper) : (enroll id t index).Proper := by
  induction index with
  | nil => exact proper_cons.2 ⟨by simp [topics], by simp, .nil⟩
  | cons e rest ih =>
    obtain ⟨hnew, he, hrest⟩ := proper_cons.1 h
    unfold enroll
    split
    · next hsame => exact proper_cons.2 ⟨hsame ▸ hnew, by simp, hrest⟩
    · next hother =>
      refine proper_cons.2 ⟨fun hmem => ?_, he, ih hrest⟩
      exact (mem_topics_enroll.1 hmem).elim hother hnew

theorem subscribers_enroll (index : TopicIndex) :
    (enroll id t index).subscribers u = index.subscribers u ++ if t = u then [id] else [] := by
  induction index with
  | nil => by_cases h : t = u <;> simp [enroll, subscribers_cons, h]
  | cons e rest ih =>
    unfold enroll
    split
    · next he => by_cases h : t = u <;> simp [subscribers_cons, he, h]
    · next he =>
      rw [subscribers_cons, subscribers_cons, ih]
      by_cases h : e.1 = u
      · have htu : t ≠ u := fun htu => he (h.trans htu.symm)
        simp [h, htu]
      · simp [h]

theorem mem_topics_withdraw (h : u ∈ (withdraw id t index).topics) : u ∈ index.topics := by
  induction index with
  | nil => exact h
  | cons e rest ih =>
    unfold withdraw at h
    split at h
    · next he =>
      split at h
      · exact List.mem_cons_of_mem _ h
      · simpa [topics, he] using h
    · rcases List.mem_cons.1 h with rfl | h
      · exact List.mem_cons_self
      · exact List.mem_cons_of_mem _ (ih h)

theorem withdraw_proper (h : index.Proper) : (withdraw id t index).Proper := by
  induction index with
  | nil => exact h
  | cons e rest ih =>
    obtain ⟨hnew, he, hrest⟩ := proper_cons.1 h
    unfold withdraw
    split
    · next hsame =>
      split
      · exact hrest
      · next hleft => exact proper_cons.2 ⟨hsame ▸ hnew, hleft, hrest⟩
    · exact proper_cons.2 ⟨fun hmem => hnew (mem_topics_withdraw hmem), he, ih hrest⟩

theorem subscribers_withdraw (h : index.Proper) :
    (withdraw id t index).subscribers u =
      if t = u then (index.subscribers u).filter (· ≠ id) else index.subscribers u := by
  induction index with
  | nil => simp [withdraw]
  | cons e rest ih =>
    obtain ⟨hnew, -, hrest⟩ := proper_cons.1 h
    unfold withdraw
    split
    · next he =>
      have hgone : t ∉ TopicIndex.topics rest := he ▸ hnew
      split
      · next hleft =>
        by_cases htu : t = u
        · have hnone : subscribers rest u = [] := subscribers_eq_nil (htu ▸ hgone)
          rw [subscribers_cons, if_pos htu, if_pos (he.trans htu), hleft, hnone]
        · have hne : e.1 ≠ u := fun hu => htu (he.symm.trans hu)
          rw [subscribers_cons, if_neg htu, if_neg hne]
      · by_cases htu : t = u
        · simp [subscribers_cons, he, htu]
        · simp [subscribers_cons, he, htu]
    · next he =>
      rw [subscribers_cons, subscribers_cons, ih hrest]
      by_cases hu : e.1 = u
      · have htu : t ≠ u := fun htu => he (hu.trans htu.symm)
        simp [hu, htu]
      · simp [hu]

/-- A subscription that comes is listed as often as it names the topic. -/
theorem subscribers_enrollAll (topics : List Topic) (index : TopicIndex) :
    (topics.foldl (fun index t => enroll id t index) index).subscribers u =
      index.subscribers u ++ List.replicate (topics.count u) id := by
  induction topics generalizing index with
  | nil => simp
  | cons t rest ih =>
    rw [List.foldl_cons, ih, subscribers_enroll, List.append_assoc, List.count_cons]
    by_cases h : t = u
    · simp [h, List.replicate_succ]
    · simp [h]

theorem enrollAll_proper (topics : List Topic) (h : index.Proper) :
    (topics.foldl (fun index t => enroll id t index) index).Proper := by
  induction topics generalizing index with
  | nil => exact h
  | cons t rest ih => exact ih (enroll_proper h)

theorem withdrawAll_proper (topics : List Topic) (h : index.Proper) :
    (topics.foldl (fun index t => withdraw id t index) index).Proper := by
  induction topics generalizing index with
  | nil => exact h
  | cons t rest ih => exact ih (withdraw_proper h)

theorem subscribers_withdrawAll (topics : List Topic) (h : index.Proper) :
    (topics.foldl (fun index t => withdraw id t index) index).subscribers u =
      if u ∈ topics then (index.subscribers u).filter (· ≠ id) else index.subscribers u := by
  induction topics generalizing index with
  | nil => simp
  | cons t rest ih =>
    rw [List.foldl_cons, ih (withdraw_proper h), subscribers_withdraw h]
    by_cases htu : t = u
    · by_cases hrest : u ∈ rest <;> simp [hrest, htu]
    · have hne : u ≠ t := Ne.symm htu
      simp [htu, hne]

def pairs (index : TopicIndex) : List (Topic × Nat) := index.flatMap fun e => e.2.map (e.1, ·)

theorem length_pairs (index : TopicIndex) : index.pairs.length = index.count := by
  induction index with
  | nil => rfl
  | cons e rest ih =>
    simp only [pairs, List.flatMap_cons, List.length_append, List.length_map] at ih ⊢
    rw [ih]
    rfl

theorem count_map_pair (ids : List Nat) :
    (ids.map (t, ·)).count (u, id) = if t = u then ids.count id else 0 := by
  by_cases h : t = u
  · rw [if_pos h, ← h]
    exact List.count_map_of_injective ids (t, ·) (fun _ _ h => (Prod.mk.inj h).2) id
  · rw [if_neg h, List.count_eq_zero]
    simp [h]

theorem count_pairs (h : index.Proper) : index.pairs.count (t, id) = (index.subscribers t).count id := by
  induction index with
  | nil => rfl
  | cons e rest ih =>
    obtain ⟨hnew, -, hrest⟩ := proper_cons.1 h
    have hsplit : pairs (e :: rest) = e.2.map (e.1, ·) ++ pairs rest := rfl
    rw [hsplit, List.count_append, ih hrest, subscribers_cons, count_map_pair]
    by_cases he : e.1 = t
    · simp [he, subscribers_eq_nil (he ▸ hnew)]
    · simp [he]

end TopicIndex

namespace Bus
variable {bus : Bus} {live : List Nat} {id : Nat} {t : Topic}

def topicsOf (bus : Bus) (id : Nat) : List Topic := ((bus.find? id).map (·.topics)).getD []

theorem topicsOf_of_find {s : Subscription} (h : bus.find? id = some s) :
    bus.topicsOf id = s.topics := by
  simp [topicsOf, h]

/-- The states of a bus, with the subscriptions that have not ended, in the order of their start. -/
inductive Reached : Bus → List Nat → Prop where
  | start (sendTimeoutMillis : Nat) : Reached { sendTimeoutMillis } []
  | subscribe {bus : Bus} {live : List Nat} (pod : PodId) (kinds : List EventKind) (capacity : Nat)
    (h : Reached bus live) : Reached (bus.subscribe pod kinds capacity).2 (live ++ [bus.nextId])
  | unsubscribe {bus : Bus} {live : List Nat} (id : Nat) (h : Reached bus live) :
    Reached (bus.unsubscribe id) (live.filter (· ≠ id))
  | clear {bus : Bus} {live : List Nat} (h : Reached bus live) : Reached bus.clear []

/-- The index lists the subscriptions that have not ended under what they ask about. -/
structure Indexed (bus : Bus) (live : List Nat) : Prop where
  proper : bus.index.Proper
  subscribers : ∀ t, bus.index.subscribers t =
    live.flatMap fun id => List.replicate ((bus.topicsOf id).count t) id
  distinct : live.Nodup
  found : ∀ id ∈ live, (bus.find? id).isSome
  fresh : ∀ s ∈ bus.subscriptions, s.id < bus.nextId

theorem Indexed.start (sendTimeoutMillis : Nat) : Indexed { sendTimeoutMillis } [] where
  proper := .nil
  subscribers _ := rfl
  distinct := .nil
  found _ h := by cases h
  fresh _ h := by cases h

theorem Indexed.clear (h : Indexed bus live) : Indexed bus.clear [] where
  proper := .nil
  subscribers _ := rfl
  distinct := .nil
  found _ h := by cases h
  fresh := h.fresh

theorem find?_subscribe (hfresh : ∀ s ∈ bus.subscriptions, s.id < bus.nextId) (pod : PodId)
    (kinds : List EventKind) (capacity : Nat) :
    (bus.subscribe pod kinds capacity).2.find? id =
      if id = bus.nextId then some ⟨bus.nextId, pod, kinds, max capacity 1, [], true⟩
      else bus.find? id := by
  simp only [find?, subscribe, List.find?_append]
  by_cases h : id = bus.nextId
  · have hnone : bus.subscriptions.find? (·.id = bus.nextId) = none := by
      simpa using fun s hs => Nat.ne_of_lt (hfresh s hs)
    simp [h, hnone]
  · simp [h, Ne.symm h]

theorem topicsOf_subscribe (hfresh : ∀ s ∈ bus.subscriptions, s.id < bus.nextId) (pod : PodId)
    (kinds : List EventKind) (capacity : Nat) :
    (bus.subscribe pod kinds capacity).2.topicsOf id =
      if id = bus.nextId then kinds.map (⟨pod, ·⟩) else bus.topicsOf id := by
  rw [topicsOf, find?_subscribe hfresh]
  by_cases h : id = bus.nextId <;> simp [h, topicsOf, Subscription.topics]

theorem Indexed.lt_nextId (h : Indexed bus live) (hid : id ∈ live) : id < bus.nextId := by
  obtain ⟨s, hs⟩ := Option.isSome_iff_exists.1 (h.found id hid)
  have hsame : s.id = id := by simpa using List.find?_some hs
  exact hsame ▸ h.fresh s (List.mem_of_find?_eq_some hs)

theorem Indexed.subscribe (h : Indexed bus live) (pod : PodId) (kinds : List EventKind)
    (capacity : Nat) :
    Indexed (bus.subscribe pod kinds capacity).2 (live ++ [bus.nextId]) where
  proper := TopicIndex.enrollAll_proper _ h.proper
  subscribers t := by
    have hindex : (bus.subscribe pod kinds capacity).2.index =
      (kinds.map (⟨pod, ·⟩)).foldl (fun index t => TopicIndex.enroll bus.nextId t index) bus.index :=
        rfl
    have hold : ∀ id ∈ live, List.replicate
        (((bus.subscribe pod kinds capacity).2.topicsOf id).count t) id =
          List.replicate ((bus.topicsOf id).count t) id := by
      intro id hid
      rw [topicsOf_subscribe h.fresh, if_neg (Nat.ne_of_lt (h.lt_nextId hid))]
    rw [hindex, TopicIndex.subscribers_enrollAll, h.subscribers, List.flatMap_append,
      List.flatMap_congr hold]
    simp [topicsOf_subscribe h.fresh]
  distinct := by
    refine List.nodup_append.2 ⟨h.distinct, by simp, ?_⟩
    simpa using fun id hid => Nat.ne_of_lt (h.lt_nextId hid)
  found id hid := by
    rw [find?_subscribe h.fresh]
    split
    · rfl
    · next hne =>
      refine h.found id ?_
      simpa [hne] using hid
  fresh s hs := by
    rcases List.mem_append.1 hs with hs | hs
    · exact Nat.lt_succ_of_lt (h.fresh s hs)
    · cases List.mem_singleton.1 hs
      exact Nat.lt_succ_self _

theorem flatMap_replicate_filter (count : Nat → Nat) (live : List Nat) :
    (live.filter (· ≠ id)).flatMap (fun j => List.replicate (count j) j) =
      (live.flatMap fun j => List.replicate (count j) j).filter (· ≠ id) := by
  induction live with
  | nil => rfl
  | cons j rest ih =>
    rw [List.flatMap_cons, List.filter_append, ← ih, List.filter_replicate]
    by_cases h : j = id <;> simp [h]

theorem Indexed.unsubscribe (h : Indexed bus live) (id : Nat) :
    Indexed (bus.unsubscribe id) (live.filter (· ≠ id)) := by
  cases hfind : bus.find? id with
  | none =>
    have hother : live.filter (· ≠ id) = live := by
      refine List.filter_eq_self.2 fun j hj => ?_
      have hne : j ≠ id := fun hsame => by simpa [hsame, hfind] using h.found j hj
      simpa using hne
    have hbus : bus.unsubscribe id = bus := by simp only [Bus.unsubscribe, hfind]
    rwa [hother, hbus]
  | some s =>
    have hbus : bus.unsubscribe id = { bus with
        index := s.topics.foldl (fun index t => TopicIndex.withdraw id t index) bus.index } := by
      simp only [Bus.unsubscribe, hfind]
    rw [hbus]
    refine ⟨TopicIndex.withdrawAll_proper _ h.proper, fun t => ?_, h.distinct.filter _,
      fun j hj => h.found j (List.mem_of_mem_filter hj), h.fresh⟩
    have htopics := topicsOf_of_find hfind
    refine (TopicIndex.subscribers_withdrawAll _ h.proper).trans ?_
    refine Eq.trans ?_ (flatMap_replicate_filter (fun j => (bus.topicsOf j).count t) live).symm
    rw [h.subscribers]
    split
    · rfl
    · next hnot =>
      -- where the subscription did not ask about the topic, it was not listed
      refine (List.filter_eq_self.2 fun j hj => ?_).symm
      obtain ⟨i, -, hi⟩ := List.mem_flatMap.1 hj
      obtain ⟨hcount, rfl⟩ := List.mem_replicate.1 hi
      have hne : j ≠ id := fun hsame => by
        rw [hsame, htopics] at hcount
        exact hcount (List.count_eq_zero.2 hnot)
      simpa using hne

theorem Reached.indexed (h : Reached bus live) : Indexed bus live := by
  induction h with
  | start sendTimeoutMillis => exact .start sendTimeoutMillis
  | subscribe pod kinds capacity _ ih => exact ih.subscribe pod kinds capacity
  | unsubscribe id _ ih => exact ih.unsubscribe id
  | clear _ ih => exact ih.clear

def pairs (bus : Bus) (live : List Nat) : List (Topic × Nat) :=
  live.flatMap fun id => (bus.topicsOf id).map (·, id)

theorem count_subscribers (h : Indexed bus live) :
    (bus.index.subscribers t).count id = if id ∈ live then (bus.topicsOf id).count t else 0 := by
  have hdistinct := h.distinct
  rw [h.subscribers]
  clear h
  induction live with
  | nil => rfl
  | cons j rest ih =>
    obtain ⟨hnew, hrest⟩ := List.nodup_cons.1 hdistinct
    rw [List.flatMap_cons, List.count_append, ih hrest, List.count_replicate]
    by_cases hj : j = id
    · subst hj
      simp [hnew]
    · simp [hj, Ne.symm hj]

theorem Indexed.mem_subscribers (h : Indexed bus live) :
    id ∈ bus.index.subscribers t ↔ id ∈ live ∧ t ∈ bus.topicsOf id := by
  rw [← List.count_pos_iff, count_subscribers h]
  split
  · next hlive => simp [hlive, List.count_pos_iff]
  · next hdead => simp [hdead]

theorem Indexed.nodup_subscribers (h : Indexed bus live)
    (htopics : ∀ id ∈ live, (bus.topicsOf id).Nodup) (t : Topic) :
    (bus.index.subscribers t).Nodup := by
  refine List.nodup_iff_count_le_one.2 fun id => ?_
  rw [count_subscribers h]
  split
  · next hid => exact List.nodup_iff_count_le_one.1 (htopics id hid) t
  · exact Nat.zero_le 1

/-- The index holds those pairs and no others. -/
theorem Indexed.pairs_perm (h : Indexed bus live) : bus.index.pairs.Perm (bus.pairs live) := by
  refine List.perm_iff_count.2 fun ⟨t, id⟩ => ?_
  rw [TopicIndex.count_pairs h.proper, h.subscribers, pairs, List.count_flatMap, List.count_flatMap]
  refine congrArg List.sum (List.map_congr_left fun j _ => ?_)
  by_cases hj : j = id
  · subst hj
    have hcount := List.count_map_of_injective (bus.topicsOf j) (·, j)
      (fun _ _ h => (Prod.mk.inj h).1) t
    simp [hcount]
  · have hnone : (t, id) ∉ (bus.topicsOf j).map (·, j) := by simp [hj]
    simp [List.count_replicate, hj, List.count_eq_zero.2 hnone]

theorem Indexed.count_eq (h : Indexed bus live) : bus.count = (bus.pairs live).length := by
  rw [← h.pairs_perm.length_eq, TopicIndex.length_pairs]
  rfl

/-- Every entry lists someone, nobody twice, and only subscriptions to its topic that have not ended. So
the count is that of subscriptions with the kinds that they ask for, and an event goes to nobody twice. -/
structure WellFormed (bus : Bus) (live : List Nat) : Prop where
  inhabited : ∀ e ∈ bus.index, e.2 ≠ []
  distinct : ∀ e ∈ bus.index, e.2.Nodup
  living : ∀ e ∈ bus.index, ∀ id ∈ e.2,
    id ∈ live ∧ ∃ s, bus.find? id = some s ∧ s.pod = e.1.pod ∧ e.1.kind ∈ s.kinds
  counted : bus.count = (bus.pairs live).dedup.length
  once : ∀ n timeoutMillis now id, (Delivery.begin n timeoutMillis now bus).remaining.count id ≤ 1
  delivered : ∀ n timeoutMillis id s, bus.find? id = some s → ∃ times ≤ 1,
    ((bus.publish n timeoutMillis).2.find? id).map (·.buffer) =
      some (s.buffer ++ List.replicate times n)

theorem Indexed.living (h : Indexed bus live) {e : Topic × List Nat} (he : e ∈ bus.index)
    (hid : id ∈ e.2) :
    id ∈ live ∧ ∃ s, bus.find? id = some s ∧ s.pod = e.1.pod ∧ e.1.kind ∈ s.kinds := by
  rw [← TopicIndex.subscribers_of_mem h.proper he, h.mem_subscribers] at hid
  obtain ⟨hlive, htopic⟩ := hid
  obtain ⟨s, hs⟩ := Option.isSome_iff_exists.1 (h.found id hlive)
  rw [topicsOf_of_find hs] at htopic
  obtain ⟨kind, hkind, hsame⟩ := List.mem_map.1 htopic
  exact ⟨hlive, s, hs, by rw [← hsame], by rw [← hsame]; exact hkind⟩

theorem kind_injective (pod : PodId) : Function.Injective (Topic.mk pod) :=
  fun _ _ h => (Topic.mk.inj h).2

/-- Whatever subscriptions come and go, the index is well formed exactly as long as each that has not
ended names every kind of event once at most. -/
theorem index_wellFormed_iff (h : Reached bus live) :
    WellFormed bus live ↔ ∀ id ∈ live, ∀ s, bus.find? id = some s → s.kinds.Nodup := by
  have hindexed := h.indexed
  constructor
  · intro hwell id hid s hs
    refine List.nodup_iff_count_le_one.2 fun kind => ?_
    have honce : (bus.index.subscribers ⟨s.pod, kind⟩).count id ≤ 1 :=
      hwell.once ⟨kind, .bare s.pod none⟩ none 0 id
    have htopics : s.topics.count ⟨s.pod, kind⟩ = s.kinds.count kind :=
      List.count_map_of_injective s.kinds _ (kind_injective s.pod) kind
    rwa [count_subscribers hindexed, if_pos hid, topicsOf_of_find hs, htopics] at honce
  · intro hkinds
    have htopics : ∀ id ∈ live, (bus.topicsOf id).Nodup := by
      intro id hid
      obtain ⟨s, hs⟩ := Option.isSome_iff_exists.1 (hindexed.found id hid)
      rw [topicsOf_of_find hs]
      exact (hkinds id hid s hs).map (kind_injective s.pod)
    have honce (t : Topic) (id : Nat) : (bus.index.subscribers t).count id ≤ 1 :=
      List.nodup_iff_count_le_one.1 (hindexed.nodup_subscribers htopics t) id
    have hpairs : (bus.pairs live).Nodup := by
      refine List.nodup_iff_count_le_one.2 fun ⟨t, id⟩ => ?_
      rw [← hindexed.pairs_perm.count_eq, TopicIndex.count_pairs hindexed.proper]
      exact honce t id
    refine ⟨hindexed.proper.inhabited, fun e he => ?_, fun e he id => hindexed.living he, ?_,
      fun n _ _ id => honce n.topic id, fun n timeoutMillis id s hs => ?_⟩
    · rw [← TopicIndex.subscribers_of_mem hindexed.proper he]
      exact hindexed.nodup_subscribers htopics e.1
    · rw [hindexed.count_eq, hpairs.dedup]
    · obtain ⟨times, htimes, hbuffer⟩ := Delivery.serve_buffer n
        (timeoutMillis.getD bus.sendTimeoutMillis) none (bus.index.subscribers n.topic) 0 0 bus id
      refine ⟨times, Nat.le_trans htimes (honce n.topic id), ?_⟩
      have hfind : (bus.publish n timeoutMillis).2.find? id = _ := hbuffer
      rw [hfind, hs]
      rfl

/-- Two subscriptions ask about a pod, one of them about two kinds of events, and one more has ended. -/
theorem threeSubscribers_wellFormed :
    let p : PodId := ⟨"ns", "pod"⟩
    let bus := ((({} : Bus).subscribe p [.update, .delete] 4).2.subscribe p [.update] 4).2
    let left := (bus.subscribe p [.create] 0).2.unsubscribe 2
    Reached left [0, 1] ∧ (∀ id ∈ [0, 1], ∀ s, left.find? id = some s → s.kinds.Nodup) ∧
      WellFormed left [0, 1] ∧ left.count = 3 := by
  intro p bus left
  have hreached : Reached left [0, 1] :=
    .unsubscribe 2 (.subscribe p _ 0 (.subscribe p _ 4 (.subscribe p _ 4 (.start 3000))))
  have hkinds : ∀ id ∈ [0, 1], ∀ s, left.find? id = some s → s.kinds.Nodup := by
    have hall : [0, 1].all fun id => (left.find? id).all fun s => decide s.kinds.Nodup := by
      decide +kernel
    intro id hid s hs
    simpa [hs] using List.all_eq_true.1 hall id hid
  exact ⟨hreached, hkinds, (index_wellFormed_iff hreached).2 hkinds, by decide +kernel⟩

/-- A subscription that names a kind twice is listed twice, is counted twice, and gets one event twice. -/
theorem repeatedKind_illFormed :
    let bus := (({} : Bus).subscribe ⟨"ns", "pod"⟩ [.update, .update] 4).2
    let n : Notice := ⟨.update, .bare ⟨"ns", "pod"⟩ none⟩
    Reached bus [0] ∧ ¬ WellFormed bus [0] ∧ bus.count = 2 ∧
      ((bus.publish n none).2.find? 0).map (·.buffer) = some [n, n] := by
  intro bus n
  have hreached : Reached bus [0] := .subscribe _ _ 4 (.start 3000)
  refine ⟨hreached, fun hwell => ?_, by decide +kernel, by decide +kernel⟩
  have hentry : (⟨⟨"ns", "pod"⟩, .update⟩, [0, 0]) ∈ bus.index := by decide +kernel
  exact absurd (hwell.distinct _ hentry) (by decide)

end Bus
end PodSizing
