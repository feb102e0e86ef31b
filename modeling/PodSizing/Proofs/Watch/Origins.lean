import Mathlib.Data.List.Basic
import Mathlib.Data.List.Induction
import PodSizing.Proofs.Watch.Coverage

/-!
# Where triggers come from

Every trigger goes back to one report of its pod: to the report that sends it off, or to one of the list
that this report completes. Each report's trigger is sent off once at most, and the cache holds the pod by
then.
-/
namespace PodSizing

namespace Watch
variable {w : Watch} {reports more : List WatchEvent} {p : Pod} {i j : Nat}

def AwaitsListed (w : Watch) : Prop := ∀ p ∈ w.awaiting, ∃ q ∈ w.cache.listed, q.cacheKey = p.cacheKey

theorem pod_of_mem_wanted {e : PodEvent} (h : p ∈ wanted e) : p = e.pod := by
  unfold wanted at h
  split at h
  · exact List.mem_singleton.1 h
  · cases h

theorem pod_change (w : Watch) (p : Pod) : (w.change p).pod = p := by
  unfold change
  split <;> rfl

theorem exists_withPod (p q : Pod) {pods : List Pod} (h : ∃ r ∈ pods, r.cacheKey = q.cacheKey) :
    ∃ r ∈ Cache.withPod p pods, r.cacheKey = q.cacheKey := by
  obtain ⟨r, hr, hkey⟩ := h
  by_cases hp : p.cacheKey = q.cacheKey
  · exact ⟨p, Cache.mem_withPod.2 (.inl rfl), hp⟩
  · exact ⟨r, Cache.mem_withPod.2 (.inr ⟨hr, fun hsame => hp (hsame.symm.trans hkey)⟩), hkey⟩

theorem observe_awaitsListed (h : w.AwaitsListed) (report : WatchEvent) :
    (w.observe report).2.AwaitsListed := by
  cases report with
  | init => exact fun q hq => by cases hq
  | initDone => exact fun q hq => by cases hq
  | apply p => exact h
  | delete p => exact h
  | initApply p =>
    intro q hq
    rcases List.mem_append.1 hq with hq | hq
    · exact exists_withPod p q (h q hq)
    · have hsame : q = p := (pod_of_mem_wanted hq).trans (pod_change w p)
      exact ⟨p, Cache.mem_withPod.2 (.inl rfl), by rw [hsame]⟩

theorem exists_lookup? {c : Cache} (h : ∃ q ∈ c.pods, q.cacheKey = p.cacheKey) :
    ∃ q, c.lookup? p.cacheKey = some q := by
  refine Option.isSome_iff_exists.1 (List.find?_isSome.2 ?_)
  simpa using h

theorem observe_cached (h : w.AwaitsListed) {report : WatchEvent}
    (hp : p ∈ triggered (w.observe report).1) :
    ∃ q, (w.observe report).2.cache.lookup? p.cacheKey = some q := by
  cases report with
  | init => cases hp
  | initApply q => cases hp
  | delete q => cases hp
  | initDone =>
    rw [observe, triggered_map_trigger] at hp
    exact exists_lookup? (h p hp)
  | apply q =>
    simp only [observe, triggered_publication, triggered_map_trigger] at hp
    have hsame : p = q := (pod_of_mem_wanted hp).trans (pod_change w q)
    exact exists_lookup? ⟨q, Cache.mem_withPod.2 (.inl rfl), by rw [hsame]⟩

def after (reports : List WatchEvent) : Watch := (run reports {}).2

theorem run_concat (reports : List WatchEvent) (report : WatchEvent) (w : Watch) :
    (run (reports ++ [report]) w).2 = ((run reports w).2.observe report).2 := by
  induction reports generalizing w with
  | nil => rfl
  | cons r rest ih => exact ih _

theorem after_concat (reports : List WatchEvent) (report : WatchEvent) :
    after (reports ++ [report]) = ((after reports).observe report).2 :=
  run_concat reports report {}

theorem after_awaitsListed (reports : List WatchEvent) : (after reports).AwaitsListed := by
  induction reports using List.reverseRecOn with
  | nil => exact fun p hp => by cases hp
  | append_singleton reports report ih => exact after_concat reports report ▸ observe_awaitsListed ih report

def asked (reports : List WatchEvent) (i : Nat) : Option Pod :=
  match reports[i]? with
  | some (.apply p) | some (.initApply p) =>
    if ((after (reports.take i)).change p).decide.1 = .reconcile then some p else none
  | _ => none

def asking (reports : List WatchEvent) (P : Nat → Prop) [DecidablePred P] (n : Nat) : List Pod :=
  ((List.range n).filter (P ·)).filterMap (asked reports)

/-- Whether report `j` sends off the trigger that report `i` asks for: at once, or at the end of its list. -/
def Releases (reports : List WatchEvent) (i j : Nat) : Prop :=
  match reports[i]? with
  | some (.apply _) => i = j
  | some (.initApply _) =>
    i < j ∧ reports[j]? = some .initDone ∧
      ∀ k < j, i < k → reports[k]? ≠ some .init ∧ reports[k]? ≠ some .initDone
  | _ => False

instance (reports : List WatchEvent) (i j : Nat) : Decidable (Releases reports i j) := by
  unfold Releases
  split <;> infer_instance

def released (reports : List WatchEvent) (j : Nat) : List Pod :=
  asking reports (Releases reports · j) (j + 1)

/-- No report's trigger is sent off twice. -/
theorem Releases.unique {j' : Nat} (h : Releases reports i j) (h' : Releases reports i j') : j = j' := by
  unfold Releases at h h'
  split at h
  · next happly =>
    simp only [happly] at h'
    exact h.symm.trans h'
  · next hlisted =>
    simp only [hlisted] at h'
    obtain ⟨hlt, hdone, hopen⟩ := h
    obtain ⟨hlt', hdone', hopen'⟩ := h'
    rcases Nat.lt_trichotomy j j' with hj | hj | hj
    · exact absurd hdone (hopen' j hj hlt).2
    · exact hj
    · exact absurd hdone' (hopen j' hj hlt').2
  · exact h.elim

theorem asked_append (h : i < reports.length) (more : List WatchEvent) :
    asked (reports ++ more) i = asked reports i := by
  unfold asked
  rw [List.getElem?_append_left h, List.take_append_of_le_length (Nat.le_of_lt h)]

theorem releases_append (h : j < reports.length) (hi : i ≤ j) (more : List WatchEvent) :
    Releases (reports ++ more) i j ↔ Releases reports i j := by
  have hbefore {k : Nat} (hk : k ≤ j) : (reports ++ more)[k]? = reports[k]? :=
    List.getElem?_append_left (Nat.lt_of_le_of_lt hk h)
  unfold Releases
  rw [hbefore hi, hbefore (Nat.le_refl j)]
  split
  · exact Iff.rfl
  · refine and_congr_right fun _ => and_congr_right fun _ => forall_congr' fun k => ?_
    exact forall_congr' fun hk => by rw [hbefore (Nat.le_of_lt hk)]
  · exact Iff.rfl

theorem asking_congr {P Q : Nat → Prop} [DecidablePred P] [DecidablePred Q] {n : Nat}
    (hn : n ≤ reports.length) (h : ∀ i < n, P i ↔ Q i) (more : List WatchEvent) :
    asking (reports ++ more) P n = asking reports Q n := by
  have hfilter : (List.range n).filter (P ·) = (List.range n).filter (Q ·) :=
    List.filter_congr fun i hi => by simp only [h i (List.mem_range.1 hi)]
  unfold asking
  rw [hfilter]
  refine List.filterMap_congr fun i hi => asked_append ?_ more
  exact Nat.lt_of_lt_of_le (List.mem_range.1 (List.mem_of_mem_filter hi)) hn

theorem asking_none {P : Nat → Prop} [DecidablePred P] {n : Nat} (h : ∀ i < n, ¬ P i) :
    asking reports P n = [] := by
  have hfilter : (List.range n).filter (P ·) = [] :=
    List.filter_eq_nil_iff.2 fun i hi => by simpa using h i (List.mem_range.1 hi)
  rw [asking, hfilter, List.filterMap_nil]

theorem asking_succ (reports : List WatchEvent) (P : Nat → Prop) [DecidablePred P] (n : Nat) :
    asking reports P (n + 1) = asking reports P n ++ if P n then (asked reports n).toList else [] := by
  unfold asking
  rw [List.range_succ, List.filter_append, List.filterMap_append]
  by_cases h : P n <;> cases hn : asked reports n <;> simp [h, hn]

/-- What a report sends off does not depend on what is reported later. -/
theorem released_append (h : j < reports.length) (more : List WatchEvent) :
    released (reports ++ more) j = released reports j :=
  asking_congr h (fun _ hi => releases_append h (Nat.le_of_lt_succ hi) more) more

def Waits (reports : List WatchEvent) (i : Nat) : Prop :=
  match reports[i]? with
  | some (.initApply _) =>
    ∀ k < reports.length, i < k → reports[k]? ≠ some .init ∧ reports[k]? ≠ some .initDone
  | _ => False

instance (reports : List WatchEvent) (i : Nat) : Decidable (Waits reports i) := by
  unfold Waits
  split <;> infer_instance

def waiting (reports : List WatchEvent) : List Pod := asking reports (Waits reports) reports.length

theorem wanted_change (w : Watch) (p : Pod) :
    wanted (w.change p) = if (w.change p).decide.1 = .reconcile then [p] else [] := by
  unfold wanted
  rw [pod_change]
  cases (w.change p).decide.1 <;> rfl

theorem waits_concat (hi : i < reports.length) (report : WatchEvent) :
    Waits (reports ++ [report]) i ↔ Waits reports i ∧ report ≠ .init ∧ report ≠ .initDone := by
  have hlast : (reports ++ [report])[reports.length]? = some report := List.getElem?_concat_length
  unfold Waits
  rw [List.getElem?_append_left hi]
  split
  · constructor
    · intro h
      refine ⟨fun k hk hik => ?_, ?_⟩
      · rw [← List.getElem?_append_left hk]
        exact h k (by simp; omega) hik
      · simpa [hlast] using h reports.length (by simp) hi
    · rintro ⟨h, hreport⟩ k hk hik
      rcases Nat.lt_or_eq_of_le (Nat.le_of_lt_succ (by simpa using hk)) with hk | rfl
      · rw [List.getElem?_append_left hk]
        exact h k hk hik
      · simpa [hlast] using hreport
  · simp

theorem asked_concat (reports : List WatchEvent) (report : WatchEvent) :
    (asked (reports ++ [report]) reports.length).toList =
      match report with
      | .apply p | .initApply p => wanted ((after reports).change p)
      | _ => [] := by
  have hlast : (reports ++ [report])[reports.length]? = some report := List.getElem?_concat_length
  unfold asked
  rw [hlast, List.take_left]
  cases report with
  | apply p | initApply p =>
    simp only [wanted_change]
    split <;> rfl
  | _ => rfl

theorem waiting_concat (reports : List WatchEvent) (report : WatchEvent) :
    waiting (reports ++ [report]) =
      match report with
      | .init | .initDone => []
      | .initApply p => waiting reports ++ wanted ((after reports).change p)
      | .apply _ | .delete _ => waiting reports := by
  have hlength : (reports ++ [report]).length = reports.length + 1 := List.length_append
  have hlast : (reports ++ [report])[reports.length]? = some report := List.getElem?_concat_length
  have hgoes (h : report ≠ .init ∧ report ≠ .initDone) :
      asking (reports ++ [report]) (Waits (reports ++ [report])) reports.length = waiting reports :=
    asking_congr (Nat.le_refl _) (fun i hi => by simp [waits_concat hi, h]) [report]
  have hends (h : ¬ (report ≠ .init ∧ report ≠ .initDone)) :
      asking (reports ++ [report]) (Waits (reports ++ [report])) reports.length = [] :=
    asking_none fun i hi hwaits => h ((waits_concat hi report).1 hwaits).2
  have hwaits : Waits (reports ++ [report]) reports.length ↔ ∃ p, report = .initApply p := by
    unfold Waits
    rw [hlast]
    cases report with
    | initApply p => simpa using fun k hk hik => absurd hk (by omega)
    | _ => simp
  rw [waiting, hlength, asking_succ, asked_concat]
  cases report with
  | init | initDone => rw [hends (by simp), if_neg (by simp [hwaits])]; rfl
  | initApply p => rw [hgoes (by simp), if_pos (by simp [hwaits])]
  | apply p | delete p => rw [hgoes (by simp), if_neg (by simp [hwaits]), List.append_nil]

theorem awaiting_after (reports : List WatchEvent) : (after reports).awaiting = waiting reports := by
  induction reports using List.reverseRecOn with
  | nil => rfl
  | append_singleton reports report ih =>
    rw [after_concat, waiting_concat, ← ih]
    cases report <;> rfl

theorem releases_concat (hi : i < reports.length) (report : WatchEvent) :
    Releases (reports ++ [report]) i reports.length ↔ Waits reports i ∧ report = .initDone := by
  have hlast : (reports ++ [report])[reports.length]? = some report := List.getElem?_concat_length
  unfold Releases Waits
  rw [List.getElem?_append_left hi, hlast]
  cases hreport : reports[i]? with
  | none => simp
  | some r =>
    cases r with
    | apply p => simp [Nat.ne_of_lt hi]
    | initApply p =>
      have hopen : (∀ k < reports.length, i < k →
          (reports ++ [report])[k]? ≠ some .init ∧ (reports ++ [report])[k]? ≠ some .initDone) ↔
            ∀ k < reports.length, i < k → reports[k]? ≠ some .init ∧ reports[k]? ≠ some .initDone :=
        forall_congr' fun k => forall_congr' fun hk => by rw [List.getElem?_append_left hk]
      simp only [hopen, hi, true_and, Option.some.injEq]
      exact and_comm
    | _ => simp

/-- What a report triggers is what it sends off. -/
theorem triggered_observe (reports : List WatchEvent) (report : WatchEvent) :
    triggered ((after reports).observe report).1 = released (reports ++ [report]) reports.length := by
  have hlast : (reports ++ [report])[reports.length]? = some report := List.getElem?_concat_length
  have hearlier (h : report ≠ .initDone) :
      asking (reports ++ [report]) (Releases (reports ++ [report]) · reports.length) reports.length = [] :=
    asking_none fun i hi hreleases => h ((releases_concat hi report).1 hreleases).2
  have hown : Releases (reports ++ [report]) reports.length reports.length ↔
      ∃ p, report = .apply p := by
    unfold Releases
    rw [hlast]
    cases report <;> simp
  rw [released, asking_succ, asked_concat]
  cases report with
  | init => rw [hearlier (by simp), if_neg (by simp [hown])]; rfl
  | initApply p => rw [hearlier (by simp), if_neg (by simp [hown])]; rfl
  | delete p => rw [hearlier (by simp), if_neg (by simp [hown])]; rfl
  | apply p =>
    rw [hearlier (by simp), if_pos (by simp [hown])]
    simp [observe]
  | initDone =>
    have hwaiting : asking (reports ++ [.initDone]) (Releases (reports ++ [.initDone]) · reports.length)
        reports.length = waiting reports :=
      asking_congr (Nat.le_refl _) (fun i hi => by simp [releases_concat hi]) [.initDone]
    rw [hwaiting, if_neg (by simp [hown]), ← awaiting_after]
    simp [observe]

/-- What the bus is told about a report, by what the cache holds before it. -/
def told (w : Watch) : WatchEvent → List Notice
  | .apply p | .initApply p =>
    [⟨if (w.cache.get? p.cacheKey).isSome then .update else .create, p⟩]
  | .delete p => [⟨.delete, p⟩]
  | .init | .initDone => []

theorem publication_change (w : Watch) (p : Pod) :
    publication (w.change p) =
      .publish ⟨if (w.cache.get? p.cacheKey).isSome then .update else .create, p⟩ := by
  unfold change publication
  cases w.cache.get? p.cacheKey <;> rfl

theorem observe_told (w : Watch) (report : WatchEvent) :
    (w.observe report).1 =
      (told w report).map .publish ++ (triggered (w.observe report).1).map .trigger := by
  cases report with
  | init => rfl
  | initApply p => simp [observe, told, publication_change, triggered]
  | initDone => simp [observe, told]
  | apply p =>
    simp only [observe, triggered_publication, triggered_map_trigger]
    rw [publication_change]
    rfl
  | delete p => rfl

end Watch
end PodSizing
