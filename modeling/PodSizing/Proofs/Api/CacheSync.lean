import Mathlib.Algebra.Order.Floor.Div
import PodSizing.Api.CacheSync
import PodSizing.Proofs.Program
import PodSizing.Proofs.Text.Numeral

/-!
# When the cache is looked at

A wait looks at the cache at every step up to its deadline and at the deadline itself, and ends with the
first look that finds the written version or a later one. This holds for any history of the cache, also
one that goes back or loses the pod between two looks.
-/
namespace PodSizing.CacheSync

def SpellsVersion (version : String) (n : Nat) : Prop :=
  ∃ sign digits, version.toList = sign ++ digits ∧ Text.SpellsSign sign false ∧ digits ≠ [] ∧
    (∀ c ∈ digits, c.isDigit = true) ∧ Text.numeralValue digits = n ∧ n ≤ Text.maxNat64

theorem versionNumber?_eq_some_iff {version : String} {n : Nat} :
    versionNumber? version = some n ↔ SpellsVersion version n :=
  Text.readNatural_toOption

/-- The written version, or one that is later as a number. -/
def Reaches (cached written : String) : Prop :=
  cached = written ∨ ∃ m n, SpellsVersion cached m ∧ SpellsVersion written n ∧ n < m

theorem isObserved_iff {cached written : String} :
    isObserved cached written = true ↔ Reaches cached written := by
  simp only [isObserved, Reaches, Bool.or_eq_true, decide_eq_true_eq,
    ← versionNumber?_eq_some_iff]
  refine or_congr_right ?_
  cases versionNumber? cached <;> cases versionNumber? written <;> simp

/-- What passes while one waits: the looks at the cache with their times, and what is recorded. -/
structure Timeline where
  now : Nat
  looks : List (PodId × Nat) := []
  events : List Event := []
  deriving DecidableEq

/-- The cache holds what its history says, and pauses take just their time. No server answers. -/
def Timeline.handle (history : PodId → Nat → Option String) :
    (request : ApiRequest) → Timeline → apiSignature.Answer request × Timeline
  | .cachedVersion id, t => (history id t.now, { t with looks := t.looks ++ [(id, t.now)] })
  | .sleep millis, t => ((), { t with now := t.now + millis })
  | .record events, t => ((), { t with events := t.events ++ events })
  | .clock, t => (⟨0⟩, t)
  | .get _, t | .resize _ _, t | .patchMetadata _ _, t => (.error .transport, t)

section Wait
variable (sync : CacheSync) (id : PodId) (written : String) (history : PodId → Nat → Option String)
  (t : Timeline)

/-- When the looks are, counted from none. -/
def lookTime (k : Nat) : Nat := t.now + min (k * sync.stepMillis) sync.timeoutMillis

def beforeLook (k : Nat) : Timeline where
  now := sync.lookTime t k
  looks := t.looks ++ (List.range k).map fun j => (id, sync.lookTime t j)
  events := t.events

def sees (k : Nat) : Bool := (history id (sync.lookTime t k)).any (isObserved · written)

def remainingAt (k : Nat) : Nat := sync.timeoutMillis - min (k * sync.stepMillis) sync.timeoutMillis

theorem lookTime_succ (k : Nat) :
    sync.lookTime t k + min sync.stepMillis (sync.remainingAt k) = sync.lookTime t (k + 1) := by
  have hnext : (k + 1) * sync.stepMillis = k * sync.stepMillis + sync.stepMillis := Nat.succ_mul ..
  simp only [lookTime, remainingAt, hnext]
  omega

theorem remainingAt_succ (k : Nat) :
    sync.remainingAt k - min sync.stepMillis (sync.remainingAt k) = sync.remainingAt (k + 1) := by
  have hnext : (k + 1) * sync.stepMillis = k * sync.stepMillis + sync.stepMillis := Nat.succ_mul ..
  simp only [remainingAt, hnext]
  omega

/-- The time is up at the look whose number is that of the steps begun in it. -/
theorem remainingAt_eq_zero_iff (k : Nat) :
    sync.remainingAt k = 0 ↔ sync.timeoutMillis ⌈/⌉ sync.stepMillis ≤ k := by
  rw [ceilDiv_le_iff_le_mul sync.step_pos]
  simp only [remainingAt, Nat.mul_comm]
  omega

theorem lookTime_eq_of_remainingAt {j k : Nat} (h : sync.remainingAt j = 0) (hjk : j ≤ k) :
    sync.lookTime t k = sync.lookTime t j := by
  have hsteps : j * sync.stepMillis ≤ k * sync.stepMillis := Nat.mul_le_mul_right _ hjk
  simp only [remainingAt, lookTime] at h ⊢
  omega

def endedAt (k : Nat) (event : Event) : Timeline where
  now := sync.lookTime t k
  looks := t.looks ++ (List.range (k + 1)).map fun j => (id, sync.lookTime t j)
  events := t.events ++ [event]

/-- A look that finds the version ends the wait, and so does the one at the deadline. After any other
one the next look follows. -/
theorem run_look (k : Nat) :
    (sync.waitFrom id written k (sync.remainingAt k)).run (Timeline.handle history)
        (sync.beforeLook id t k) =
      if sync.sees id written history t k then (.ok true, sync.endedAt id t k (.syncPolled (k + 1)))
      else if sync.remainingAt k = 0 then (.ok false, sync.endedAt id t k .syncTimedOut)
      else (sync.waitFrom id written (k + 1) (sync.remainingAt (k + 1))).run
        (Timeline.handle history) (sync.beforeLook id t (k + 1)) := by
  have hlooks : t.looks ++ (List.range k).map (fun j => (id, sync.lookTime t j)) ++
      [(id, sync.lookTime t k)] =
        t.looks ++ (List.range (k + 1)).map fun j => (id, sync.lookTime t j) := by
    simp [List.range_succ]
  have hfound : (history id (sync.beforeLook id t k).now).any (isObserved · written) =
      sync.sees id written history t k := rfl
  rw [waitFrom]
  simp only [Program.run_call, Timeline.handle, hfound]
  simp only [beforeLook, hlooks]
  split
  · rfl
  · split
    · rfl
    · simp only [Program.run_call, Timeline.handle, sync.lookTime_succ, sync.remainingAt_succ]

/-- From any look on, the wait goes on up to the first that finds the version, or to the deadline. -/
theorem run_waitFrom (k : Nat) :
    ∃ last, k ≤ last ∧ (∀ j, k ≤ j → j < last → sync.sees id written history t j = false) ∧
      (∀ j, k ≤ j → j < last → sync.remainingAt j ≠ 0) ∧
      ((sync.sees id written history t last = true ∧
          (sync.waitFrom id written k (sync.remainingAt k)).run (Timeline.handle history)
              (sync.beforeLook id t k) =
            (.ok true, sync.endedAt id t last (.syncPolled (last + 1)))) ∨
        (sync.sees id written history t last = false ∧ sync.remainingAt last = 0 ∧
          (sync.waitFrom id written k (sync.remainingAt k)).run (Timeline.handle history)
              (sync.beforeLook id t k) = (.ok false, sync.endedAt id t last .syncTimedOut))) := by
  induction hremaining : sync.remainingAt k using Nat.strongRecOn generalizing k with
  | ind remaining ih =>
    subst hremaining
    rw [run_look]
    cases hsees : sync.sees id written history t k with
    | true =>
      exact ⟨k, Nat.le_refl k, fun j hj hlt => by omega, fun j hj hlt => by omega,
        .inl ⟨hsees, rfl⟩⟩
    | false =>
      by_cases hzero : sync.remainingAt k = 0
      · exact ⟨k, Nat.le_refl k, fun j hj hlt => by omega, fun j hj hlt => by omega,
          .inr ⟨hsees, hzero, by simp [hzero]⟩⟩
      · have hstep := sync.step_pos
        have hless : sync.remainingAt (k + 1) < sync.remainingAt k := by
          rw [← sync.remainingAt_succ k]
          omega
        obtain ⟨last, hlow, hvain, hleft, hend⟩ := ih _ hless (k + 1) rfl
        have hfrom (P : Nat → Prop) (hk : P k) (hlater : ∀ j, k + 1 ≤ j → j < last → P j) :
            ∀ j, k ≤ j → j < last → P j := fun j hj hlt => by
          rcases Nat.eq_or_lt_of_le hj with rfl | hj
          · exact hk
          · exact hlater j hj hlt
        refine ⟨last, by omega, hfrom _ hsees hvain, hfrom _ hzero hleft, ?_⟩
        simpa [hzero] using hend

end Wait

/-- A wait looks at the cache at each step up to its deadline and at the deadline itself, until a look
finds the written version or a later one. Then it is over with success, and the number of looks is
recorded. If no look finds it, the wait is over without success at the deadline, and that is recorded. -/
theorem wait_samples (sync : CacheSync) (id : PodId) (written : String)
    (history : PodId → Nat → Option String) (t : Timeline) :
    let lookTime k := t.now + min (k * sync.stepMillis) sync.timeoutMillis
    let finds k := ∃ cached, history id (lookTime k) = some cached ∧ Reaches cached written
    let looked n := t.looks ++ (List.range n).map fun k => (id, lookTime k)
    let deadline := sync.timeoutMillis ⌈/⌉ sync.stepMillis
    let result := (sync.wait id written).run (Timeline.handle history) t
    lookTime deadline = t.now + sync.timeoutMillis ∧
      (∀ n, finds n → (∀ k < n, ¬ finds k) → n ≤ deadline ∧
        result = (.ok true, ⟨lookTime n, looked (n + 1), t.events ++ [.syncPolled (n + 1)]⟩)) ∧
      ((∀ k, ¬ finds k) →
        result = (.ok false,
          ⟨lookTime deadline, looked (deadline + 1), t.events ++ [.syncTimedOut]⟩)) := by
  intro lookTime finds looked deadline result
  have hfinds (k : Nat) : finds k ↔ sync.sees id written history t k = true := by
    simp [finds, lookTime, sees, CacheSync.lookTime, Option.any_eq_true, isObserved_iff]
  have hdeadline : lookTime deadline = t.now + sync.timeoutMillis := by
    have hover := (ceilDiv_le_iff_le_mul sync.step_pos).1 (Nat.le_refl deadline)
    rw [Nat.mul_comm] at hover
    simp only [lookTime]
    omega
  obtain ⟨last, -, hvain, hleft, hend⟩ := sync.run_waitFrom id written history t 0
  have hstart : sync.beforeLook id t 0 = t := by simp [beforeLook, CacheSync.lookTime]
  have hall : sync.remainingAt 0 = sync.timeoutMillis := by simp [remainingAt]
  rw [hstart, hall] at hend
  have hlast : last ≤ deadline := by
    by_contra hlt
    exact hleft deadline (Nat.zero_le _) (by omega)
      ((sync.remainingAt_eq_zero_iff deadline).2 (Nat.le_refl _))
  refine ⟨hdeadline, fun n hn hbefore => ?_, fun hnever => ?_⟩
  · rcases hend with ⟨hsees, hrun⟩ | ⟨hunseen, hzero, -⟩
    · have hn' : n = last := by
        rcases Nat.lt_trichotomy n last with hlt | heq | hgt
        · exact absurd ((hfinds n).1 hn) (by simp [hvain n (Nat.zero_le n) hlt])
        · exact heq
        · exact absurd ((hfinds last).2 hsees) (hbefore last hgt)
      rw [hn']
      exact ⟨hlast, hrun⟩
    · -- a first look that finds the version is not behind the deadline
      have hsees := (hfinds n).1 hn
      by_cases hlt : n < last
      · rw [hvain n (Nat.zero_le n) hlt] at hsees
        cases hsees
      · have htime := sync.lookTime_eq_of_remainingAt t hzero (Nat.not_lt.1 hlt)
        rw [sees, htime] at hsees
        exact absurd hsees (by simpa [sees] using hunseen)
  · have hunseen (k : Nat) : sync.sees id written history t k ≠ true :=
      fun h => hnever k ((hfinds k).2 h)
    rcases hend with ⟨hsees, -⟩ | ⟨-, hzero, hrun⟩
    · exact absurd hsees (hunseen last)
    · have hn' : last = deadline :=
        Nat.le_antisymm hlast ((sync.remainingAt_eq_zero_iff last).1 hzero)
      rw [← hn']
      exact hrun

def lossyHistory : PodId → Nat → Option String := fun _ now =>
  if now < 250 then some "9" else if now < 500 then none else some "11"

theorem lossyHistory_reaches {id : PodId} {now : Nat} {cached written : String}
    (h : lossyHistory id now = some cached) (hreaches : Reaches cached written) :
    isObserved "9" written = true ∨ isObserved "11" written = true := by
  rw [← isObserved_iff] at hreaches
  unfold lossyHistory at h
  split at h
  · cases h
    exact .inl hreaches
  · split at h
    · cases h
    · cases h
      exact .inr hreaches

/-- A version that is later than the written one is found by the third look. One that never comes is
looked for at the deadline too, which is no multiple of the step. -/
theorem lossyHistory_samples :
    let sync : CacheSync := { timeoutMillis := 1000, stepMillis := 300 }
    let id : PodId := ⟨"ns", "pod"⟩
    (sync.wait id "10").run (Timeline.handle lossyHistory) ⟨0, [], []⟩ =
        (.ok true, ⟨600, [(id, 0), (id, 300), (id, 600)], [.syncPolled 3]⟩) ∧
      (sync.wait id "12").run (Timeline.handle lossyHistory) ⟨0, [], []⟩ =
        (.ok false, ⟨1000, [(id, 0), (id, 300), (id, 600), (id, 900), (id, 1000)],
          [.syncTimedOut]⟩) := by
  have hearly : isObserved "9" "10" = false := by decide +kernel
  have hlate : isObserved "11" "10" = true := by decide +kernel
  have hnever : ¬ (isObserved "9" "12" = true ∨ isObserved "11" "12" = true) := by decide +kernel
  have hten := wait_samples { timeoutMillis := 1000, stepMillis := 300 } ⟨"ns", "pod"⟩ "10"
    lossyHistory ⟨0, [], []⟩
  have htwelve := wait_samples { timeoutMillis := 1000, stepMillis := 300 } ⟨"ns", "pod"⟩ "12"
    lossyHistory ⟨0, [], []⟩
  refine ⟨(hten.2.1 2 ⟨"11", rfl, isObserved_iff.1 hlate⟩ fun k hk => ?_).2,
    htwelve.2.2 fun k ⟨cached, hcached, hreaches⟩ =>
      hnever (lossyHistory_reaches hcached hreaches)⟩
  rintro ⟨cached, hcached, hreaches⟩
  obtain rfl | rfl : k = 0 ∨ k = 1 := by omega
  · cases hcached
    exact absurd (isObserved_iff.2 hreaches) (by simp [hearly])
  · cases hcached

end PodSizing.CacheSync
