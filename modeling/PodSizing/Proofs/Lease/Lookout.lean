import PodSizing.Proofs.Lease

/-!
# What ends a wait

A replica that waits deals with the board in single steps, between which claims may be made, the board may be
closed and time may pass: it looks at the newest claim and marks it as seen, and then waits until it is told
either that there is a claim it has not seen or, if there is none, that the board is closed. So it may miss
claims, but never the last one, and it ends at the first claim it looks at that decides.
-/
namespace PodSizing.Lease
open Time (Instant)

def Wait.read (now : Instant) (b : Board) (w : Wait) : Wait :=
  { w with
    seen := some b.changes
    phase := w.afterClaim (b.newest.isCurrentFor w.hostname now) }

theorem Wait.look_eq_read {w : Wait} {now : Instant} {b : Board} (h : w.seen ≠ some b.changes) :
    w.look now b = w.read now b := if_neg h

theorem Wait.verdict?_eq_some_iff {w : Wait} {v : Verdict} : w.verdict? = some v ↔ w.phase = .over v := by
  unfold verdict?
  cases w.phase <;> simp

theorem Wait.message?_iff {w : Wait} : w.verdict?.bind Verdict.message? = some "lease manager stopped" ↔
    w.verdict? = some .stopped := by
  rcases w.verdict? with _ | _ | _ <;> simp [Verdict.message?]

/-- A turn is a look at a claim that has not been seen, and the end if there is none to wait for. -/
theorem Wait.poll_eq {w : Wait} {now : Instant} {b : Board} (h : w.verdict? = none) :
    w.poll now b =
      if (w.look now b).verdict? = none ∧ b.isOpen = false then
        { w.look now b with phase := .over .stopped }
      else w.look now b := by
  unfold poll
  split
  · next v hphase => simp [verdict?, hphase] at h
  · cases hlook : (w.look now b).phase <;> cases b.isOpen <;> simp [verdict?, hlook]

/-- A replica that waits, and what it waits for. -/
structure Lookout where
  now : Instant
  board : Board
  wait : Wait
  /-- Whether it has looked, and waits to be told of another claim. -/
  isAwaiting : Bool := false

namespace Lookout
variable {s s' : Lookout}

def start (w : Wait) (seen : Option Nat) (c : Claim) (now : Instant) : Lookout :=
  { now, board := { newest := c }, wait := { w with seen } }

inductive Deed where
  | post (c : Claim)
  | close
  | advance (millis : Nat)
  | look
  /-- It is told that there is a claim which it has not seen. -/
  | notice
  /-- It is told that there will be no claim any more. -/
  | giveUp
  deriving DecidableEq

def Deed.isOwn : Deed → Bool
  | .look | .notice | .giveUp => true
  | .post _ | .close | .advance _ => false

def look (s : Lookout) : Lookout := { s with wait := s.wait.read s.now s.board, isAwaiting := true }

def notice (s : Lookout) : Lookout :=
  { s with wait := { s.wait with seen := some s.board.changes }, isAwaiting := false }

def giveUp (s : Lookout) : Lookout := { s with wait := { s.wait with phase := .over .stopped } }

inductive Step : Lookout → Deed → Lookout → Prop where
  | post {s : Lookout} (isOpen : s.board.isOpen = true) (c : Claim) :
    Step s (.post c) { s with board := s.board.post c }
  | close (s : Lookout) : Step s .close { s with board := s.board.close }
  | advance (s : Lookout) (millis : Nat) :
    Step s (.advance millis) { s with now := ⟨s.now.unixMillis + millis⟩ }
  | look {s : Lookout} (waits : s.wait.verdict? = none) (isReady : s.isAwaiting = false) :
    Step s .look s.look
  | notice {s : Lookout} (waits : s.wait.verdict? = none) (isAwaiting : s.isAwaiting = true)
      (isUnseen : s.wait.seen ≠ some s.board.changes) : Step s .notice s.notice
  | giveUp {s : Lookout} (waits : s.wait.verdict? = none) (isAwaiting : s.isAwaiting = true)
      (isSeen : s.wait.seen = some s.board.changes) (isClosed : s.board.isOpen = false) :
    Step s .giveUp s.giveUp

def Blocked (s : Lookout) : Prop := ∀ d s', d.isOwn = true → ¬ Step s d s'

theorem blocked_iff : s.Blocked ↔ s.wait.verdict? ≠ none ∨
    s.isAwaiting = true ∧ s.wait.seen = some s.board.changes ∧ s.board.isOpen = true := by
  constructor
  · intro h
    by_cases hwaits : s.wait.verdict? = none
    · right
      cases hawaiting : s.isAwaiting with
      | false => exact absurd (Step.look hwaits hawaiting) (h _ _ rfl)
      | true =>
        by_cases hseen : s.wait.seen = some s.board.changes
        · cases hopen : s.board.isOpen with
          | false => exact absurd (Step.giveUp hwaits hawaiting hseen hopen) (h _ _ rfl)
          | true => exact ⟨rfl, hseen, rfl⟩
        · exact absurd (Step.notice hwaits hawaiting hseen) (h _ _ rfl)
    · exact .inl hwaits
  · rintro h d s' hown hstep
    cases hstep with
    | post | close | advance => cases hown
    | look hwaits hready =>
      rcases h with h | ⟨hawaiting, -⟩
      · exact h hwaits
      · rw [hready] at hawaiting
        cases hawaiting
    | notice hwaits _ hunseen =>
      rcases h with h | ⟨-, hseen, -⟩
      · exact h hwaits
      · exact hunseen hseen
    | giveUp hwaits _ _ hclosed =>
      rcases h with h | ⟨-, -, hopen⟩
      · exact h hwaits
      · rw [hclosed] at hopen
        cases hopen

def reading? (hostname : String) (m : Occurrence Lookout Deed) : Option Bool :=
  match m.deed with
  | .look => some (m.state.board.newest.isCurrentFor hostname m.state.now)
  | _ => none

def readings (hostname : String) (log : List (Occurrence Lookout Deed)) : List Bool :=
  log.filterMap (reading? hostname)

/-- The last look is the first that finds a claim that is current. -/
def Acquires (found : List Bool) : Prop := ∃ before, found = before ++ [true] ∧ true ∉ before

/-- The last look is the first to find a claim that is not current, after one that was. -/
def Loses (found : List Bool) : Prop :=
  ∃ before held, found = before ++ true :: held ++ [false] ∧ true ∉ before ∧ false ∉ held

theorem Loses.mem {found : List Bool} (h : Loses found) : false ∈ found := by
  obtain ⟨before, held, rfl, -⟩ := h
  simp

def Decides : Bool → List Bool → Prop
  | false => Acquires
  | true => Loses

/-- How far a wait has come by what it has found. -/
inductive Course : Bool → List Bool → Phase → Prop where
  | seeking {untilLost : Bool} {found : List Bool} (h : true ∉ found) : Course untilLost found .seeking
  | holding {before held : List Bool} (hbefore : true ∉ before) (hheld : false ∉ held) :
    Course true (before ++ true :: held) .holding
  | decided {untilLost : Bool} {found : List Bool} (h : Decides untilLost found) :
    Course untilLost found (.over .ok)

theorem dropWhile_not {before : List Bool} (h : true ∉ before) (rest : List Bool) :
    (before ++ true :: rest).dropWhile not = true :: rest := by
  have hbefore : ∀ b ∈ before, (!b) = true := by
    intro b hb
    cases b with
    | false => rfl
    | true => exact absurd hb h
  rw [List.dropWhile_append_of_pos hbefore]
  rfl

theorem Course.over_iff {untilLost : Bool} {found : List Bool} {phase : Phase}
    (h : Course untilLost found phase) : phase = .over .ok ↔ Decides untilLost found := by
  cases h with
  | decided h => exact iff_of_true rfl h
  | seeking h =>
    refine iff_of_false (by simp) fun hdecides => h ?_
    cases untilLost with
    | false =>
      obtain ⟨before, rfl, -⟩ := hdecides
      simp
    | true =>
      obtain ⟨before, held, rfl, -⟩ := hdecides
      simp
  | @holding before held hbefore hheld =>
    refine iff_of_false (by simp) ?_
    rintro ⟨before', held', hfound, hbefore', -⟩
    -- Behind the first claim that was current there is none in the one list that was not.
    have hrest := congrArg (List.dropWhile not) hfound
    rw [List.append_assoc, List.cons_append, dropWhile_not hbefore, dropWhile_not hbefore'] at hrest
    rw [(List.cons.inj hrest).2] at hheld
    simp at hheld

theorem Course.decides {untilLost : Bool} {found : List Bool} {phase : Phase} {v : Verdict}
    (h : Course untilLost found phase) (hover : phase = .over v) : Decides untilLost found := by
  cases h with
  | decided h => exact h
  | seeking | holding => cases hover

/-- What one more look makes of a wait. -/
theorem Course.look {w : Wait} {found : List Bool} (h : Course w.untilLost found w.phase)
    (hwaits : w.verdict? = none) (isCurrent : Bool) :
    Course w.untilLost (found ++ [isCurrent]) (w.afterClaim isCurrent) := by
  unfold Wait.verdict? at hwaits
  unfold Wait.afterClaim
  generalize w.untilLost = untilLost at h ⊢
  generalize w.phase = phase at h hwaits ⊢
  cases h with
  | decided => cases hwaits
  | seeking h =>
    cases isCurrent with
    | false => exact .seeking (by simpa using h)
    | true =>
      cases untilLost with
      | false => exact .decided ⟨found, rfl, h⟩
      | true => exact .holding h (by simp)
  | @holding before held hbefore hheld =>
    cases isCurrent with
    | false => exact .decided ⟨before, held, rfl, hbefore, hheld⟩
    | true =>
      rw [List.append_assoc, List.cons_append]
      exact .holding hbefore (by simpa using hheld)

/-- The claim that was looked at last is the one marked as seen; it is the newest one if no other has been
made. -/
def HasLooked (log : List (Occurrence Lookout Deed)) (s : Lookout) : Prop :=
  ∃ m ∈ log, m.deed = .look ∧ s.wait.seen = some m.state.board.changes ∧
    m.state.board.changes ≤ s.board.changes ∧
    (m.state.board.changes = s.board.changes → m.state.board.newest = s.board.newest)

/-- What holds of a wait at any point, with all that has been done before. -/
structure Follows (hostname : String) (untilLost : Bool) (log : List (Occurrence Lookout Deed))
    (s : Lookout) : Prop where
  name : s.wait.hostname = hostname
  aim : s.wait.untilLost = untilLost
  looked : s.isAwaiting = true → HasLooked log s
  /-- One that has given up had come only so far, and has seen the last claim. -/
  course : Course untilLost (readings hostname log) s.wait.phase ∨
    s.wait.phase = .over .stopped ∧ ¬ Decides untilLost (readings hostname log) ∧
      s.isAwaiting = true ∧ s.wait.seen = some s.board.changes ∧ s.board.isOpen = false

variable {hostname : String} {untilLost : Bool} {log : List (Occurrence Lookout Deed)} {d : Deed}

theorem readings_look (log : List (Occurrence Lookout Deed)) (s : Lookout) :
    readings hostname (log ++ [⟨s, .look⟩]) =
      readings hostname log ++ [s.board.newest.isCurrentFor hostname s.now] := by
  simp [readings, reading?]

theorem readings_other (log : List (Occurrence Lookout Deed)) (s : Lookout) (h : d ≠ .look) :
    readings hostname (log ++ [⟨s, d⟩]) = readings hostname log := by
  cases d with
  | look => exact absurd rfl h
  | post | close | advance | notice | giveUp => simp [readings, reading?]

theorem HasLooked.concat (h : HasLooked log s) (hseen : s'.wait.seen = s.wait.seen)
    (hchanges : s.board.changes ≤ s'.board.changes)
    (hnewest : s.board.changes = s'.board.changes → s.board.newest = s'.board.newest)
    (m : Occurrence Lookout Deed) : HasLooked (log ++ [m]) s' := by
  obtain ⟨n, hn, hlook, hmarked, hle, hsame⟩ := h
  refine ⟨n, List.mem_append_left _ hn, hlook, hseen.trans hmarked, Nat.le_trans hle hchanges,
    fun heq => ?_⟩
  have hkept : s.board.changes = s'.board.changes := by omega
  exact (hsame (by omega)).trans (hnewest hkept)

theorem Follows.course_of_waits (h : Follows hostname untilLost log s)
    (hwaits : s.wait.verdict? = none) :
    Course untilLost (readings hostname log) s.wait.phase ∧ s.wait.phase ≠ .over .ok := by
  unfold Wait.verdict? at hwaits
  refine ⟨?_, fun hover => ?_⟩
  · rcases h.course with hcourse | ⟨hstopped, -⟩
    · exact hcourse
    · rw [hstopped] at hwaits
      cases hwaits
  · rw [hover] at hwaits
    cases hwaits

theorem Follows.quiet (h : Follows hostname untilLost log s) (hown : d.isOwn = false)
    (hwait : s'.wait = s.wait) (hawaiting : s'.isAwaiting = s.isAwaiting)
    (hchanges : s.board.changes ≤ s'.board.changes)
    (hnewest : s.board.changes = s'.board.changes → s.board.newest = s'.board.newest)
    (hclosed : s.board.isOpen = false →
      s'.board.changes = s.board.changes ∧ s'.board.isOpen = false) :
    Follows hostname untilLost (log ++ [⟨s, d⟩]) s' := by
  have hreadings : readings hostname (log ++ [⟨s, d⟩]) = readings hostname log := by
    refine readings_other log s ?_
    rintro rfl
    cases hown
  refine ⟨hwait ▸ h.name, hwait ▸ h.aim, fun hlooked => ?_, ?_⟩
  · exact (h.looked (hawaiting ▸ hlooked)).concat (by rw [hwait]) hchanges hnewest _
  · rw [hreadings, hwait, hawaiting]
    refine h.course.imp id ?_
    rintro ⟨hstopped, hcourse, hlooked, hseen, hover⟩
    obtain ⟨hkept, hover'⟩ := hclosed hover
    exact ⟨hstopped, hcourse, hlooked, hkept ▸ hseen, hover'⟩

theorem Follows.step (h : Follows hostname untilLost log s) (hstep : Step s d s') :
    Follows hostname untilLost (log ++ [⟨s, d⟩]) s' := by
  cases hstep with
  | post hopen c =>
    refine h.quiet rfl rfl rfl (Nat.le_succ _) (fun heq => ?_) (fun hclosed => ?_)
    · exact absurd heq (Nat.ne_of_lt (Nat.lt_succ_self _))
    · rw [hopen] at hclosed
      cases hclosed
  | close => exact h.quiet rfl rfl rfl (Nat.le_refl _) (fun _ => rfl) (fun _ => ⟨rfl, rfl⟩)
  | advance millis =>
    exact h.quiet rfl rfl rfl (Nat.le_refl _) (fun _ => rfl) (fun hclosed => ⟨rfl, hclosed⟩)
  | look hwaits hready =>
    obtain ⟨hcourse, -⟩ := h.course_of_waits hwaits
    refine ⟨h.name, h.aim, fun _ => ?_, .inl ?_⟩
    · exact ⟨⟨s, .look⟩, by simp, rfl, rfl, Nat.le_refl _, fun _ => rfl⟩
    · obtain ⟨rfl, rfl, -, -⟩ := h
      rw [readings_look]
      exact hcourse.look hwaits _
  | notice hwaits =>
    obtain ⟨hcourse, -⟩ := h.course_of_waits hwaits
    refine ⟨h.name, h.aim, fun hawaiting => ?_, .inl ?_⟩
    · cases hawaiting
    · rwa [readings_other log s (by simp)]
  | giveUp hwaits hawaiting hseen hclosed =>
    obtain ⟨hcourse, hgoing⟩ := h.course_of_waits hwaits
    refine ⟨h.name, h.aim, fun _ => ?_, .inr ⟨rfl, ?_, hawaiting, hseen, hclosed⟩⟩
    · exact (h.looked hawaiting).concat rfl (Nat.le_refl _) (fun _ => rfl) _
    · rw [readings_other log s (by simp)]
      exact fun hdecides => hgoing (hcourse.over_iff.2 hdecides)

theorem follows_of_trace {w : Wait} {seen : Option Nat} {c : Claim} {now : Instant}
    (hphase : w.phase = .seeking) (h : Trace Step (start w seen c now) log s) :
    Follows w.hostname w.untilLost log s := by
  induction h with
  | start =>
    refine ⟨rfl, rfl, fun hawaiting => ?_, .inl ?_⟩
    · cases hawaiting
    · have hstart : (start w seen c now).wait.phase = .seeking := hphase
      rw [hstart]
      exact .seeking (by simp [readings])
  | step _ hstep ih => exact ih.step hstep

/-- What a wait comes to, at any point: it is over at the look that decides, and is given up just if it gets
no further, the board is closed, and no look has decided, not even one at the last claim. -/
structure Reacts (decides : List Bool → Prop) (hostname : String)
    (log : List (Occurrence Lookout Deed)) (s : Lookout) : Prop where
  ok : s.wait.verdict? = some .ok ↔ decides (readings hostname log)
  stopped : s.wait.verdict?.bind Verdict.message? = some "lease manager stopped" ↔
    s.Blocked ∧ s.board.isOpen = false ∧ ¬ decides (readings hostname log)
  newest : s.Blocked → ¬ decides (readings hostname log) → ∃ m ∈ log, m.deed = .look ∧
    m.state.board.changes = s.board.changes ∧ m.state.board.newest = s.board.newest

theorem Follows.ok_iff (h : Follows hostname untilLost log s) :
    s.wait.verdict? = some .ok ↔ Decides untilLost (readings hostname log) := by
  rw [Wait.verdict?_eq_some_iff]
  rcases h.course with hcourse | ⟨hstopped, hcourse, -⟩
  · exact hcourse.over_iff
  · rw [hstopped]
    exact iff_of_false (by simp) hcourse

theorem Follows.ended (h : Follows hostname untilLost log s) (hover : s.wait.verdict? ≠ none)
    (hgoing : ¬ Decides untilLost (readings hostname log)) :
    s.wait.verdict? = some .stopped ∧ s.isAwaiting = true ∧ s.wait.seen = some s.board.changes ∧
      s.board.isOpen = false := by
  rcases h.course with hcourse | ⟨hstopped, -, hlooked⟩
  · obtain ⟨v, hv⟩ := Option.ne_none_iff_exists'.1 hover
    exact absurd (hcourse.decides (Wait.verdict?_eq_some_iff.1 hv)) hgoing
  · exact ⟨Wait.verdict?_eq_some_iff.2 hstopped, hlooked⟩

theorem Follows.reacts (h : Follows hostname untilLost log s) :
    Reacts (Decides untilLost) hostname log s := by
  refine ⟨h.ok_iff, Wait.message?_iff.trans ⟨fun hstopped => ?_, ?_⟩, fun hblocked hgoing => ?_⟩
  · have hover : s.wait.verdict? ≠ none := by simp [hstopped]
    have hgoing : ¬ Decides untilLost (readings hostname log) := by
      rw [← h.ok_iff, hstopped]
      simp
    exact ⟨blocked_iff.2 (.inl hover), (h.ended hover hgoing).2.2.2, hgoing⟩
  · rintro ⟨hblocked, hclosed, hgoing⟩
    rcases blocked_iff.1 hblocked with hover | ⟨-, -, hopen⟩
    · exact (h.ended hover hgoing).1
    · rw [hopen] at hclosed
      cases hclosed
  · obtain ⟨hawaiting, hseen⟩ : s.isAwaiting = true ∧ s.wait.seen = some s.board.changes := by
      rcases blocked_iff.1 hblocked with hover | ⟨hawaiting, hseen, -⟩
      · obtain ⟨-, hawaiting, hseen, -⟩ := h.ended hover hgoing
        exact ⟨hawaiting, hseen⟩
      · exact ⟨hawaiting, hseen⟩
    obtain ⟨m, hm, hlook, hmarked, -, hnewest⟩ := h.looked hawaiting
    have hchanges : m.state.board.changes = s.board.changes :=
      Option.some.inj (hmarked.symm.trans hseen)
    exact ⟨m, hm, hlook, hchanges, hnewest hchanges⟩

/-- Before its first look, or waiting to be told of another claim. -/
def AtRest (s : Lookout) : Prop := s.isAwaiting = true ∨ s.wait.phase = .seeking ∧ s.wait.seen = none

def polled (s : Lookout) : Lookout := { s with wait := s.wait.poll s.now s.board, isAwaiting := true }

/-- The replica gets there by itself, and then no further. -/
def Settles (s s' : Lookout) : Prop :=
  s'.Blocked ∧ ∃ own, Trace Step s own s' ∧ own.length ≤ 3 ∧ ∀ m ∈ own, m.deed.isOwn = true

def concluded (s : Lookout) : Lookout :=
  if s.wait.verdict? = none ∧ s.board.isOpen = false then s.giveUp else s

theorem concluded_blocked (hawaiting : s.isAwaiting = true)
    (hseen : s.wait.seen = some s.board.changes) : s.concluded.Blocked := by
  rw [blocked_iff, concluded]
  split
  · exact .inl (by simp [giveUp, Wait.verdict?])
  · next hopen =>
    by_cases hwaits : s.wait.verdict? = none
    · exact .inr ⟨hawaiting, hseen, by simpa using not_and.1 hopen hwaits⟩
    · exact .inl hwaits

theorem settles_concluded {before : List (Occurrence Lookout Deed)} {t : Lookout}
    (h : Trace Step s before t) (hlength : before.length ≤ 2)
    (hown : ∀ m ∈ before, m.deed.isOwn = true) (hawaiting : t.isAwaiting = true)
    (hseen : t.wait.seen = some t.board.changes) : s.Settles t.concluded := by
  refine ⟨concluded_blocked hawaiting hseen, ?_⟩
  unfold concluded
  split
  · next hend =>
    refine ⟨_, h.step (.giveUp hend.1 hawaiting hseen hend.2), by simp; omega, fun m hm => ?_⟩
    rcases List.mem_append.1 hm with hm | hm
    · exact hown m hm
    · rw [List.mem_singleton.1 hm]
      rfl
  · exact ⟨before, h, by omega, hown⟩

theorem polled_eq (hwaits : s.wait.verdict? = none) :
    s.polled = concluded { s with wait := s.wait.look s.now s.board, isAwaiting := true } := by
  unfold polled concluded
  rw [Wait.poll_eq hwaits]
  split <;> rfl

/-- A turn takes a replica as far as it gets by itself. -/
theorem settles_polled (h : s.AtRest) : s.Settles s.polled := by
  by_cases hwaits : s.wait.verdict? = none
  · rw [polled_eq hwaits]
    by_cases hseen : s.wait.seen = some s.board.changes
    · have hawaiting : s.isAwaiting = true := by
        rcases h with hawaiting | ⟨-, hnone⟩
        · exact hawaiting
        · rw [hnone] at hseen
          cases hseen
      have hsame : { s with wait := s.wait.look s.now s.board, isAwaiting := true } = s := by
        rw [Wait.look, if_pos hseen, ← hawaiting]
      rw [hsame]
      exact settles_concluded .start (by simp) (by simp) hawaiting hseen
    · rw [Wait.look_eq_read hseen]
      cases hawaiting : s.isAwaiting with
      | true =>
        have hlook : Trace Step s _ s.notice.look :=
          (Trace.single (.notice hwaits hawaiting hseen)).step (.look hwaits rfl)
        exact settles_concluded hlook (by simp) (by simp [Deed.isOwn]) rfl rfl
      | false =>
        have hlook : Trace Step s _ s.look := .single (.look hwaits hawaiting)
        exact settles_concluded hlook (by simp) (by simp [Deed.isOwn]) rfl rfl
  · have hawaiting : s.isAwaiting = true := by
      rcases h with hawaiting | ⟨hseeking, -⟩
      · exact hawaiting
      · exact absurd (by simp [Wait.verdict?, hseeking]) hwaits
    have hsame : s.polled = s := by
      obtain ⟨v, hv⟩ := Option.ne_none_iff_exists'.1 hwaits
      simp [polled, Wait.poll, Wait.verdict?_eq_some_iff.1 hv, ← hawaiting]
    rw [hsame]
    exact ⟨blocked_iff.2 (.inl hwaits), [], .start, by simp, by simp⟩

/-- From anywhere in its loop a replica gets to where it waits or is done. -/
theorem exists_settles (s : Lookout) : ∃ s', s.Settles s' := by
  by_cases hwaits : s.wait.verdict? = none
  · cases hawaiting : s.isAwaiting with
    | true => exact ⟨_, settles_polled (.inl hawaiting)⟩
    | false =>
      have hlook : Trace Step s _ s.look := .single (.look hwaits hawaiting)
      exact ⟨_, settles_concluded hlook (by simp) (by simp [Deed.isOwn]) rfl rfl⟩
  · exact ⟨s, blocked_iff.2 (.inl hwaits), [], .start, by simp, by simp⟩

/-- A wait for the lease is over at the first look that finds it held, and a wait for its loss at the first
look after that which finds it no longer held. Either is given up just when the board has been closed and no
look, the one at the last claim included, has decided. A turn at any time lets the replica get that far. -/
theorem waits_react (hostname : String) (seen : Option Nat) (c : Claim) (now : Instant) :
    (∀ log s, Trace Step (start (.acquired hostname) seen c now) log s →
      Reacts Acquires hostname log s) ∧
    (∀ log s, Trace Step (start (.lost hostname) seen c now) log s →
      Reacts Loses hostname log s) ∧
    ∀ s : Lookout, (∃ s', s.Settles s') ∧ (s.AtRest → s.Settles s.polled) :=
  ⟨fun _ _ h => (follows_of_trace rfl h).reacts, fun _ _ h => (follows_of_trace rfl h).reacts,
    fun s => ⟨s.exists_settles, settles_polled⟩⟩

def seeker : Lookout := start (.acquired "me") none ⟨"other", ⟨20⟩⟩ ⟨0⟩

def keeper : Lookout := start (.lost "me") (some 0) ⟨"me", ⟨20⟩⟩ ⟨0⟩

/-- The one finds the claim that is made last before the board is closed, over another; the other has nothing
to find that would end its wait. -/
theorem lastClaims_react :
    (∃ log s, Trace Step seeker log s ∧ s.board.isOpen = false ∧ readings "me" log = [false, true] ∧
      s.wait.verdict? = some .ok) ∧
    (∃ log s, Trace Step keeper log s ∧ s.board.isOpen = false ∧ readings "me" log = [true, true] ∧
      s.wait.verdict?.bind Verdict.message? = some "lease manager stopped") ∧
    seeker.Settles seeker.polled := by
  refine ⟨?_, ?_, ?_⟩
  · have hlooked : Trace Step seeker _ seeker.look := .single (.look rfl rfl)
    have hposted := (hlooked.step (.post rfl ⟨"other", ⟨30⟩⟩)).step (.post rfl ⟨"me", ⟨30⟩⟩)
    have hrun := ((hposted.step (.close _)).step (.notice rfl rfl (by decide))).step (.look rfl rfl)
    have hreacts := (waits_react "me" none ⟨"other", ⟨20⟩⟩ ⟨0⟩).1 _ _ hrun
    exact ⟨_, _, hrun, rfl, by decide, hreacts.ok.2 ⟨[false], by decide, by simp⟩⟩
  · have hlooked : Trace Step keeper _ keeper.look := .single (.look rfl rfl)
    have hposted := (hlooked.step (.post rfl ⟨"me", ⟨30⟩⟩)).step (.close _)
    have hnoticed := (hposted.step (.notice rfl rfl (by decide))).step (.look rfl rfl)
    have hrun := hnoticed.step (.giveUp rfl rfl rfl rfl)
    have hreacts := (waits_react "me" (some 0) ⟨"me", ⟨20⟩⟩ ⟨0⟩).2.1 _ _ hrun
    refine ⟨_, _, hrun, rfl, by decide, hreacts.stopped.2 ⟨?_, rfl, fun hlost => ?_⟩⟩
    · exact blocked_iff.2 (.inl (by decide))
    · exact absurd hlost.mem (by decide)
  · exact ((waits_react "me" none ⟨"other", ⟨20⟩⟩ ⟨0⟩).2.2 seeker).2 (.inr ⟨rfl, rfl⟩)

end Lookout
end PodSizing.Lease
