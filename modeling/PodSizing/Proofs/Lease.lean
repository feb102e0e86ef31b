import Mathlib.Logic.Function.Basic
import PodSizing.Lease
import PodSizing.Proofs.Trace

/-!
# Who leads

Replicas look at the claims on one board, each when its turn comes, while further claims are made and time
passes. A replica that has seen that it holds the lease leads until it sees a claim that does not say so. It
looks again only when a claim has been made: so whoever leads holds the newest claim, and nobody else leads,
but that the claim runs out goes unnoticed.
-/
namespace PodSizing.Lease
open Time (Instant)

theorem Claim.isCurrentFor_iff {c : Claim} {hostname : String} {now : Instant} :
    c.isCurrentFor hostname now = true ↔
      c.holder = hostname ∧ now.unixMillis < c.expiry.unixMillis := by
  simp [isCurrentFor]

namespace Wait
variable {w : Wait} {now : Instant} {b : Board}

@[simp] theorem hostname_look (now : Instant) (b : Board) (w : Wait) :
    (w.look now b).hostname = w.hostname := by
  unfold look
  split <;> rfl

@[simp] theorem hostname_poll (now : Instant) (b : Board) (w : Wait) :
    (w.poll now b).hostname = w.hostname := by
  unfold poll
  split
  · rfl
  · dsimp only
    split
    · exact w.hostname_look now b
    · split <;> exact w.hostname_look now b

theorem afterClaim_eq_holding {isCurrent : Bool} (h : w.afterClaim isCurrent = .holding) :
    isCurrent = true := by
  unfold afterClaim at h
  cases hphase : w.phase <;> cases isCurrent <;> simp_all

theorem poll_eq_look (h : (w.poll now b).phase = .holding) : w.poll now b = w.look now b := by
  unfold poll at h ⊢
  split at h
  · next v hover =>
    rw [hover] at h
    cases h
  · dsimp only at h ⊢
    split at h
    · rfl
    · by_cases hopen : b.isOpen = true
      · rw [if_pos hopen]
      · rw [if_neg hopen] at h
        cases h

/-- Where the lease is still held after a look, the newest claim was current, or had been looked at before. -/
theorem look_holding (h : (w.look now b).phase = .holding) :
    (w.look now b).seen = some b.changes ∧
      (b.newest.isCurrentFor w.hostname now = true ∨
        w.phase = .holding ∧ w.seen = some b.changes) := by
  unfold look at h ⊢
  split
  · next hseen =>
    rw [if_pos hseen] at h
    exact ⟨hseen, .inr ⟨h, hseen⟩⟩
  · next hseen =>
    rw [if_neg hseen] at h
    exact ⟨rfl, .inl (afterClaim_eq_holding h)⟩

theorem poll_of_seen (hphase : w.phase = .holding) (hseen : w.seen = some b.changes)
    (hopen : b.isOpen = true) : w.poll now b = w := by
  simp [poll, look, hphase, hseen, hopen]

end Wait

/-- The claims, the clock, and what each replica waits for. -/
structure World (ι : Type) where
  now : Instant
  board : Board
  waits : ι → Wait

inductive Deed (ι : Type) where
  | post (c : Claim)
  /-- No claims will be made any more. -/
  | close
  | advance (millis : Nat)
  /-- It is a replica's turn. -/
  | poll (i : ι)

def Deed.isQuiet {ι : Type} : Deed ι → Bool
  | .advance _ | .poll _ => true
  | .post _ | .close => false

namespace World
variable {ι : Type} {v w w' : World ι} {d : Deed ι} {i : ι}
  {log later : List (Occurrence (World ι) (Deed ι))}

def start (waits : ι → Wait) (c : Claim) (now : Instant) : World ι :=
  { now, board := { newest := c }, waits }

/-- A replica takes itself for the leader, and has looked at every claim that has been made. -/
def Leads (w : World ι) (i : ι) : Prop :=
  (w.waits i).phase = .holding ∧ (w.waits i).seen = some w.board.changes

instance (w : World ι) (i : ι) : Decidable (w.Leads i) :=
  inferInstanceAs (Decidable ((w.waits i).phase = .holding ∧ (w.waits i).seen = some w.board.changes))

def post (w : World ι) (c : Claim) : World ι := { w with board := w.board.post c }

def advance (w : World ι) (millis : Nat) : World ι :=
  { w with now := ⟨w.now.unixMillis + millis⟩ }

structure Before (v w : World ι) : Prop where
  now : v.now.unixMillis ≤ w.now.unixMillis
  changes : v.board.changes ≤ w.board.changes
  newest : v.board.changes = w.board.changes → v.board.newest = w.board.newest
  hostname : ∀ i, (w.waits i).hostname = (v.waits i).hostname

theorem Before.refl (w : World ι) : Before w w :=
  ⟨Int.le_refl _, Nat.le_refl _, fun _ => rfl, fun _ => rfl⟩

theorem Before.trans {u : World ι} (h : Before u v) (k : Before v w) : Before u w where
  now := Int.le_trans h.now k.now
  changes := Nat.le_trans h.changes k.changes
  newest heq := by
    have hle := h.changes
    have hle' := k.changes
    rw [h.newest (by omega), k.newest (by omega)]
  hostname i := (k.hostname i).trans (h.hostname i)

def HasSeen (log : List (Occurrence (World ι) (Deed ι))) (w : World ι) (i : ι) : Prop :=
  (w.waits i).phase = .holding → ∃ m ∈ log, m.deed = .poll i ∧
    (w.waits i).seen = some m.state.board.changes ∧
    m.state.board.newest.isCurrentFor (w.waits i).hostname m.state.now = true

theorem HasSeen.mono (h : HasSeen log w i) (hwait : w'.waits i = w.waits i)
    (later : List (Occurrence (World ι) (Deed ι))) : HasSeen (log ++ later) w' i := by
  intro hphase
  rw [hwait] at hphase ⊢
  obtain ⟨m, hm, hpoll⟩ := h hphase
  exact ⟨m, List.mem_append_left later hm, hpoll⟩

variable [DecidableEq ι]

def poll (w : World ι) (i : ι) : World ι :=
  { w with waits := Function.update w.waits i ((w.waits i).poll w.now w.board) }

inductive Step : World ι → Deed ι → World ι → Prop where
  | post {w : World ι} (isOpen : w.board.isOpen = true) (c : Claim) : Step w (.post c) (w.post c)
  | close (w : World ι) : Step w .close { w with board := w.board.close }
  | advance (w : World ι) (millis : Nat) : Step w (.advance millis) (w.advance millis)
  | poll (w : World ι) (i : ι) : Step w (.poll i) (w.poll i)

theorem Step.before (h : Step w d w') : Before w w' := by
  cases h with
  | post isOpen c =>
    exact ⟨Int.le_refl _, Nat.le_succ _, fun heq => absurd heq (Nat.ne_of_lt (Nat.lt_succ_self _)),
      fun _ => rfl⟩
  | close => exact ⟨Int.le_refl _, Nat.le_refl _, fun _ => rfl, fun _ => rfl⟩
  | advance millis =>
    have hnow : w.now.unixMillis ≤ w.now.unixMillis + millis := by omega
    exact ⟨hnow, Nat.le_refl _, fun _ => rfl, fun _ => rfl⟩
  | poll i =>
    refine ⟨Int.le_refl _, Nat.le_refl _, fun _ => rfl, fun j => ?_⟩
    by_cases hj : j = i
    · subst hj
      simp [World.poll]
    · simp [World.poll, hj]

theorem before_of_trace (h : Trace Step v log w) : Before v w ∧ ∀ m ∈ log, Before m.state w := by
  induction h with
  | start => exact ⟨.refl v, by simp⟩
  | @step log w w' d hrun hstep ih =>
    obtain ⟨hstart, hlog⟩ := ih
    refine ⟨hstart.trans hstep.before, fun m hm => ?_⟩
    rcases List.mem_append.1 hm with hm | hm
    · exact (hlog m hm).trans hstep.before
    · rw [List.mem_singleton.1 hm]
      exact hstep.before

theorem HasSeen.poll (h : HasSeen log w i) : HasSeen (log ++ [⟨w, .poll i⟩]) (w.poll i) i := by
  intro hphase
  have hwait : (w.poll i).waits i = (w.waits i).poll w.now w.board := by simp [World.poll]
  rw [hwait] at hphase ⊢
  have hlook := Wait.poll_eq_look hphase
  rw [hlook] at hphase ⊢
  obtain ⟨hseen, hcurrent | ⟨hheld, hbefore⟩⟩ := Wait.look_holding hphase
  -- Either this turn has found the claim current, or the claim is the one of an earlier turn.
  · refine ⟨⟨w, .poll i⟩, by simp, rfl, hseen, ?_⟩
    rwa [Wait.hostname_look]
  · obtain ⟨m, hm, hpoll, hsame, hcurrent⟩ := h hheld
    refine ⟨m, List.mem_append_left _ hm, hpoll, ?_, ?_⟩
    · rw [hseen, ← hbefore, hsame]
    · rwa [Wait.hostname_look]

/-- One deed more leaves a replica with what it has seen; only its own turn has it see something new. -/
theorem HasSeen.step (h : HasSeen log w i) (hstep : Step w d w') :
    HasSeen (log ++ [⟨w, d⟩]) w' i := by
  cases hstep with
  | post | close | advance => exact h.mono rfl _
  | poll j =>
    by_cases hj : i = j
    · subst hj
      exact h.poll
    · exact h.mono (by simp [World.poll, hj]) _

theorem hasSeen_of_trace (h : Trace Step v log w) (hstart : HasSeen [] v i) : HasSeen log w i := by
  induction h with
  | start => exact hstart
  | step _ hstep ih => exact ih.step hstep

theorem Step.quiet (h : Step w d w') (hquiet : d.isQuiet = true) : w'.board = w.board := by
  cases h with
  | post | close => cases hquiet
  | advance | poll => rfl

theorem Step.leads (h : Step w d w') (hquiet : d.isQuiet = true) (hopen : w.board.isOpen = true)
    (hi : w.Leads i) : w'.Leads i := by
  cases h with
  | post | close => cases hquiet
  | advance => exact hi
  | poll j =>
    by_cases hj : i = j
    · subst hj
      have hwait : (w.poll i).waits i = w.waits i := by
        simp [World.poll, Wait.poll_of_seen hi.1 hi.2 hopen]
      exact ⟨by rw [hwait, hi.1], by rw [hwait, hi.2]; rfl⟩
    · have hwait : (w.poll j).waits i = w.waits i := by simp [World.poll, hj]
      exact ⟨by rw [hwait, hi.1], by rw [hwait, hi.2]; rfl⟩

/-- However much time passes, a leader that sees no other claim goes on leading. -/
theorem leads_of_quiet (h : Trace Step w later w') (hquiet : ∀ m ∈ later, m.deed.isQuiet = true)
    (hopen : w.board.isOpen = true) (hi : w.Leads i) : w'.Leads i ∧ w'.board = w.board := by
  induction h with
  | start => exact ⟨hi, rfl⟩
  | step _ hstep ih =>
    obtain ⟨hleads, hboard⟩ := ih fun m hm => hquiet m (List.mem_append_left _ hm)
    have hq := hquiet _ (List.mem_append_right _ (List.mem_singleton.2 rfl))
    exact ⟨hstep.leads hq (hboard ▸ hopen) hleads, (hstep.quiet hq).trans hboard⟩

/-- Who leads has looked at the newest claim when it was current, and holds it, so all who lead have one name.
The claim is still current just where it has not run out since, but that ends nothing: until the next claim,
or until there are to be no more, the replica leads. -/
theorem leader_holds_newest {hostname : ι → String} {c : Claim} {now : Instant}
    (h : Trace Step (start (fun i => .lost (hostname i)) c now) log w) (hi : w.Leads i) :
    w.board.newest.holder = hostname i ∧
      (w.board.newest.isCurrentFor (hostname i) w.now = true ↔
        w.now.unixMillis < w.board.newest.expiry.unixMillis) ∧
      (∃ m ∈ log, m.deed = .poll i ∧ m.state.board.newest = w.board.newest ∧
        m.state.now.unixMillis ≤ w.now.unixMillis ∧
        w.board.newest.isCurrentFor (hostname i) m.state.now = true) ∧
      (∀ j, w.Leads j → hostname j = hostname i) ∧
      ∀ later w', Trace Step w later w' → (∀ m ∈ later, m.deed.isQuiet = true) →
        w.board.isOpen = true → w'.Leads i := by
  obtain ⟨hmoved, hlog⟩ := before_of_trace h
  have hlooked (j : ι) (hj : w.Leads j) : ∃ m ∈ log, m.deed = .poll j ∧
      m.state.board.newest = w.board.newest ∧ m.state.now.unixMillis ≤ w.now.unixMillis ∧
      w.board.newest.isCurrentFor (hostname j) m.state.now = true := by
    have hnone : HasSeen [] (start (fun i => .lost (hostname i)) c now) j := by
      intro hphase
      cases hphase
    obtain ⟨m, hm, hpoll, hseen, hcurrent⟩ := hasSeen_of_trace h hnone hj.1
    have hchanges : m.state.board.changes = w.board.changes :=
      (Option.some.inj (hj.2.symm.trans hseen)).symm
    have hnewest := (hlog m hm).newest hchanges
    have hname : (w.waits j).hostname = hostname j := hmoved.hostname j
    rw [hnewest, hname] at hcurrent
    exact ⟨m, hm, hpoll, hnewest, (hlog m hm).now, hcurrent⟩
  have hholder (j : ι) (hj : w.Leads j) : w.board.newest.holder = hostname j := by
    obtain ⟨m, -, -, -, -, hcurrent⟩ := hlooked j hj
    exact (Claim.isCurrentFor_iff.1 hcurrent).1
  refine ⟨hholder i hi, ?_, hlooked i hi, fun j hj => (hholder j hj).symm.trans (hholder i hi),
    fun later w' hlater hquiet hopen => (leads_of_quiet hlater hquiet hopen hi).1⟩
  rw [Claim.isCurrentFor_iff]
  exact ⟨fun hcurrent => hcurrent.2, fun hlater => ⟨hholder i hi, hlater⟩⟩

def contest : World Bool :=
  start (fun isMe => .lost (if isMe then "me" else "other")) ⟨"me", ⟨15000⟩⟩ ⟨0⟩

/-- After a renewal that both have looked at, its holder leads, and does so however much time passes. -/
theorem contest_holds_renewal : ∃ log w, Trace Step contest log w ∧ w.Leads true ∧
    w.board.newest.holder = "me" ∧ (w.Leads false → "other" = "me") ∧
    (w.board.newest.isCurrentFor "me" w.now = true ↔
      w.now.unixMillis < w.board.newest.expiry.unixMillis) ∧
    ∀ millis, (w.advance millis).Leads true := by
  let renewed := ((contest.poll true).advance 10000).post ⟨"me", ⟨25000⟩⟩
  have hrenewed : Trace Step contest _ renewed :=
    ((Trace.single (.poll contest true)).step (.advance _ 10000)).step (.post rfl _)
  have hrun := (hrenewed.step (.poll _ true)).step (.poll _ false)
  have hleads : ((renewed.poll true).poll false).Leads true := by decide +kernel
  obtain ⟨hholder, hcurrent, -, honly, hlonger⟩ := leader_holds_newest hrun hleads
  exact ⟨_, _, hrun, hleads, hholder, honly false, hcurrent, fun millis =>
    hlonger _ _ (.single (.advance _ millis)) (by simp [Deed.isQuiet]) rfl⟩

/-- Fifteen seconds later its claim has run out, and the replica leads even though it has looked again. -/
theorem contest_outlasts_lease : ∃ log w, Trace Step contest log w ∧ w.Leads true ∧
    w.board.newest.isCurrentFor "me" w.now = false := by
  let expired := ((contest.poll true).advance 15000).poll true
  have hrun : Trace Step contest _ expired :=
    ((Trace.single (.poll contest true)).step (.advance _ 15000)).step (.poll _ true)
  exact ⟨_, expired, hrun, by decide +kernel, by decide +kernel⟩

end World
end PodSizing.Lease
