import Mathlib.Data.List.Count
import PodSizing.Bus.Delivery

/-!
# Serving subscribers

A delivery serves subscribers in turn. It stops short of its horizon only at one that has no room and whose
deadline lies no earlier; without a horizon it comes to its end. A clock that is ahead stays ahead, and
each turn brings a subscriber the event once at most.
-/
namespace PodSizing

namespace Bus
variable {bus : Bus} {id : Nat} {f : Subscription → Subscription}

def attends (bus : Bus) (id : Nat) : Bool := (bus.find? id).any (·.isAttended)

def isFull (bus : Bus) (id : Nat) : Bool := (bus.find? id).any (!·.hasRoom)

theorem find?_modify (hf : ∀ s, (f s).id = s.id) (j : Nat) :
    (bus.modify id f).find? j = if j = id then (bus.find? j).map f else bus.find? j := by
  have hsame : (fun s : Subscription => decide (s.id = j)) ∘
      (fun s => if s.id = id then f s else s) = fun s => decide (s.id = j) := by
    funext s
    by_cases h : s.id = id <;> simp [h, hf]
  simp only [find?, modify, List.find?_map, hsame]
  cases hfind : bus.subscriptions.find? (·.id = j) with
  | none => simp
  | some s =>
    have hid : s.id = j := by simpa using List.find?_some hfind
    simp only [Option.map_some, hid]
    split <;> rfl

theorem find?_push (bus : Bus) (n : Notice) (id j : Nat) :
    (bus.modify id (·.push n)).find? j =
      if j = id then (bus.find? j).map (·.push n) else bus.find? j :=
  find?_modify (f := (·.push n)) (fun _ => rfl) j

theorem attends_push (bus : Bus) (n : Notice) (id j : Nat) :
    (bus.modify id (·.push n)).attends j = bus.attends j := by
  rw [attends, attends, find?_push]
  split
  · cases bus.find? j <;> rfl
  · rfl

end Bus

namespace Delivery

/-- The four ways of the subscriber whose turn it is. -/
theorem serve_cons (n : Notice) (timeoutMillis : Nat) (horizon : Option Nat) (id : Nat)
    (rest : List Nat) (turn now : Nat) (bus : Bus) :
    serve n timeoutMillis horizon (id :: rest) turn now bus =
      if bus.attends id = false then serve n timeoutMillis horizon rest now now bus
      else if bus.isFull id = false then
        serve n timeoutMillis horizon rest now now (bus.modify id (·.push n))
      else if horizon.all (max now (turn + timeoutMillis) < ·) then
        serve n timeoutMillis horizon rest (max now (turn + timeoutMillis))
          (max now (turn + timeoutMillis)) bus
      else ⟨now, bus, id :: rest, turn⟩ := by
  cases hfind : bus.find? id with
  | none => simp [serve, Bus.attends, hfind]
  | some q => simp [serve, Bus.attends, Bus.isFull, hfind]

theorem serve_none_remaining (n : Notice) (timeoutMillis : Nat) (remaining : List Nat)
    (turn now : Nat) (bus : Bus) :
    (serve n timeoutMillis none remaining turn now bus).remaining = [] := by
  induction remaining generalizing turn now bus with
  | nil => rfl
  | cons id rest ih =>
    rw [serve_cons]
    split
    · exact ih now now bus
    · split
      · exact ih now now _
      · exact ih _ _ bus

/-- Where a delivery stops, whoever's turn it is has no room and may be waited for till the horizon. -/
theorem serve_some_stops (n : Notice) (timeoutMillis horizon : Nat) (remaining : List Nat)
    (turn now : Nat) (bus : Bus) :
    let p := serve n timeoutMillis (some horizon) remaining turn now bus
    p.remaining = [] ∨ ∃ id rest, p.remaining = id :: rest ∧ p.bus.attends id = true ∧
      p.bus.isFull id = true ∧ horizon ≤ max p.now (p.turn + timeoutMillis) := by
  induction remaining generalizing turn now bus with
  | nil => exact .inl rfl
  | cons id rest ih =>
    rw [serve_cons]
    split
    · exact ih now now bus
    · next hthere =>
      split
      · exact ih now now _
      · next hfull =>
        split
        · exact ih _ _ bus
        · next hstop =>
          rw [Bool.not_eq_false] at hthere hfull
          simp only [Option.all_some, decide_eq_true_eq] at hstop
          exact .inr ⟨id, rest, rfl, hthere, hfull, Nat.le_of_not_lt hstop⟩

theorem serve_now_le (n : Notice) (timeoutMillis : Nat) {now horizon : Nat} (remaining : List Nat)
    (turn : Nat) (bus : Bus) (h : now ≤ horizon) :
    (serve n timeoutMillis (some horizon) remaining turn now bus).now ≤ horizon := by
  induction remaining generalizing turn now bus with
  | nil => exact h
  | cons id rest ih =>
    rw [serve_cons]
    split
    · exact ih now bus h
    · split
      · exact ih now _ h
      · split
        · next hdue => exact ih _ bus (Nat.le_of_lt (by simpa using hdue))
        · exact h

theorem serve_now (n : Notice) (timeoutMillis : Nat) (remaining : List Nat) (turn now : Nat)
    (bus : Bus) : (serve n timeoutMillis (some (now + 1)) remaining turn now bus).now = now := by
  induction remaining generalizing turn bus with
  | nil => rfl
  | cons id rest ih =>
    rw [serve_cons]
    split
    · exact ih now bus
    · split
      · exact ih now _
      · split
        · next hdue =>
          simp only [Option.all_some, decide_eq_true_eq] at hdue
          have hdeadline : max now (turn + timeoutMillis) = now := by omega
          rw [hdeadline]
          exact ih now bus
        · rfl

def ahead (millis : Nat) (d : Delivery) : Delivery := { d with turn := millis + d.turn }

def Progress.ahead (millis : Nat) (p : Progress) : Progress :=
  { p with now := millis + p.now, turn := millis + p.turn }

theorem serve_ahead (n : Notice) (timeoutMillis : Nat) (horizon : Option Nat) (millis : Nat)
    (remaining : List Nat) (turn now : Nat) (bus : Bus) :
    serve n timeoutMillis (horizon.map (millis + ·)) remaining (millis + turn) (millis + now) bus =
      (serve n timeoutMillis horizon remaining turn now bus).ahead millis := by
  induction remaining generalizing turn now bus with
  | nil => rfl
  | cons id rest ih =>
    have hdeadline : max (millis + now) (millis + turn + timeoutMillis) =
        millis + max now (turn + timeoutMillis) := by omega
    have hdue : (horizon.map (millis + ·)).all (millis + max now (turn + timeoutMillis) < ·) =
        horizon.all (max now (turn + timeoutMillis) < ·) := by
      cases horizon <;> simp
    rw [serve_cons, serve_cons, hdeadline, hdue]
    simp only [ih]
    split
    · rfl
    · split
      · rfl
      · split <;> rfl

/-- Each turn brings the event once at most. -/
theorem serve_buffer (n : Notice) (timeoutMillis : Nat) (horizon : Option Nat) (remaining : List Nat)
    (turn now : Nat) (bus : Bus) (id : Nat) :
    ∃ times ≤ remaining.count id,
      (serve n timeoutMillis horizon remaining turn now bus).bus.find? id =
        (bus.find? id).map fun s => { s with buffer := s.buffer ++ List.replicate times n } := by
  induction remaining generalizing turn now bus with
  | nil => exact ⟨0, Nat.le_refl _, by simp [serve]⟩
  | cons j rest ih =>
    have hcount : rest.count id ≤ (j :: rest).count id := List.count_le_count_cons
    rw [serve_cons]
    split
    · obtain ⟨times, htimes, hfind⟩ := ih now now bus
      exact ⟨times, Nat.le_trans htimes hcount, hfind⟩
    · split
      · obtain ⟨times, htimes, hfind⟩ := ih now now (bus.modify j (·.push n))
        rw [Bus.find?_push] at hfind
        by_cases hj : id = j
        · subst hj
          refine ⟨times + 1, by simpa using htimes, ?_⟩
          rw [hfind, if_pos rfl]
          cases bus.find? id <;> simp [Subscription.push, List.replicate_succ]
        · rw [if_neg hj] at hfind
          exact ⟨times, Nat.le_trans htimes hcount, hfind⟩
      · split
        · obtain ⟨times, htimes, hfind⟩ := ih (max now (turn + timeoutMillis))
            (max now (turn + timeoutMillis)) bus
          exact ⟨times, Nat.le_trans htimes hcount, hfind⟩
        · exact ⟨0, Nat.zero_le _, by simp⟩

theorem advance_over {d : Delivery} (hover : d.remaining = []) (horizon : Option Nat) (now : Nat)
    (bus : Bus) : d.advance horizon now bus = (d, now, bus) := by
  obtain ⟨n, timeoutMillis, remaining, turn⟩ := d
  cases hover
  rfl

end Delivery
end PodSizing
