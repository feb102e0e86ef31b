import PodSizing.Proofs.Bus.Accounts
import PodSizing.Proofs.Watch.Origins
import PodSizing.Watch.Feed

/-!
# Feeding as a system of steps

The watch looks at a report when nothing is left to do about the last one, and does what it calls for in
order, an event at a time. Meanwhile reports come in, triggers are taken, subscribers receive, deliveries go
on and time passes. Whatever the feed is made to do is a run of these steps, and settling is to take the
steps of its own as long as there is one.
-/
namespace PodSizing
namespace Feed

def traffic (f : Feed) : Traffic := ⟨f.bus, f.now, f.delivery⟩

def within (f : Feed) (t : Traffic) : Feed :=
  { f with bus := t.bus, now := t.now, delivery := t.delivery }

inductive Deed where
  | look (report : WatchEvent)
  | publish (n : Notice)
  | trigger (pod : Pod)
  | stop
  /-- A delivery goes on, subscribers come and go and receive, and time passes. -/
  | bus (deed : Traffic.Deed)
  /-- A report comes in. -/
  | come (report : WatchEvent)
  | complete
  /-- Whoever reconciles takes a trigger. -/
  | take (pod : Pod)
  | closeQueue

def IsOver (f : Feed) : Prop :=
  (∃ p rest, f.actions = .trigger p :: rest ∧ f.queue.isOpen = false) ∨
    f.actions = [] ∧ f.inbox = [] ∧ f.isComplete = true

/-- One deed. Nobody but the watch publishes. -/
inductive Step : Feed → Deed → Feed → Prop where
  | look {f : Feed} {report : WatchEvent} {rest : List WatchEvent} (running : f.isRunning = true)
      (free : f.delivery = none) (idle : f.actions = []) (next : f.inbox = report :: rest) :
    Step f (.look report)
      { f with
        inbox := rest
        watch := (f.watch.observe report).2
        actions := (f.watch.observe report).1
        events := f.events ++ f.watch.counted report }
  | publish {f : Feed} {n : Notice} {rest : List Watch.Action} (running : f.isRunning = true)
      (free : f.delivery = none) (next : f.actions = .publish n :: rest) :
    Step f (.publish n)
      { f with actions := rest, delivery := some (.begin n none f.now f.bus) }
  | trigger {f : Feed} {p : Pod} {rest : List Watch.Action} (running : f.isRunning = true)
      (free : f.delivery = none) (next : f.actions = .trigger p :: rest)
      (taken : f.queue.isOpen = true) (room : f.queue.pods.length < f.queue.capacity) :
    Step f (.trigger p)
      { f with actions := rest, queue := { f.queue with pods := f.queue.pods ++ [p] } }
  | stop {f : Feed} (running : f.isRunning = true) (free : f.delivery = none) (ended : f.IsOver) :
    Step f .stop f.stop
  | bus {f : Feed} {deed : Traffic.Deed} {t : Traffic} (h : Traffic.Step f.traffic deed t)
      (others : deed.isPublication = false) : Step f (.bus deed) (f.within t)
  | come {f : Feed} (running : f.isRunning = true) (awaited : f.isComplete = false)
      (report : WatchEvent) : Step f (.come report) { f with inbox := f.inbox ++ [report] }
  | complete {f : Feed} : Step f .complete { f with isComplete := true }
  | take {f : Feed} {p : Pod} {rest : List Pod} (next : f.queue.pods = p :: rest) :
    Step f (.take p) { f with queue := { f.queue with pods := rest } }
  | closeQueue {f : Feed} :
    Step f .closeQueue { f with queue := { f.queue with pods := [], isOpen := false } }

abbrev Moment := Occurrence Feed Deed

abbrev Run := Trace Step

def Deed.isOwn : Deed → Bool
  | .look _ | .publish _ | .trigger _ | .stop => true
  | .bus deed => deed.isInstant
  | _ => false

def Deed.isLook : Deed → Bool
  | .look _ => true
  | _ => false

def Deed.carried : Deed → List Watch.Action
  | .publish n => [.publish n]
  | .trigger p => [.trigger p]
  | _ => []

def Deed.taken : Deed → List Pod
  | .take p => [p]
  | _ => []

def carried (log : List Moment) : List Watch.Action := log.flatMap (·.deed.carried)

def taken (log : List Moment) : List Pod := log.flatMap (·.deed.taken)

/-- The watch goes on no further by itself. -/
def Blocked (f : Feed) : Prop := ∀ deed g, Step f deed g → deed.isOwn = false

/-- The watch gets from one state to another by itself, and then no further. -/
def Settles (f g : Feed) : Prop := g.Blocked ∧ Via Step (·.deed.isOwn = true) f g

def Timely (m : Moment) : Prop :=
  m.deed.isOwn = true ∨ m.state.Blocked ∧ ∃ millis, m.deed = .bus (.wait millis)

variable {f g h : Feed} {log : List Moment} {deed : Deed}

@[simp] theorem carried_concat (log : List Moment) (m : Moment) :
    carried (log ++ [m]) = carried log ++ m.deed.carried := by
  simp [carried]

theorem taken_append (log later : List Moment) : taken (log ++ later) = taken log ++ taken later :=
  List.flatMap_append

theorem blocked_of_ended (ended : f.isRunning = false) (free : f.delivery = none) : f.Blocked := by
  intro deed g hstep
  cases hstep with
  | look running | publish running | trigger running | stop running =>
    rw [ended] at running
    cases running
  | bus hbus => exact hbus.isInstant_idle free
  | _ => rfl

theorem blocked_of_full {p : Pod} {rest : List Watch.Action} (free : f.delivery = none)
    (next : f.actions = .trigger p :: rest) (taken : f.queue.isOpen = true)
    (full : f.queue.capacity ≤ f.queue.pods.length) : f.Blocked := by
  intro deed g hstep
  cases hstep with
  | look _ _ idle => simp [idle] at next
  | publish _ _ next' => simp [next'] at next
  | trigger _ _ _ _ room => omega
  | stop _ _ ended => simp [IsOver, next, taken] at ended
  | bus hbus => exact hbus.isInstant_idle free
  | _ => rfl

theorem blocked_of_idle (free : f.delivery = none) (idle : f.actions = []) (none' : f.inbox = [])
    (awaited : f.isComplete = false) : f.Blocked := by
  intro deed g hstep
  cases hstep with
  | look _ _ _ next => simp [none'] at next
  | publish _ _ next | trigger _ _ next => simp [idle] at next
  | stop _ _ ended => simp [IsOver, idle, awaited] at ended
  | bus hbus => exact hbus.isInstant_idle free
  | _ => rfl

theorem blocked_of_waits {d : Delivery} {id : Nat} {rest : List Nat} (under : f.delivery = some d)
    (next : d.remaining = id :: rest) (attended : f.bus.attends id = true)
    (full : f.bus.isFull id = true) (early : f.now < d.turn + d.timeoutMillis) : f.Blocked := by
  intro deed g hstep
  cases hstep with
  | look _ free | publish _ free | trigger _ free | stop _ free =>
    rw [under] at free
    cases free
  | bus hbus => exact hbus.isInstant_early under next attended full early
  | _ => rfl

/-- Only a subscriber without room holds a delivery up, and not past its timeout. -/
theorem Blocked.waits (h : f.Blocked) {d : Delivery} (under : f.delivery = some d) :
    ∃ id rest, d.remaining = id :: rest ∧ f.bus.attends id = true ∧ f.bus.isFull id = true ∧
      f.now < d.turn + d.timeoutMillis := by
  cases hremaining : d.remaining with
  | nil => cases h _ _ (.bus (.conclude under hremaining) rfl)
  | cons id rest =>
    cases hattended : f.bus.attends id with
    | false => cases h _ _ (.bus (.pass under hremaining hattended) rfl)
    | true =>
      cases hfull : f.bus.isFull id with
      | false => cases h _ _ (.bus (.hand under hremaining hattended hfull) rfl)
      | true =>
        refine ⟨id, rest, rfl, hattended, hfull, Nat.lt_of_not_le fun hdue => ?_⟩
        cases h _ _ (.bus (.miss under hremaining hattended hfull hdue) rfl)

/-- The watch has no choice. -/
theorem Step.own_unique {deed' : Deed} (hg : Step f deed g) (hdeed : deed.isOwn = true)
    (hh : Step f deed' h) (hdeed' : deed'.isOwn = true) : g = h := by
  cases hg with
  | look _ free | publish _ free | trigger _ free | stop _ free =>
    cases hh with
    | look | publish | trigger | stop => simp_all [IsOver]
    | bus hbus => simp_all [Deed.isOwn, hbus.isInstant_idle free]
    | _ => cases hdeed'
  | bus hbus =>
    cases hh with
    | look _ free | publish _ free | trigger _ free | stop _ free =>
      simp_all [Deed.isOwn, hbus.isInstant_idle free]
    | bus hbus' => rw [hbus.instant_unique hdeed hbus' hdeed']
    | _ => cases hdeed'
  | _ => cases hdeed

end Feed
end PodSizing
