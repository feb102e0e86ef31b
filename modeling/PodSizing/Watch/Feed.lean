import PodSizing.Bus.Delivery
import PodSizing.Watch

/-!
# Feeding the watch

Carries out what the watch calls for, one report after another. A full queue of triggers holds it up
until there is room, a full subscriber until its delivery times out; reports that come meanwhile
wait. It ends with the reports, or when nobody takes triggers any more.
-/
namespace PodSizing

/-- Triggers on their way to whoever reconciles. -/
structure TriggerQueue where
  capacity : Nat
  /-- The oldest first. -/
  pods : List Pod := []
  isOpen : Bool := true

structure Feed where
  queue : TriggerQueue
  watch : Watch := {}
  bus : Bus := {}
  /-- Reports that have not been looked at, the oldest first. -/
  inbox : List WatchEvent := []
  /-- Whether no more reports will come. -/
  isComplete : Bool := false
  /-- The delivery that holds the watch up. -/
  delivery : Option Delivery := none
  /-- What is left to do about the last report. -/
  actions : List Watch.Action := []
  isRunning : Bool := true
  now : Nat := 0
  events : List Event := []

namespace Feed

def stop (f : Feed) : Feed := { f with isRunning := false, actions := [], inbox := [] }

/-- Takes a delivery on until it is over or has to wait past the present. -/
def deliver (d : Delivery) (f : Feed) : Feed :=
  let (d, _, bus) := d.advance (some (f.now + 1)) f.now f.bus
  { f with bus, delivery := if d.isOver then none else some d }

/-- Takes actions in turn as far as nothing holds them up. -/
def act : List Watch.Action → Feed → Feed
  | [], f => { f with actions := [] }
  | .publish n :: rest, f =>
    let f := f.deliver (Delivery.begin n none f.now f.bus)
    if f.delivery.isSome then { f with actions := rest } else act rest f
  | .trigger p :: rest, f =>
    if !f.queue.isOpen then f.stop
    else if f.queue.pods.length < f.queue.capacity then
      act rest { f with queue := { f.queue with pods := f.queue.pods ++ [p] } }
    else { f with actions := .trigger p :: rest }

def isHeldUp (f : Feed) : Bool := f.delivery.isSome || !f.actions.isEmpty

/-- Looks at reports in turn as far as nothing holds the watch up. -/
def take : List WatchEvent → Feed → Feed
  | [], f => if f.isComplete then f.stop else f
  | report :: rest, f =>
    let (actions, watch) := f.watch.observe report
    let f := act actions
      { f with inbox := rest, watch, events := f.events ++ f.watch.counted report }
    if !f.isRunning || f.isHeldUp then f else take rest f

/-- Goes on with the delivery in hand, if there is one. -/
def resumeDelivery (f : Feed) : Feed :=
  match f.delivery with
  | some d => f.deliver d
  | none => f

/-- Does all that can be done at present. -/
def settle (f : Feed) : Feed :=
  if !f.isRunning then f
  else
    let f := f.resumeDelivery
    if f.delivery.isSome then f
    else
      let f := act f.actions f
      if !f.isRunning || f.isHeldUp then f else take f.inbox f

/-- Lets time pass: what is due then is still to be done. -/
def pass : Nat → Feed → Feed
  | 0, f => f
  | millis + 1, f =>
    let f := f.settle
    if f.delivery.isSome then pass millis { f with now := f.now + 1 }
    else { f with now := f.now + millis + 1 }

/-- Brings a report in. -/
def report (e : WatchEvent) (f : Feed) : Feed :=
  if f.isRunning && !f.isComplete then { f with inbox := f.inbox ++ [e] } else f

/-- No more reports will come. -/
def complete (f : Feed) : Feed := { f with isComplete := true }

/-- Nobody takes triggers any more. -/
def closeQueue (f : Feed) : Feed := { f with queue := { f.queue with pods := [], isOpen := false } }

/-- A bound on the triggers that are still to come from what has been reported. -/
def outstanding (f : Feed) : Nat :=
  f.queue.pods.length + f.actions.length + f.watch.awaiting.length + f.inbox.length

def drainWithin : Nat → Feed → List Pod × Feed
  | 0, f => ([], f)
  | fuel + 1, f =>
    match f.queue.pods with
    | [] => ([], f)
    | p :: rest =>
      let (pods, f) :=
        drainWithin fuel (pass 1 { f with queue := { f.queue with pods := rest } })
      (p :: pods, f)

/-- Takes triggers until none is left, a millisecond after each. -/
def drain (f : Feed) : List Pod × Feed := drainWithin f.outstanding f

/-- How long a publication that has begun holds off new subscribers, at most. -/
def publicationMillis (f : Feed) : Nat :=
  match f.delivery with
  | some d => d.turn + d.remaining.length * d.timeoutMillis - f.now
  | none => 0

/-- Lets time pass until the publication in hand is over, and nothing else happen. -/
def awaitPublication : Nat → Feed → Feed
  | 0, f => f.resumeDelivery
  | millis + 1, f =>
    let f := f.resumeDelivery
    if f.delivery.isSome then awaitPublication millis { f with now := f.now + 1 } else f

/-- A new subscription, which waits for the publication in hand. -/
def subscribe (pod : PodId) (kinds : List EventKind) (capacity : Nat) (f : Feed) : Nat × Feed :=
  let f := f.awaitPublication f.publicationMillis
  let (id, bus) := f.bus.subscribe pod kinds capacity
  (id, { f with bus })

def receiveAll (id : Nat) (f : Feed) : List Notice × Feed :=
  let (notices, bus) := f.bus.receiveAll id
  (notices, { f with bus })

end Feed
end PodSizing
