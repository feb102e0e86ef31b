import PodSizing.Bus

/-!
# Deliveries

An event goes to the subscribers of its topic one after another. One whose buffer is full is waited
for, but no longer than the timeout of the delivery; then it is the next one's turn. Nobody waits
for a subscriber that has gone.
-/
namespace PodSizing

structure Delivery where
  notice : Notice
  timeoutMillis : Nat
  /-- Those whose turn is still to come, the next first. -/
  remaining : List Nat
  /-- When the next one's turn came. -/
  turn : Nat
  deriving DecidableEq

/-- A point on the way of a delivery. -/
structure Delivery.Progress where
  now : Nat
  bus : Bus
  remaining : List Nat
  turn : Nat

namespace Delivery

/-- Serves subscribers in turn. Time passes only while one is waited for, up to `horizon`, if there
is one; what is due at the horizon is left. -/
def serve (n : Notice) (timeoutMillis : Nat) (horizon : Option Nat) :
    List Nat → (turn now : Nat) → Bus → Progress
  | [], turn, now, bus => ⟨now, bus, [], turn⟩
  | id :: rest, turn, now, bus =>
    match bus.find? id with
    | none => serve n timeoutMillis horizon rest now now bus
    | some s =>
      let deadline := max now (turn + timeoutMillis)
      if !s.isAttended then serve n timeoutMillis horizon rest now now bus
      else if s.hasRoom then
        serve n timeoutMillis horizon rest now now (bus.modify id (·.push n))
      else if horizon.all (deadline < ·) then
        serve n timeoutMillis horizon rest deadline deadline bus
      else ⟨now, bus, id :: rest, turn⟩

/-- The delivery of an event that is published now. -/
def begin (n : Notice) (timeoutMillis : Option Nat) (now : Nat) (bus : Bus) : Delivery :=
  ⟨n, timeoutMillis.getD bus.sendTimeoutMillis, bus.index.subscribers n.topic, now⟩

/-- Takes a delivery on, and says what time it is then. -/
def advance (d : Delivery) (horizon : Option Nat) (now : Nat) (bus : Bus) :
    Delivery × Nat × Bus :=
  let p := serve d.notice d.timeoutMillis horizon d.remaining d.turn now bus
  ({ d with remaining := p.remaining, turn := p.turn }, p.now, p.bus)

def isOver (d : Delivery) : Bool := d.remaining.isEmpty

end Delivery

/-- Publishes an event while nobody receives, and says how long that took. -/
def Bus.publish (n : Notice) (timeoutMillis : Option Nat) (bus : Bus) : Nat × Bus :=
  ((Delivery.begin n timeoutMillis 0 bus).advance none 0 bus).2

/-- Publishes an event while one subscriber receives once, some time after the start. A receipt
comes before a timeout at the same time. -/
def Bus.publishReceiving (n : Notice) (timeoutMillis : Option Nat) (receiver afterMillis : Nat)
    (bus : Bus) : Received × Nat × Bus :=
  let (d, now, bus) := (Delivery.begin n timeoutMillis 0 bus).advance (some afterMillis) 0 bus
  let (received, bus) := bus.receive receiver
  let (_, now, bus) := d.advance none (max now afterMillis) bus
  (received, now, bus)

end PodSizing
