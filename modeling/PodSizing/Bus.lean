import PodSizing.PodEvent

/-!
# The bus

Tells subscribers what happens to the pods that they asked about. Every subscription has a buffer of
bounded size and an entry in the index for each kind of event that it asked for. A subscription whose
entries are gone gets nothing more, but what its buffer holds is still received.
-/
namespace PodSizing

/-- What a subscriber asks about. -/
structure Topic where
  pod : PodId
  kind : EventKind
  deriving DecidableEq, Repr

/-- An event as subscribers get it. -/
structure Notice where
  kind : EventKind
  pod : Pod
  deriving DecidableEq

def Notice.topic (n : Notice) : Topic := ⟨n.pod.id, n.kind⟩

structure Subscription where
  id : Nat
  pod : PodId
  kinds : List EventKind
  capacity : Nat
  /-- The events that wait to be received, the oldest first. -/
  buffer : List Notice := []
  /-- Whether someone is there to receive. -/
  isAttended : Bool := true
  deriving DecidableEq

namespace Subscription

def topics (s : Subscription) : List Topic := s.kinds.map (⟨s.pod, ·⟩)

def hasRoom (s : Subscription) : Bool := s.buffer.length < s.capacity

def push (s : Subscription) (n : Notice) : Subscription := { s with buffer := s.buffer ++ [n] }

/-- Nobody receives any more; what was buffered is lost. -/
def abandon (s : Subscription) : Subscription := { s with buffer := [], isAttended := false }

end Subscription

/-- Which subscriptions ask about a topic, by the order in which they came. -/
abbrev TopicIndex := List (Topic × List Nat)

namespace TopicIndex

def subscribers (index : TopicIndex) (t : Topic) : List Nat := (index.lookup t).getD []

/-- Adds a subscription behind those that ask about the topic already. -/
def enroll (id : Nat) (t : Topic) : TopicIndex → TopicIndex
  | [] => [(t, [id])]
  | e :: rest => if e.1 = t then (t, e.2 ++ [id]) :: rest else e :: enroll id t rest

/-- Takes a subscription from a topic, and the topic from the index when nobody is left. -/
def withdraw (id : Nat) (t : Topic) : TopicIndex → TopicIndex
  | [] => []
  | e :: rest =>
    if e.1 = t then
      match e.2.filter (· ≠ id) with
      | [] => rest
      | left => (t, left) :: rest
    else e :: withdraw id t rest

def count (index : TopicIndex) : Nat := (index.map (·.2.length)).foldr (· + ·) 0

def mentions (index : TopicIndex) (id : Nat) : Bool := index.any fun e => e.2.contains id

end TopicIndex

structure Bus where
  sendTimeoutMillis : Nat := 3000
  nextId : Nat := 0
  index : TopicIndex := []
  subscriptions : List Subscription := []
  deriving DecidableEq

namespace Bus

def find? (bus : Bus) (id : Nat) : Option Subscription := bus.subscriptions.find? (·.id = id)

def modify (id : Nat) (f : Subscription → Subscription) (bus : Bus) : Bus :=
  { bus with subscriptions := bus.subscriptions.map fun s => if s.id = id then f s else s }

/-- A new subscription, with room for one event at least. -/
def subscribe (pod : PodId) (kinds : List EventKind) (capacity : Nat) (bus : Bus) : Nat × Bus :=
  let s : Subscription := { id := bus.nextId, pod, kinds, capacity := max capacity 1 }
  (s.id,
    { bus with
      nextId := bus.nextId + 1
      index := s.topics.foldl (fun index t => TopicIndex.enroll s.id t index) bus.index
      subscriptions := bus.subscriptions ++ [s] })

def unsubscribe (id : Nat) (bus : Bus) : Bus :=
  match bus.find? id with
  | some s =>
    { bus with index := s.topics.foldl (fun index t => TopicIndex.withdraw id t index) bus.index }
  | none => bus

/-- Ends every subscription. -/
def clear (bus : Bus) : Bus := { bus with index := [] }

def abandon (id : Nat) (bus : Bus) : Bus := bus.modify id (·.abandon)

def count (bus : Bus) : Nat := bus.index.count

/-- What a subscriber that wants to receive finds. -/
inductive Received where
  | notice (n : Notice)
  | pending
  | closed
  deriving DecidableEq

/-- Takes the oldest event from a buffer. An empty one is closed once its subscription has ended. -/
def receive (id : Nat) (bus : Bus) : Received × Bus :=
  match (bus.find? id).map (·.buffer) with
  | some (n :: rest) => (.notice n, bus.modify id fun s => { s with buffer := rest })
  | _ => (if bus.index.mentions id then .pending else .closed, bus)

/-- Receives so many times, as long as there is something to receive. -/
def receiveUpTo : Nat → (id : Nat) → Bus → List Notice × Bus
  | 0, _, bus => ([], bus)
  | count + 1, id, bus =>
    match bus.receive id with
    | (.notice n, bus) =>
      let (notices, bus) := receiveUpTo count id bus
      (n :: notices, bus)
    | (_, bus) => ([], bus)

/-- Takes all that a buffer holds. -/
def receiveAll (id : Nat) (bus : Bus) : List Notice × Bus :=
  receiveUpTo (((bus.find? id).map (·.buffer.length)).getD 0) id bus

end Bus
end PodSizing
