import PodSizing.Json.Merge
import PodSizing.Pod.Interchange
import PodSizing.PodClient

/-!
# A store in memory

Answers the requests of pod programs from pods that it holds, gives every stored pod a fresh version
and keeps a log of the calls. It can be told to fail. Reading a pod takes time, in which others may
run; everything else happens at once.
-/
namespace PodSizing
open Time (Instant)

/-- How a store is told to fail. -/
structure Faults where
  getCode : Option Nat := none
  patchCode : Option Nat := none
  resizeCode : Option Nat := none
  panicsOnGet : Bool := false
  getDelayMillis : Nat := 0
  deriving DecidableEq, Repr

inductive Call where
  | get (context : Context)
  /-- A write, and whether it changed the pod. -/
  | patch (context : Context) (mutators : Nat) (touchesResize awaitsSync : Bool)
      (result : Except ClientError Bool)

structure Store where
  /-- In the order of their names. -/
  pods : List Pod := []
  nextVersion : Nat := 10
  faults : Faults := {}
  now : Instant
  /-- Milliseconds since the store was opened. -/
  uptime : Nat := 0
  /-- The calls and when they were made, the newest first. -/
  calls : List (Nat × Call) := []
  events : List Event := []

namespace Store

def find? (s : Store) (id : PodId) : Option Pod := s.pods.find? fun p => p.id = id

/-- Puts a pod in its place, instead of one of the same name. -/
def place (p : Pod) : List Pod → List Pod
  | [] => [p]
  | q :: rest =>
    match p.id.compare q.id with
    | .lt => p :: q :: rest
    | .eq => p :: rest
    | .gt => q :: place p rest

/-- Stores a pod under a fresh version. -/
def put (s : Store) (p : Pod) : Pod × Store :=
  let p := { p with metadata := { p.metadata with resourceVersion := some (toString s.nextVersion) } }
  (p, { s with pods := place p s.pods, nextVersion := s.nextVersion + 1 })

def remove (s : Store) (id : PodId) : Store := { s with pods := s.pods.filter fun p => p.id ≠ id }

/-- Stores what a merge patch makes of a pod, if there is one and the result is a pod. -/
def merge (s : Store) (id : PodId) (patch : Json) : Store :=
  match (s.find? id).bind fun p => Pod.ofJson? (p.toJson.merge patch) with
  | some p => (s.put p).2
  | none => s

def log (s : Store) (c : Call) : Store := { s with calls := (s.uptime, c) :: s.calls }

def record (s : Store) (events : List Event) : Store := { s with events := s.events ++ events }

def injected (code : Nat) : ClientError := .api (.refused code "Injected" "injected")

/-- What reading a pod is answered. -/
def answerGet (s : Store) (id : PodId) : Except ClientError (Option Pod) :=
  match s.faults.getCode with
  | some code => .error (injected code)
  | none => .ok (s.find? id)

/-- Applies mutators to the pod that is given and stores it if one of them says so. -/
def write (s : Store) (base : Pod) (mutators : List Mutator) (touchesResize : Bool) :
    Except ClientError (Bool × Written) × Store :=
  match if touchesResize then s.faults.resizeCode else s.faults.patchCode with
  | some code => (.error (injected code), s)
  | none =>
    match Mutator.applyAll mutators s.now base with
    | .error e => (.error (.shape e), s)
    | .ok edit =>
      if edit.changed then
        let (p, s) := s.put edit.pod
        (.ok (true, ⟨p, edit.observations⟩), s)
      else (.ok (false, ⟨edit.pod, edit.observations⟩), s)

def patch (s : Store) (context : Context) (base : Pod) (mutators : List Mutator)
    (touchesResize awaitsSync : Bool) : Except ClientError Written × Store :=
  let (result, s) := s.write base mutators touchesResize
  (result.map (·.2),
    s.log (.patch context mutators.length touchesResize awaitsSync (result.map (·.1))))

/-- Answers a request at once. -/
def handle : (request : PodRequest) → Store → podSignature.Answer request × Store
  | .get context, s => (s.answerGet context.id, s.log (.get context))
  | .patch context base mutators touchesResize awaitsSync, s =>
    s.patch context base mutators touchesResize awaitsSync
  | .resize context base container updates mutators awaitsSync, s =>
    s.patch context base (.resources container updates :: mutators) true awaitsSync
  | .record events, s => ((), s.record events)

/-- How far a program gets: to its end, or to where it has asked for a pod. -/
inductive Stage (α : Type) where
  | ended (result : Except String α)
  | reading (context : Context) (next : Except ClientError (Option Pod) → PodProgram α)

/-- Runs a program until it asks for a pod. -/
def advance {α : Type} : PodProgram α → Store → Stage α × Store
  | .done a, s => (.ended (.ok a), s)
  | .fault message, s => (.ended (.error message), s)
  | .call (.get context) next, s =>
    let s := s.log (.get context)
    if s.faults.panicsOnGet then (.ended (.error "injected panic"), s)
    else (.reading context next, s)
  | .call (.patch context base mutators touchesResize awaitsSync) next, s =>
    let (answer, s) := s.handle (.patch context base mutators touchesResize awaitsSync)
    advance (next answer) s
  | .call (.resize context base container updates mutators awaitsSync) next, s =>
    let (answer, s) := s.handle (.resize context base container updates mutators awaitsSync)
    advance (next answer) s
  | .call (.record events) next, s => advance (next ()) (s.record events)

/-- Answers the pod that a program has asked for and runs it to its end. -/
def complete {α : Type} (context : Context)
    (next : Except ClientError (Option Pod) → PodProgram α) (s : Store) :
    Except String α × Store :=
  (next (s.answerGet context.id)).run handle s

end Store
end PodSizing
