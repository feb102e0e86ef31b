import PodSizing.Api.Client
import PodSizing.Api.Http
import PodSizing.Cache

/-!
# A scripted server

A server that gives prepared responses in turn, next to a cache that learns of changes at set times.
Time passes only in pauses. Clients are tried against it with simple edits of pods.
-/
namespace PodSizing
open Time (Instant)

/-- A response, and what the cache is to observe after so many milliseconds; or none at all. -/
inductive ScriptedResponse where
  | answer (response : HttpResponse) (updates : List (Nat × WatchEvent))
  | unreachable

/-- A cache with changes that are still to come, each with its time. -/
structure TimedCache where
  uptime : Nat := 0
  cache : Cache := {}
  scheduled : List (Nat × WatchEvent) := []

namespace TimedCache

/-- Puts a change in behind those that are due no later. -/
def insertDue (e : Nat × WatchEvent) : List (Nat × WatchEvent) → List (Nat × WatchEvent)
  | [] => [e]
  | d :: rest => if e.1 < d.1 then e :: d :: rest else d :: insertDue e rest

/-- Lets what is due by now be observed. -/
def settle (c : TimedCache) : TimedCache :=
  let due := c.scheduled.takeWhile fun e => e.1 ≤ c.uptime
  { c with
    cache := due.foldl (fun cache e => cache.observe e.2) c.cache
    scheduled := c.scheduled.drop due.length }

/-- Adds changes that come so many milliseconds from now. -/
def schedule (c : TimedCache) (updates : List (Nat × WatchEvent)) : TimedCache :=
  let add (l : List (Nat × WatchEvent)) (e : Nat × WatchEvent) := insertDue (c.uptime + e.1, e.2) l
  settle { c with scheduled := updates.foldl add c.scheduled }

def pass (c : TimedCache) (millis : Nat) : TimedCache := settle { c with uptime := c.uptime + millis }

end TimedCache

structure ScriptedServer where
  timed : TimedCache := {}
  now : Instant
  responses : List ScriptedResponse := []
  /-- The requests and when they were sent, the newest first. -/
  requests : List (Nat × HttpRequest) := []
  events : List Event := []

namespace ScriptedServer

def exchange (s : ScriptedServer) (request : HttpRequest) : Except ApiFailure Pod × ScriptedServer :=
  let s := { s with requests := (s.timed.uptime, request) :: s.requests }
  match s.responses with
  | .answer response updates :: rest =>
    (response.pod, { s with responses := rest, timed := s.timed.schedule updates })
  | .unreachable :: rest => (.error .transport, { s with responses := rest })
  | [] => (.error .transport, s)

def handle : (request : ApiRequest) → ScriptedServer → apiSignature.Answer request × ScriptedServer
  | .get id, s => s.exchange (.get id)
  | .resize id patch, s => s.exchange (.resize id patch)
  | .patchMetadata id patch, s => s.exchange (.patchMetadata id patch)
  | .clock, s => (s.now, s)
  | .sleep millis, s => ((), { s with timed := s.timed.pass millis })
  | .cachedVersion id, s => (s.timed.cache.version? id, s)
  | .record events, s => ((), { s with events := s.events ++ events })

end ScriptedServer

namespace Mutator

private def setEntry (key : String) (value : Option String) (table : Option (Keyed String)) :
    Option (Keyed String) :=
  let table := table.getD .empty
  some (match value with
    | some value => table.insert key value
    | none => table.erase key)

/-- Sets an annotation, or removes it when there is no value. This edit and those that follow report a change
as they are told. -/
def annotate (changed : Bool) (key : String) (value : Option String) : Mutator := fun _ p =>
  .ok
    { changed
      pod := { p with
        metadata := { p.metadata with annotations := setEntry key value p.metadata.annotations } } }

/-- Sets a label, or removes it when there is no value. -/
def label (changed : Bool) (key : String) (value : Option String) : Mutator := fun _ p =>
  .ok
    { changed
      pod := { p with
        metadata := { p.metadata with labels := setEntry key value p.metadata.labels } } }

/-- Appends a container of which only the name is given. -/
def addContainer (changed : Bool) (name : String) : Mutator := fun _ p =>
  .ok { changed, pod := p.mapContainers (· ++ [{ name }]) }

/-- Removes the resources of the first container of a name. -/
def clearResources (changed : Bool) (name : String) : Mutator := fun _ p =>
  .ok
    { changed
      pod := p.mapContainers (updateFirst (·.name = name) fun c => { c with resources := none }) }

def keep (changed : Bool) : Mutator := fun _ p => .ok { changed, pod := p }

end Mutator
end PodSizing
