import PodSizing.Bus
import PodSizing.Cache

/-!
# The watch

Turns what the server reports into a cache of pods, events on the bus and triggers of reconciles.
The cache holds a change before anyone is told of it. Pods of a list are triggered when the list is
complete, since the cache does not hold them earlier.
-/
namespace PodSizing

structure Watch where
  cache : Cache := {}
  /-- The pods to trigger when the list is complete, in its order. -/
  awaiting : List Pod := []
  deriving DecidableEq, Inhabited

namespace Watch

/-- What the watch has others do. -/
inductive Action where
  | publish (n : Notice)
  | trigger (pod : Pod)
  deriving DecidableEq

/-- What the report of a pod that exists amounts to: the cache tells whether the pod is new. -/
def change (w : Watch) (p : Pod) : PodEvent :=
  match w.cache.get? p.cacheKey with
  | some old => .updated old p
  | none => .created p

def publication (e : PodEvent) : Action := .publish ⟨e.kind, e.pod⟩

/-- The pods that an event asks to have reconciled. -/
def wanted (e : PodEvent) : List Pod :=
  match e.decide.1 with
  | .reconcile => [e.pod]
  | .skip => []

/-- The actions that a report calls for, in order, and the watch after it. -/
def observe (report : WatchEvent) (w : Watch) : List Action × Watch :=
  let cache := w.cache.observe report
  match report with
  | .init => ([], ⟨cache, []⟩)
  | .initApply p =>
    let e := w.change p
    ([publication e], ⟨cache, w.awaiting ++ wanted e⟩)
  | .initDone => (w.awaiting.map .trigger, ⟨cache, []⟩)
  | .apply p =>
    let e := w.change p
    (publication e :: (wanted e).map .trigger, { w with cache })
  | .delete p => ([publication (.deleted p)], { w with cache })

/-- What is counted on the way. -/
def counted (report : WatchEvent) (w : Watch) : List Event :=
  match report with
  | .initApply p | .apply p => (w.change p).decide.2
  | .delete p => (PodEvent.deleted p).decide.2
  | .init | .initDone => []

end Watch
end PodSizing
