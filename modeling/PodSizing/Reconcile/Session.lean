import PodSizing.Reconcile
import PodSizing.Store

/-!
# Reconciles over a store

Starts reconciles of pods over a store and completes them, while no pod has two at a time. A start
takes a reconcile to where it reads its pod; however it ends, its pod may be reconciled again.
-/
namespace PodSizing

/-- The pods that are being reconciled. -/
structure InProgress where
  ids : List PodId := []
  nodup : ids.Nodup := by exact .nil

namespace InProgress

def contains (s : InProgress) (id : PodId) : Bool := decide (id ∈ s.ids)

/-- Takes a pod in, unless it is in already. -/
def enter? (s : InProgress) (id : PodId) : Option InProgress :=
  if h : id ∈ s.ids then none else some ⟨id :: s.ids, List.nodup_cons.2 ⟨h, s.nodup⟩⟩

def release (s : InProgress) (id : PodId) : InProgress := ⟨s.ids.erase id, s.nodup.erase id⟩

end InProgress

structure Session where
  store : Store
  inProgress : InProgress := {}

namespace Session

/-- A reconcile that has asked for its pod. -/
structure Run where
  id : PodId
  context : Context
  next : Except ClientError (Option Pod) → PodProgram Outcome

/-- What becomes of a reconcile at its start: it is over, or runs. -/
inductive Start where
  | over (result : Except String Outcome)
  | running (run : Run)

def startAdmitted (config : ReconcileConfig) (id : PodId) (s : Session) : Start × Session :=
  match Store.advance (Reconcile.reconcile config id) s.store with
  | (.ended result, store) => (.over result, { store, inProgress := s.inProgress.release id })
  | (.reading context next, store) => (.running ⟨id, context, next⟩, { s with store })

/-- Starts a reconcile; one for a pod that has one is to come back later. -/
def start (config : ReconcileConfig) (id : PodId) (s : Session) : Start × Session :=
  match s.inProgress.enter? id with
  | none =>
    (.over (.ok (.requeue config.requeueMillis)),
      { s with store := s.store.record [.existingInProgress] })
  | some inProgress => startAdmitted config id { s with inProgress }

/-- Takes a reconcile from the answer about its pod to its end. -/
def complete (run : Run) (s : Session) : Except String Outcome × Session :=
  let (result, store) := s.store.complete run.context run.next
  (result, { store, inProgress := s.inProgress.release run.id })

/-- Completes those that run, in the order of their start. -/
def completeAll : List Start → Session → List (Except String Outcome) × Session
  | [], s => ([], s)
  | .over result :: rest, s =>
    let (results, s) := completeAll rest s
    (result :: results, s)
  | .running run :: rest, s =>
    let (result, s) := complete run s
    let (results, s) := completeAll rest s
    (result :: results, s)

def startAll (config : ReconcileConfig) : List PodId → Session → List Start × Session
  | [], s => ([], s)
  | id :: ids, s =>
    let (first, s) := start config id s
    let (starts, s) := startAll config ids s
    (first :: starts, s)

/-- Reconciles pods side by side: all start before one completes. -/
def reconcileAll (config : ReconcileConfig) (ids : List PodId) (s : Session) :
    List (Except String Outcome) × Session :=
  let (starts, s) := startAll config ids s
  completeAll starts s

end Session
end PodSizing
