import PodSizing.Reconcile.Session
import PodSizing.WorkQueue

/-!
# The controller

Reconciles the pods that are asked for, so many at a time, no pod twice at a time, and again after a
while. It is over when no more are asked for and nothing runs. When it is told to drain, what runs
may still end within a time of grace.
-/
namespace PodSizing

structure Controller where
  config : ReconcileConfig
  /-- How many reconciles may run at a time; 0 for no limit. -/
  concurrency : Nat := 1
  graceMillis : Nat := 10000
  /-- The pods that are known; others are not reconciled. -/
  cache : Cache
  session : Session
  queue : WorkQueue := {}
  /-- The reconciles that run, in the order of their start, and when each is answered. -/
  active : List (CacheKey × Session.Run × Nat) := []
  /-- Whether nothing is started any more. -/
  isClosing : Bool := false
  /-- When it was told to drain. -/
  drainStart : Option Nat := none
  /-- When it was over. -/
  finished : Option Nat := none
  /-- When it was over after being told to drain. -/
  drained : Option Nat := none
  /-- Whether a reconcile has failed beyond its errors, which ends everything. -/
  isBroken : Bool := false

namespace Controller

def now (c : Controller) : Nat := c.session.store.uptime

/-- How long after a reconcile its pod is due again; a failure that stays has to wait for a change
of the pod. -/
def dueAfter (config : ReconcileConfig) : Outcome → Option Nat
  | .done => some config.resyncMillis
  | .requeue millis => some millis
  | .terminal _ => none

/-- Gives up what runs. -/
def giveUp (c : Controller) : Controller :=
  { c with
    active := []
    session :=
      { c.session with
        inProgress := c.active.foldl (fun s a => s.release a.2.1.id) c.session.inProgress } }

/-- Takes note of how a reconcile ended. -/
def settleRun (key : CacheKey) (result : Except String Outcome) (c : Controller) : Controller :=
  match result with
  | .error _ => { c.giveUp with isBroken := true, isClosing := true }
  | .ok outcome =>
    match dueAfter c.config outcome with
    | some millis => { c with queue := c.queue.request key (c.now + millis) }
    | none => c

/-- Completes the reconciles that are answered by now, in the order of their start. One that fails takes
down those that are still to come. -/
def completeDue : List (CacheKey × Session.Run × Nat) → Controller → Controller
  | [], c => c
  | (key, run, due) :: rest, c =>
    if c.isBroken then { c with active := c.active ++ (key, run, due) :: rest }.giveUp
    else if c.now < due then completeDue rest { c with active := c.active ++ [(key, run, due)] }
    else
      let (result, session) := c.session.complete run
      completeDue rest (settleRun key result { c with session })

def isFull (c : Controller) : Bool := c.concurrency != 0 && c.concurrency ≤ c.active.length

def mayStart (c : Controller) (key : CacheKey) : Bool := c.active.all fun a => a.1 ≠ key

/-- Starts the reconcile of a pod that is known. -/
def start (key : CacheKey) (c : Controller) : Controller :=
  match c.cache.get? key with
  | none => c
  | some p =>
    match c.session.start c.config p.id with
    | (.over result, session) => settleRun key result { c with session }
    | (.running run, session) =>
      { c with session, active := c.active ++ [(key, run, c.now + session.store.faults.getDelayMillis)] }

/-- Starts what is due while there is room, up to a number of pods. -/
def startDue : Nat → Controller → Controller
  | 0, c => c
  | count + 1, c =>
    if c.isClosing then c
    else if c.isFull then { c with queue := c.queue.hold c.now }
    else
      match c.queue.take c.now c.mayStart with
      | (some key, queue) => startDue count (start key { c with queue })
      | (none, queue) => { c with queue }

/-- Completes and starts what is due, in rounds. -/
def rounds : Nat → Controller → Controller
  | 0, c => c
  | count + 1, c =>
    let c := completeDue c.active { c with active := [] }
    rounds count (startDue (c.queue.size + 1) c)

def isGraceOver (c : Controller) : Bool := c.drainStart.any fun t => t + c.graceMillis ≤ c.now

/-- Sees whether it is over. -/
def conclude (c : Controller) : Controller :=
  if c.finished.isSome || c.isBroken then
    if c.drainStart.isSome && c.drained.isNone then { c with drained := some c.now } else c
  else
    let c := if c.isGraceOver then c.giveUp else c
    if c.isClosing && c.active.isEmpty then
      { c with
        finished := some c.now
        drained := c.drained.orElse fun _ => c.drainStart.map fun _ => c.now }
    else c

/-- Does all that is due by now. Every round but the last starts or completes a reconcile. -/
def settle (c : Controller) : Controller :=
  conclude (rounds (2 * (c.queue.size + c.active.length) + 1) c)

/-- When something may happen next. -/
def next? (c : Controller) : Option Nat :=
  ((if c.isClosing then [] else c.queue.next?.toList) ++ c.active.map (·.2.2)
    ++ (c.drainStart.map (· + c.graceMillis)).toList).filter (c.now < ·) |>.min?

def elapse (millis : Nat) (c : Controller) : Controller :=
  { c with
    session := { c.session with store := { c.session.store with uptime := c.now + millis } } }

/-- Lets time pass: what is due at its end is still to be done. -/
def pass (millis : Nat) (c : Controller) : Controller :=
  if millis = 0 then c
  else
    let c := c.settle
    let gap := match c.next? with
      | some t => min millis (max 1 (t - c.now))
      | none => millis
    pass (millis - max 1 gap) (c.elapse (max 1 gap))
termination_by millis

/-- Asks for pods now. -/
def trigger (keys : List CacheKey) (c : Controller) : Controller :=
  if c.isClosing then c
  else { c with queue := keys.foldl (fun q key => q.request key c.now) c.queue }

/-- No more pods will be asked for. -/
def close (c : Controller) : Controller := { c with isClosing := true }

/-- Tells it to drain. -/
def drain (c : Controller) : Controller :=
  { c with isClosing := true, drainStart := c.drainStart.orElse fun _ => some c.now }

end Controller
end PodSizing
