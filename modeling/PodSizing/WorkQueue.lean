import PodSizing.Cache

/-!
# The work queue

Which pods are to be reconciled, and when. A pod is in it once at most. What is due while it cannot
be started is kept back, and comes first as soon as it can be.

Times are kept on a wheel with 64 slots a level. A slot gives up its newest entry first, and moving
it down a level turns its order around: of pods due at the same time the newest goes first if it was
put on an even level, else last.
-/
namespace PodSizing

structure WorkQueue where
  /-- The pods and when they are due, the next first. -/
  scheduled : List (CacheKey × Nat) := []
  /-- The pods that were due when they could not be started. -/
  pending : List CacheKey := []
  /-- When a pod was due last. -/
  elapsed : Nat := 0
  deriving DecidableEq, Inhabited

namespace WorkQueue

/-- The level of the wheel for a time, as it was turned last. -/
def level (elapsed due : Nat) : Nat := Nat.log2 ((elapsed ^^^ due) ||| 63) / 6

/-- Puts a pod among the others, before or behind those that are due at the same time. -/
def place (key : CacheKey) (due : Nat) (newestFirst : Bool) :
    List (CacheKey × Nat) → List (CacheKey × Nat)
  | [] => [(key, due)]
  | e :: rest =>
    if due < e.2 || (due = e.2 && newestFirst) then (key, due) :: e :: rest
    else e :: place key due newestFirst rest

/-- Asks for a pod at a time. The earlier of two times holds, and a pod that is kept back stays. -/
def request (key : CacheKey) (due : Nat) (q : WorkQueue) : WorkQueue :=
  if q.pending.contains key then q
  else if (q.scheduled.lookup key).any (· < due) then q
  else
    let others := q.scheduled.filter fun e => e.1 ≠ key
    { q with scheduled := place key due (level q.elapsed due % 2 = 0) others }

/-- Takes the first pod that is due and may be started, keeping back those before it. -/
def takeScheduled (now : Nat) (mayStart : CacheKey → Bool) :
    List (CacheKey × Nat) → WorkQueue → Option CacheKey × WorkQueue
  | [], q => (none, { q with scheduled := [] })
  | e :: rest, q =>
    if now < e.2 then (none, { q with scheduled := e :: rest })
    else if mayStart e.1 then (some e.1, { q with scheduled := rest, elapsed := e.2 })
    else takeScheduled now mayStart rest { q with pending := q.pending ++ [e.1], elapsed := e.2 }

/-- Takes a pod to start, if one is due. -/
def take (now : Nat) (mayStart : CacheKey → Bool) (q : WorkQueue) : Option CacheKey × WorkQueue :=
  match q.pending.find? mayStart with
  | some key => (some key, { q with pending := q.pending.erase key })
  | none => takeScheduled now mayStart q.scheduled q

/-- Keeps back all that is due. -/
def hold (now : Nat) (q : WorkQueue) : WorkQueue :=
  (takeScheduled now (fun _ => false) q.scheduled q).2

def size (q : WorkQueue) : Nat := q.scheduled.length + q.pending.length

/-- When something is due next. -/
def next? (q : WorkQueue) : Option Nat := q.scheduled.head?.map (·.2)

end WorkQueue
end PodSizing
