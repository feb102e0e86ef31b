import PodSizing.Time.Calendar

/-!
# The lease

Of several replicas the one that holds the lease leads. A replica waits until it holds the lease, or
until it has held it and lost it, by looking at the claims that are made. Only the newest claim can
be seen: what is seen of a claim is what it says when it is looked at.
-/
namespace PodSizing.Lease
open Time (Instant)

structure Claim where
  holder : String
  expiry : Instant
  deriving DecidableEq, Repr

def Claim.isCurrentFor (c : Claim) (hostname : String) (now : Instant) : Bool :=
  c.holder = hostname && now.unixMillis < c.expiry.unixMillis

/-- The newest of the claims that are made. -/
structure Board where
  newest : Claim
  /-- How many claims came after the first. -/
  changes : Nat := 0
  /-- Whether claims may still be made. -/
  isOpen : Bool := true
  deriving DecidableEq, Repr

namespace Board

def post (c : Claim) (b : Board) : Board := { b with newest := c, changes := b.changes + 1 }

def close (b : Board) : Board := { b with isOpen := false }

end Board

/-- How a wait ended: as hoped, or because no claim can bring that about any more. -/
inductive Verdict where
  | ok
  | stopped
  deriving DecidableEq, Repr

def Verdict.message? : Verdict → Option String
  | .ok => none
  | .stopped => some "lease manager stopped"

inductive Phase where
  /-- The lease has not been seen to be held. -/
  | seeking
  /-- The lease is held, as far as has been seen. -/
  | holding
  | over (verdict : Verdict)
  deriving DecidableEq, Repr

structure Wait where
  hostname : String
  /-- Whether the lease has to be lost again. -/
  untilLost : Bool
  /-- The change of the board that was looked at last. -/
  seen : Option Nat := none
  phase : Phase := .seeking
  deriving DecidableEq, Repr

namespace Wait

/-- Waits until the lease is held. -/
def acquired (hostname : String) : Wait := { hostname, untilLost := false }

/-- Waits until the lease has been held and is lost. -/
def lost (hostname : String) : Wait := { hostname, untilLost := true }

/-- What a claim that is looked at changes. -/
def afterClaim (w : Wait) (isCurrent : Bool) : Phase :=
  match w.phase, isCurrent with
  | .seeking, true => if w.untilLost then .holding else .over .ok
  | .holding, false => .over .ok
  | phase, _ => phase

/-- Looks at the newest claim, unless that was done before. -/
def look (now : Instant) (b : Board) (w : Wait) : Wait :=
  if w.seen = some b.changes then w
  else
    { w with
      seen := some b.changes
      phase := w.afterClaim (b.newest.isCurrentFor w.hostname now) }

/-- Lets a wait get as far as it can. That no claim will come is noticed after the last one. -/
def poll (now : Instant) (b : Board) (w : Wait) : Wait :=
  match w.phase with
  | .over _ => w
  | _ =>
    let w := w.look now b
    match w.phase with
    | .over _ => w
    | _ => if b.isOpen then w else { w with phase := .over .stopped }

def verdict? (w : Wait) : Option Verdict :=
  match w.phase with
  | .over v => some v
  | _ => none

end Wait

/-- The name under which a replica takes part, which it needs only if there is to be a leader. -/
def identity (isEnabled : Bool) (hostname : Option String) : Except String (Option String) :=
  if !isEnabled then .ok none
  else
    match hostname.filter (!·.isEmpty) with
    | some name => .ok (some name)
    | none => .error "Failed to fetch `HOSTNAME` environment variable"

end PodSizing.Lease
