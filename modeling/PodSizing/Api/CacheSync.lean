import PodSizing.Api.Request

/-!
# Waiting for the cache

After a write the cache is asked again and again until it holds the written version or a later one,
for a bounded time. The last look is at the deadline itself.
-/
namespace PodSizing

structure CacheSync where
  timeoutMillis : Nat := 3000
  stepMillis : Nat := 100
  step_pos : 0 < stepMillis := by decide

namespace CacheSync

/-- A version as a number, which versions of a server count up. -/
def versionNumber? (version : String) : Option Nat :=
  (Text.readNatural Text.maxNat64 version.toList).toOption

/-- Whether a cached version is the written one or is known to be later. -/
def isObserved (cached written : String) : Bool :=
  cached = written ||
    match versionNumber? cached, versionNumber? written with
    | some c, some w => w < c
    | _, _ => false

/-- Looks, after so many looks before, with so much time left. -/
def waitFrom (sync : CacheSync) (id : PodId) (written : String) (polls remaining : Nat) :
    ApiProgram Bool :=
  .call (.cachedVersion id) fun cached =>
    if cached.any (isObserved · written) then
      .call (.record [.syncPolled (polls + 1)]) fun _ => .done true
    else if remaining = 0 then .call (.record [.syncTimedOut]) fun _ => .done false
    else
      .call (.sleep (min sync.stepMillis remaining)) fun _ =>
        waitFrom sync id written (polls + 1) (remaining - min sync.stepMillis remaining)
termination_by remaining
decreasing_by
  have := sync.step_pos
  omega

/-- Whether the cache comes to hold the written version of a pod in time. -/
def wait (sync : CacheSync) (id : PodId) (written : String) : ApiProgram Bool :=
  sync.waitFrom id written 0 sync.timeoutMillis

end CacheSync
end PodSizing
