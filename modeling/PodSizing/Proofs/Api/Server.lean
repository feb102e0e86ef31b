import PodSizing.Api.Client
import PodSizing.Proofs.Keyed
import PodSizing.Proofs.Pod.Frame

/-!
# A server with other writers

A server that merges patches into stored pods, refuses those made for another version, and never gives
a version twice. Other writers come in before every request, requests may be refused, and answers may
be lost after the request has been carried out. What the server has told and done is kept in a log, so
that what a client brings about can be read off it.
-/
namespace PodSizing
open Time (Instant)

def mergeTable (stored : Option (Keyed String)) : Option (Keyed String) → Option (Keyed String)
  | none => stored
  | some patch => some ((stored.getD .empty).overlay patch)

def mergeMember (stored : Option (Keyed String)) :
    Option (Option (Keyed String)) → Option (Keyed String)
  | none => stored
  | some none => none
  | some (some patch) => mergeTable stored (some patch)

def mergeResources (stored : Option Resources) : Option Resources → Option Resources
  | none => none
  | some patch => some
    { requests := mergeTable (stored.bind (·.requests)) patch.requests
      limits := mergeTable (stored.bind (·.limits)) patch.limits
      claims := patch.claims.orElse fun _ => stored.bind (·.claims) }

def Container.mergeFrom (c : Container) (patches : List (String × Option Resources)) : Container :=
  match patches.lookup c.name with
  | some patch => { c with resources := mergeResources c.resources patch }
  | none => c

/-- Containers are merged by name, and none can be added. -/
def ResizePatch.merge? (patch : ResizePatch) (p : Pod) : Option Pod :=
  if patch.containers.all fun c => p.isContainerInSpec c.1 then
    some (p.mapContainers (·.map (·.mergeFrom patch.containers)))
  else none

def MetadataPatch.merge (patch : MetadataPatch) (p : Pod) : Pod :=
  { p with
    metadata :=
      { p.metadata with
        labels := mergeMember p.metadata.labels patch.labels
        annotations := mergeMember p.metadata.annotations patch.annotations } }

inductive Patch where
  | resize (patch : ResizePatch)
  | metadata (patch : MetadataPatch)

namespace Patch

def version : Patch → Option String
  | .resize patch => patch.version
  | .metadata patch => patch.version

/-- What a patch makes of a pod, if it can be applied. -/
def merge? : Patch → Pod → Option Pod
  | .resize patch, p => patch.merge? p
  | .metadata patch, p => some (patch.merge p)

end Patch

/-- What another writer does. -/
inductive Change where
  | put (p : Pod)
  | delete (id : PodId)

/-- What becomes of a request. -/
inductive Verdict where
  | answer
  /-- It is not carried out. -/
  | refuse (failure : ApiFailure)
  /-- It is carried out, but answered with a failure. -/
  | lose (failure : ApiFailure)

/-- What is decided outside of server and client, request by request. -/
structure World where
  /-- The versions that the server gives, in order. -/
  version : Nat → String
  fresh : ∀ m n, version m = version n → m = n
  /-- What others write before a request. -/
  others : Nat → List Change
  verdict : Nat → Verdict
  /-- Whether a write gets a new version even if it changes nothing. -/
  renews : Nat → Bool
  clock : Nat → Instant
  cached : Nat → Option String

/-- What has passed between client and server: the time was told, a pod was read, or a patch was
carried out on a stored pod. -/
inductive Exchange where
  | told (now : Instant)
  | got (id : PodId) (pod : Pod)
  | patched (id : PodId) (patch : Patch) (before after : Pod)

structure Server where
  pods : PodId → Option Pod := fun _ => none
  /-- All pods that were ever stored, as they were. -/
  history : List Pod := []
  /-- How many versions have been given. -/
  writes : Nat := 0
  /-- How many requests have been made. -/
  turn : Nat := 0
  /-- The newest first. -/
  log : List Exchange := []

namespace Server
variable (w : World)

def store (p : Pod) (s : Server) : Server :=
  let p := p.withVersion (some (w.version s.writes))
  { s with
    pods := fun id => if id = p.id then some p else s.pods id
    history := p :: s.history
    writes := s.writes + 1 }

def accepts (p : Pod) : Bool := decide (p.containers.map (·.name)).Nodup

def change (s : Server) : Change → Server
  | .put p => if accepts p then s.store w p else s
  | .delete id => { s with pods := fun i => if i = id then none else s.pods i }

def advance (s : Server) : Server :=
  (w.others s.turn).foldl (change w) { s with turn := s.turn + 1 }

def missing : ApiFailure := .refused 404 "NotFound" "pod not found"

def conflict : ApiFailure := .refused 409 "Conflict" "the pod has been modified"

def invalid : ApiFailure := .refused 422 "Invalid" "a container is not in the pod"

def get (id : PodId) (s : Server) : Except ApiFailure Pod × Server :=
  let after := s.advance w
  match w.verdict s.turn, after.pods id with
  | .answer, some p => (.ok p, { after with log := .got id p :: after.log })
  | .answer, none => (.error missing, after)
  | .refuse failure, _ | .lose failure, _ => (.error failure, after)

def commit (renews : Bool) (before merged : Pod) (s : Server) : Pod × Server :=
  if merged = before && !renews then (before, s)
  else (merged.withVersion (some (w.version s.writes)), s.store w merged)

def carryOut (renews : Bool) (id : PodId) (patch : Patch) (s : Server) :
    Except ApiFailure Pod × Server :=
  match s.pods id with
  | none => (.error missing, s)
  | some before =>
    if patch.version.isSome && patch.version ≠ before.resourceVersion then (.error conflict, s)
    else
      match patch.merge? before with
      | none => (.error invalid, s)
      | some merged =>
        let (after, s) := s.commit w renews before merged
        (.ok after, { s with log := .patched id patch before after :: s.log })

def patch (id : PodId) (patch : Patch) (s : Server) : Except ApiFailure Pod × Server :=
  let (result, after) := (s.advance w).carryOut w (w.renews s.turn) id patch
  match w.verdict s.turn with
  | .answer => (result, after)
  | .refuse failure => (.error failure, s.advance w)
  | .lose failure => (.error failure, after)

def handle : (request : ApiRequest) → Server → apiSignature.Answer request × Server
  | .get id, s => s.get w id
  | .resize id patch, s => s.patch w id (.resize patch)
  | .patchMetadata id patch, s => s.patch w id (.metadata patch)
  | .clock, s =>
    (w.clock s.turn, { s with turn := s.turn + 1, log := .told (w.clock s.turn) :: s.log })
  | .cachedVersion _, s => (w.cached s.turn, { s with turn := s.turn + 1 })
  | .sleep _, s => ((), s)
  | .record _, s => ((), s)

end Server

end PodSizing
