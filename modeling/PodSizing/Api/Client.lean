import PodSizing.Api.CacheSync

/-!
# The client of the server

Carries out pod requests by requests to the server. A write that fails for a reason that may pass is
tried again on the pod as it is by then. Resources and metadata are written one after the other, the
second against the version that the first has made.
-/
namespace PodSizing

namespace ApiClient
variable {α : Type}

/-- Carries out what retrying an operation asks for. -/
def retryStep (operation : Nat → ApiProgram (Except ClientError α)) :
    (request : Retry.Request) → ApiProgram ((Retry.signature ClientError α).Answer request)
  | .attempt n => operation n
  | .pause millis => ApiProgram.sleep millis
  | .count reason => ApiProgram.record [.retried reason]

/-- Tries an operation as often as a policy allows. -/
def retried (policy : RetryPolicy) (operation : Nat → ApiProgram (Except ClientError α)) :
    ApiProgram (Except ClientError α) :=
  (Retry.attempts policy ClientError.retryReason?).interpret (retryStep operation)

/-- The pod of a name, if it exists. -/
def fetch (id : PodId) : ApiProgram (Except ClientError (Option Pod)) := do
  match ← ApiProgram.get id with
  | .ok p => return .ok (some p)
  | .error (.refused code reason message) =>
    if reason = "NotFound" then return .ok none
    else return .error (.api (.refused code reason message))
  | .error e => return .error (.api e)

/-- The pod that a write leaves behind, if there was anything to write, and the observations of the
mutators. -/
structure Attempt where
  written : Option Pod
  observations : List Observation
  deriving DecidableEq

/-- Sends a patch of resources if there is one; with none, there is no pod. -/
def sendResize (id : PodId) :
    Option ResizePatch → ApiProgram (Except ClientError (Option Pod))
  | none => return .ok none
  | some patch => return ((← ApiProgram.resize id patch).map some).mapError .api

def sendMetadata (id : PodId) :
    Option MetadataPatch → ApiProgram (Except ClientError (Option Pod))
  | none => return .ok none
  | some patch => return ((← ApiProgram.patchMetadata id patch).map some).mapError .api

/-- Writes what makes one pod into another, and gives the pod as it was written last. -/
def send (id : PodId) (before after : Pod) (touchesResize : Bool) :
    ApiProgram (Except ClientError Pod) := do
  let version := before.resourceVersion
  let resize := if touchesResize then ResizePatch.between? before after version else none
  match ← sendResize id resize with
  | .error e => return .error e
  | .ok resized =>
    let version := (resized.map (·.resourceVersion)).getD version
    match ← sendMetadata id (MetadataPatch.between? before after version) with
    | .error e => return .error e
    | .ok patched => return .ok ((patched.orElse fun _ => resized).getD after)

/-- Mutates a pod and writes what has changed. -/
def write (namespaceName : String) (base : Pod) (mutators : List Mutator) (touchesResize : Bool) :
    ApiProgram (Except ClientError Attempt) := do
  let now ← ApiProgram.clock
  match Mutator.applyAll mutators now base with
  | .error e => return .error (.shape e)
  | .ok edit =>
    if edit.changed then
      let sent ← send ⟨namespaceName, base.effectiveName⟩ base edit.pod touchesResize
      return sent.map fun p => ⟨some p, edit.observations⟩
    else return .ok ⟨none, edit.observations⟩

/-- One attempt at a write: the first on the pod that was given, any other on the latest. -/
def attempt (id : PodId) (given : Pod) (mutators : List Mutator) (touchesResize : Bool) (n : Nat) :
    ApiProgram (Except ClientError Attempt) := do
  if n = 1 then write id.namespaceName given mutators touchesResize
  else
    match ← fetch id with
    | .error e => return .error e
    | .ok none => return .error (.notFound id)
    | .ok (some latest) => write id.namespaceName latest mutators touchesResize

/-- Waits for the cache to hold a pod, if that is asked for. -/
def awaitSync (sync : CacheSync) (id : PodId) (awaits : Bool) (p : Pod) : ApiProgram Unit :=
  match awaits, p.resourceVersion with
  | true, some version => do
    let _ ← sync.wait id version
    return ()
  | _, _ => return ()

def patch (sync : CacheSync) (context : Context) (given : Pod) (mutators : List Mutator)
    (touchesResize awaits : Bool) : ApiProgram (Except ClientError Written) := do
  match ← retried context.retry (attempt context.id given mutators touchesResize) with
  | .error e => return .error e
  | .ok ⟨none, observations⟩ => return .ok ⟨given, observations⟩
  | .ok ⟨some p, observations⟩ => do
    awaitSync sync context.id awaits p
    return .ok ⟨p, observations⟩

/-- Carries out a pod request. -/
def handle (sync : CacheSync) :
    (request : PodRequest) → ApiProgram (podSignature.Answer request)
  | .get context => retried context.retry fun _ => fetch context.id
  | .patch context base mutators touchesResize awaits =>
    patch sync context base mutators touchesResize awaits
  | .resize context base container updates mutators awaits =>
    patch sync context base (.resources container updates :: mutators) true awaits
  | .record events => .record events

end ApiClient

/-- A pod program carried out by requests to the server. -/
def PodProgram.overApi {α : Type} (sync : CacheSync) (p : PodProgram α) : ApiProgram α :=
  p.interpret (ApiClient.handle sync)

end PodSizing
