import PodSizing.Api.Patch
import PodSizing.PodClient

/-!
# Requests to the server

What a client of the server can ask for. Besides pods it asks for the time, for a pause, and for the
version of a pod that the cache holds.
-/
namespace PodSizing
open Time (Instant)

inductive ApiRequest where
  | get (id : PodId)
  | resize (id : PodId) (patch : ResizePatch)
  | patchMetadata (id : PodId) (patch : MetadataPatch)
  | clock
  | sleep (millis : Nat)
  | cachedVersion (id : PodId)
  | record (events : List Event)

/-- The server answers with the pod as it is after the request. -/
abbrev apiSignature : Signature where
  Request := ApiRequest
  Answer
    | .get _ | .resize _ _ | .patchMetadata _ _ => Except ApiFailure Pod
    | .clock => Instant
    | .cachedVersion _ => Option String
    | .sleep _ | .record _ => Unit

abbrev ApiProgram (α : Type) := Program apiSignature α

namespace ApiProgram

/-- A pod without a name cannot be asked for. -/
def named (id : PodId) (request : ApiProgram (Except ApiFailure Pod)) :
    ApiProgram (Except ApiFailure Pod) :=
  if id.name.isEmpty then .done (.error .unaskable) else request

def get (id : PodId) : ApiProgram (Except ApiFailure Pod) := named id (.call (.get id) .done)

def resize (id : PodId) (patch : ResizePatch) : ApiProgram (Except ApiFailure Pod) :=
  named id (.call (.resize id patch) .done)

def patchMetadata (id : PodId) (patch : MetadataPatch) : ApiProgram (Except ApiFailure Pod) :=
  named id (.call (.patchMetadata id patch) .done)

def clock : ApiProgram Instant := .call .clock .done

def sleep (millis : Nat) : ApiProgram Unit := .call (.sleep millis) .done

def cachedVersion (id : PodId) : ApiProgram (Option String) := .call (.cachedVersion id) .done

def record (events : List Event) : ApiProgram Unit := .call (.record events) .done

end ApiProgram
end PodSizing
