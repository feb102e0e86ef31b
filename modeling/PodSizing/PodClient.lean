import PodSizing.Mutation
import PodSizing.Retry

/-!
# Reading and writing pods

The requests by which pods are read and changed, and the ways in which they fail. Who answers them
is left open: a server behind a cache, or a store in memory.
-/
namespace PodSizing

/-- How a request to the server fails. -/
inductive ApiFailure where
  /-- The server refused. -/
  | refused (code : Nat) (reason message : String)
  /-- There was no answer. -/
  | transport
  /-- The answer is no pod. -/
  | unreadable
  /-- There was nothing that could be asked. -/
  | unaskable
  | other
  deriving DecidableEq, Repr

inductive ClientError where
  | api (failure : ApiFailure)
  | shape (error : ShapeError)
  | notFound (id : PodId)
  deriving DecidableEq, Repr

namespace ClientError

/-- The text of an error, unless the server or the way to it has chosen the words. -/
def message? : ClientError → Option String
  | .api _ => none
  | .shape e => some ("failed to mutate pod: " ++ e.message)
  | .notFound id => some ("pod " ++ id.display ++ " no longer exists")

/-- Why the request may succeed when it is tried again. -/
def retryReason? : ClientError → Option RetryReason
  | .api (.refused code _ _) =>
    if code = 409 then some .conflict
    else if code = 429 then some .throttled
    else if 500 ≤ code then some .serverError
    else none
  | .api .transport => some .transport
  | _ => none

def isConflict : ClientError → Bool
  | .api (.refused code _ _) => code == 409
  | _ => false

def isNotFound : ClientError → Bool
  | .api (.refused code _ _) => code == 404
  | _ => false

end ClientError

/-- On whose behalf requests are made, and how often they may be tried. -/
structure Context where
  id : PodId
  retry : RetryPolicy
  deriving DecidableEq, Repr

/-- A pod as it is after a write, and what the mutators observed when they were applied last. -/
structure Written where
  pod : Pod
  observations : List Observation := []
  deriving DecidableEq

inductive PodRequest where
  | get (context : Context)
  /-- Applies mutators to a pod and writes the result if one of them says so. -/
  | patch (context : Context) (base : Pod) (mutators : List Mutator)
      (touchesResize awaitsSync : Bool)
  /-- Sets resources of a container, applies mutators and writes the result. -/
  | resize (context : Context) (base : Pod) (container : String) (updates : List ResourceUpdate)
      (mutators : List Mutator) (awaitsSync : Bool)
  | record (events : List Event)

/-- A pod that does not exist is no failure to get it. -/
abbrev podSignature : Signature where
  Request := PodRequest
  Answer
    | .get _ => Except ClientError (Option Pod)
    | .patch .. | .resize .. => Except ClientError Written
    | .record _ => Unit

abbrev PodProgram (α : Type) := Program podSignature α

namespace PodProgram

def get (context : Context) : PodProgram (Except ClientError (Option Pod)) :=
  .call (.get context) .done

def patch (context : Context) (base : Pod) (mutators : List Mutator)
    (touchesResize awaitsSync : Bool) : PodProgram (Except ClientError Written) :=
  .call (.patch context base mutators touchesResize awaitsSync) .done

def resize (context : Context) (base : Pod) (container : String) (updates : List ResourceUpdate)
    (mutators : List Mutator) (awaitsSync : Bool) : PodProgram (Except ClientError Written) :=
  .call (.resize context base container updates mutators awaitsSync) .done

def record (events : List Event) : PodProgram Unit := .call (.record events) .done

end PodProgram
end PodSizing
