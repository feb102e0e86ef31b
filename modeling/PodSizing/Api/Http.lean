import PodSizing.Api.Request
import PodSizing.Json.Reader

/-!
# The server's wire format

How requests for pods are sent to the server, and what its responses mean. A refusal says why in a
record of its own; one that cannot be read is described by the response itself.
-/
namespace PodSizing

structure HttpRequest where
  method : String
  path : String
  query : List (String × String) := []
  contentType : Option String := none
  body : Option Json := none

namespace HttpRequest

def podPath (id : PodId) : String := "/api/v1/namespaces/" ++ id.namespaceName ++ "/pods/" ++ id.name

/-- Who is said to own the fields that a patch sets. -/
def manager : List (String × String) := [("fieldManager", "startup-scaler")]

def get (id : PodId) : HttpRequest := { method := "GET", path := podPath id }

def resize (id : PodId) (patch : ResizePatch) : HttpRequest where
  method := "PATCH"
  path := podPath id ++ "/resize"
  query := manager
  contentType := some "application/strategic-merge-patch+json"
  body := some patch.toJson

def patchMetadata (id : PodId) (patch : MetadataPatch) : HttpRequest where
  method := "PATCH"
  path := podPath id
  query := manager
  contentType := some "application/merge-patch+json"
  body := some patch.toJson

end HttpRequest

structure HttpResponse where
  status : Nat
  body : String
  deriving DecidableEq, Repr

namespace HttpResponse
open Json (fields? given? givenOr? readString?)

/-- A code of 16 bits. -/
def readCode? : Json → Option Nat
  | .num (.whole n) => if 0 ≤ n && n ≤ Text.maxNat16 then some n.toNat else none
  | _ => none

/-- The code, reason and message of a refusal. -/
def refusal? (j : Json) : Option ApiFailure := do
  match ← fields? ["status", "message", "reason", "code"] j with
  | [status, message, reason, code] =>
    let _ ← given? readString? status
    let message ← givenOr? "" readString? message
    let reason ← givenOr? "" readString? reason
    let code ← given? readCode? code
    some (.refused code reason message)
  | _ => none

/-- A refusal that does not say why. -/
def unexplained (r : HttpResponse) : ApiFailure :=
  .refused r.status "Failed to parse error data" (Text.quote r.body)

/-- The pod that a response gives. -/
def pod (r : HttpResponse) : Except ApiFailure Pod :=
  if 400 ≤ r.status && r.status < 600 then
    .error (((Json.parse? r.body).bind refusal?).getD r.unexplained)
  else
    match (Json.parse? r.body).bind Pod.ofJson? with
    | some p => .ok p
    | none => .error .unreadable

end HttpResponse
end PodSizing
