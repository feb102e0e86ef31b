import PodSizing.Text.Basic
import PodSizing.Text.Quoted

/-!
# Managed resources

The resources whose allocation follows a container's startup, and the keys under which a pod's
owner configures them. Processor time comes before memory.
-/
namespace PodSizing

inductive ResourceName where
  | cpu
  | memory
  deriving DecidableEq, Repr, Inhabited

namespace Key

/-- Pods opt in with this label. -/
def enabled : String := "startup-scaler.io/enabled"

def targetContainerName : String := "startup-scaler.io/target-container-name"

/-- The record of what has been done, kept on the pod. -/
def status : String := "startup-scaler.io/status"

/-- Marks of a vertical autoscaler; a pod with one of them is left alone. -/
def autoscalerMarks : List String := ["vpaObservedContainers", "vpaUpdates"]

end Key

namespace ResourceName

def all : List ResourceName := [.cpu, .memory]

def text : ResourceName → String
  | .cpu => "cpu"
  | .memory => "memory"

def startupKey : ResourceName → String
  | .cpu => "startup-scaler.io/cpu-startup"
  | .memory => "startup-scaler.io/memory-startup"

def postStartupRequestsKey : ResourceName → String
  | .cpu => "startup-scaler.io/cpu-post-startup-requests"
  | .memory => "startup-scaler.io/memory-post-startup-requests"

def postStartupLimitsKey : ResourceName → String
  | .cpu => "startup-scaler.io/cpu-post-startup-limits"
  | .memory => "startup-scaler.io/memory-post-startup-limits"

def keys (r : ResourceName) : List String :=
  [r.startupKey, r.postStartupRequestsKey, r.postStartupLimitsKey]

def ofText? (s : String) : Option ResourceName := all.find? fun r => r.text = s

/-- A name without its outer blanks; the error says what remains of another text. -/
def parse (s : String) : Except String ResourceName :=
  match ofText? (Text.trim s) with
  | some r => .ok r
  | none => .error ("unsupported resource name " ++ Text.quote (Text.trim s))

/-- Whether the first may stand before the second. -/
def inOrder : ResourceName → ResourceName → Bool
  | .memory, .cpu => false
  | _, _ => true

/-- The names of a list that has commas between them, in order and each once. Blank parts count
for nothing, but a list needs at least one name. -/
def parseList (s : String) : Except String (List ResourceName) := do
  let parts := (Text.splitAt ',' s.toList).filter fun part => !(Text.trimChars part).isEmpty
  let named ← parts.mapM fun part => parse (String.ofList part)
  match (named.mergeSort inOrder).eraseReps with
  | [] => .error "at least one resource must be enabled"
  | names => .ok names

end ResourceName
end PodSizing
