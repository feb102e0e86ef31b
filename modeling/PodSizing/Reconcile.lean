import PodSizing.Classification
import PodSizing.Eligibility
import PodSizing.Routing

/-!
# Reconciling

One look at a pod: read it, its configuration and its states, and carry out what they call for. The
outcome says when to look again. A pod that cannot be managed is told why, and left alone until it
changes.
-/
namespace PodSizing

structure ReconcileConfig where
  /-- The resources that are managed; pods must not configure others. -/
  enabled : List ResourceName
  retry : RetryPolicy := .standard
  /-- When to look again at a pod that could not be read. -/
  requeueMillis : Nat := 1000
  /-- When to look again at a pod that is as it should be. -/
  resyncMillis : Nat := 3600000
  scaleUnknown : Bool := false
  awaitedMessage : String := ""
  deriving DecidableEq, Repr

inductive ReconcileError where
  | podDoesNotExist
  | configuration (error : ScaleConfigError)
  | validation (error : Ineligibility)
  | statesDetermination (error : ClassificationError)
  | statesAction (error : ActionError)
  deriving DecidableEq, Repr

namespace ReconcileError

def failure : ReconcileError → ReconcileFailure
  | .podDoesNotExist => .podDoesNotExist
  | .configuration _ => .configuration
  | .validation _ => .validation
  | .statesDetermination _ => .statesDetermination
  | .statesAction _ => .statesAction

def message? : ReconcileError → Option String
  | .podDoesNotExist => some "pod does not exist"
  | .configuration e => some ("configuration error: " ++ e.message)
  | .validation e => some ("validation error: " ++ e.message)
  | .statesDetermination e => some ("unable to determine states: " ++ e.message)
  | .statesAction e => e.message?.map ("unable to action states: " ++ ·)

end ReconcileError

inductive Outcome where
  | done
  | requeue (afterMillis : Nat)
  | terminal (error : ReconcileError)
  deriving DecidableEq, Repr

namespace Reconcile

/-- What the annotations and the shape of a pod say, if it may be managed. -/
def examine (config : ReconcileConfig) (p : Pod) :
    Except ReconcileError (ScaleConfigs × String) := do
  let configs ← (ScaleConfigs.ofPod p config.enabled).mapError .configuration
  let name ← configs.targetName.mapError .configuration
  (p.validate name configs).mapError .validation
  return (configs, name)

/-- The status that tells a pod's owner why it is not managed. -/
def refusal (config : ReconcileConfig) (e : ReconcileError) : StatusUpdate :=
  ⟨e.message?.getD "", {}, .notApplicable, config.enabled⟩

/-- Looks at a pod that has been read. -/
def reconcilePod (config : ReconcileConfig) (context : Context) (p : Pod) : PodProgram Outcome :=
  match examine config p with
  | .error e => do
    Routing.writeStatus context p (refusal config e)
    return .terminal e
  | .ok (configs, name) =>
    match p.classify name configs config.awaitedMessage with
    | .error e => return .terminal (.statesDetermination e)
    | .ok states => do
      match ← Routing.route config.scaleUnknown context ⟨p, name, configs, states⟩ with
      | .ok _ => return .done
      | .error e => return .terminal (.statesAction e)

/-- What follows from the answer to reading a pod. -/
def afterGet (config : ReconcileConfig) (context : Context) :
    Except ClientError (Option Pod) → PodProgram Outcome
  | .ok (some p) => reconcilePod config context p
  | .ok none => return .terminal .podDoesNotExist
  | .error _ => do
    PodProgram.record [.reconcileFailed .unableToGetPod]
    return .requeue config.requeueMillis

/-- Counts an outcome that is terminal. -/
def countTerminal (outcome : Outcome) : PodProgram Outcome :=
  match outcome with
  | .terminal e => .call (.record [.reconcileFailed e.failure]) fun _ => .done outcome
  | .done | .requeue _ => .done outcome

/-- One reconcile of a pod, from reading it to its outcome. -/
def reconcile (config : ReconcileConfig) (id : PodId) : PodProgram Outcome := do
  let context : Context := ⟨id, config.retry⟩
  let answer ← PodProgram.get context
  countTerminal (← afterGet config context answer)

end Reconcile
end PodSizing
