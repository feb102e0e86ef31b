import PodSizing.Decimal

/-!
# Metrics

What is counted is kept as the list of events in the order in which they happened. Counters and
histograms are views of that list, with a text exposition.
-/
namespace PodSizing

/-- Whether a scale raises resources for startup or lowers them after it. -/
inductive Direction where
  | up
  | down
  deriving DecidableEq, Repr

namespace Direction

def text : Direction → String
  | .up => "up"
  | .down => "down"

/-- The phase whose resources a scale in this direction applies. -/
def phase : Direction → String
  | .up => "startup"
  | .down => "post-startup"

end Direction

/-- Why the kubelet could not enact a scale. -/
inductive FailureReason where
  | infeasible
  | error
  deriving DecidableEq, Repr

def FailureReason.text : FailureReason → String
  | .infeasible => "infeasible"
  | .error => "error"

/-- How a scale that was commanded ended. -/
inductive ScaleOutcome where
  | success
  | failure
  deriving DecidableEq, Repr

def ScaleOutcome.text : ScaleOutcome → String
  | .success => "success"
  | .failure => "failure"

/-- What a status update lets a pod's scale be seen to do. -/
inductive Observation where
  | commandedUnknown
  | duration (direction : Direction) (outcome : ScaleOutcome) (millis : Nat)
  | failure (direction : Direction) (reason : FailureReason)
  deriving DecidableEq, Repr

/-- Why a request may be tried again. -/
inductive RetryReason where
  | conflict
  | throttled
  | serverError
  | transport
  deriving DecidableEq, Repr

namespace RetryReason

def text : RetryReason → String
  | .conflict => "conflict"
  | .throttled => "throttled"
  | .serverError => "server_error"
  | .transport => "transport"

def all : List RetryReason := [.conflict, .throttled, .serverError, .transport]

end RetryReason

/-- Why a reconcile did not succeed. -/
inductive ReconcileFailure where
  | unableToGetPod
  | podDoesNotExist
  | configuration
  | validation
  | statesDetermination
  | statesAction
  deriving DecidableEq, Repr

def ReconcileFailure.text : ReconcileFailure → String
  | .unableToGetPod => "unable_to_get_pod"
  | .podDoesNotExist => "pod_does_not_exist"
  | .configuration => "configuration"
  | .validation => "validation"
  | .statesDetermination => "states_determination"
  | .statesAction => "states_action"

inductive Event where
  | skippedOnlyStatusChange
  | existingInProgress
  | reconcileFailed (reason : ReconcileFailure)
  | retried (reason : RetryReason)
  | scale (observation : Observation)
  | syncTimedOut
  | syncPolled (polls : Nat)
  deriving DecidableEq, Repr

namespace Metrics

abbrev Labels := List (String × String)

/-- A counter counts events, and a histogram the thousandths that come with them. -/
inductive Family where
  | counter (name help : String) (count : Event → Bool)
  | labelledCounter (name help : String) (labels : Event → Option Labels)
  | histogram (name help : String) (value : Event → Option Nat)
  | labelledHistogram (name help : String) (value : Event → Option (Labels × Nat))

def reconcileLabels : Event → Option Labels
  | .reconcileFailed reason => some [("reason", reason.text)]
  | _ => none

def retryLabels : Event → Option Labels
  | .retried reason => some [("reason", reason.text)]
  | _ => none

def failureLabels : Event → Option Labels
  | .scale (.failure direction reason) =>
    some [("direction", direction.text), ("reason", reason.text)]
  | _ => none

def durationOf : Event → Option (Labels × Nat)
  | .scale (.duration direction outcome millis) =>
    some ([("direction", direction.text), ("outcome", outcome.text)], millis)
  | _ => none

def pollsOf : Event → Option Nat
  | .syncPolled polls => some (1000 * polls)
  | _ => none

def families : List Family :=
  [.counter "reconciler_skipped_only_status_change"
      "Count of pod updates skipped because only the status annotation changed"
      (· == .skippedOnlyStatusChange),
   .counter "reconciler_existing_in_progress"
      "Count of reconciles deferred because the pod was already being reconciled"
      (· == .existingInProgress),
   .labelledCounter "reconciler_failure" "Count of failed reconciles, by reason" reconcileLabels,
   .labelledCounter "retrykubeapi_retry"
      "Number of Kubernetes API operations retried, by reason" retryLabels,
   .labelledCounter "scale_failure"
      "Number of scales the kubelet failed to enact, by direction and reason" failureLabels,
   .counter "scale_commanded_unknown_resources"
      "Number of scales commanded while the applied resources were unrecognised"
      (· == .scale .commandedUnknown),
   .labelledHistogram "scale_duration_seconds"
      "Time from a scale being commanded to it being enacted or failing" durationOf,
   .counter "informercache_sync_timeout"
      "Count of writes the informer cache did not observe in time" (· == .syncTimedOut),
   .histogram "informercache_sync_poll" "Number of cache polls needed to observe a write" pollsOf]

inductive Value where
  | count (n : Nat)
  /-- A sum, if it is finite. -/
  | sum (d : Option Decimal)
  deriving DecidableEq, Repr

namespace Value

def text : Value → String
  | .count n => String.ofList (Text.numeral n)
  | .sum d => d.elim "inf" fun d => String.ofList d.write

def isZero : Value → Bool
  | .count n => n == 0
  | .sum d => d.any (·.digits == 0)

end Value

structure Sample where
  name : String
  labels : Labels
  value : Value
  deriving DecidableEq, Repr

/-- The upper bounds of a histogram's buckets, short of infinity. -/
def bounds : List Nat := [1, 2, 4, 8, 16, 32, 64, 128]

/-- The sum of thousandths in whole units, where each of them and each sum is rounded in turn. -/
def sum? (thousandths : List Nat) : Option BinaryFraction :=
  thousandths.foldlM (fun sum n => do
    let thousandths ← BinaryFraction.nearest? n 1
    sum.add? (← thousandths.divide? 1000)) .zero

def histogramSamples (name : String) (labels : Labels) (values : List Nat) : List Sample :=
  let bucket (bound : String) (n : Nat) : Sample :=
    ⟨name ++ "_bucket", ("le", bound) :: labels, .count n⟩
  bounds.map (fun b =>
      bucket (String.ofList (Text.numeral b) ++ ".0") (values.countP (· ≤ 1000 * b))) ++
    [bucket "+Inf" values.length, ⟨name ++ "_count", labels, .count values.length⟩,
     ⟨name ++ "_sum", labels, .sum ((sum? values).map .ofFraction)⟩]

namespace Family

def name : Family → String
  | .counter name .. | .labelledCounter name .. | .histogram name .. | .labelledHistogram name .. =>
    name

def help : Family → String
  | .counter _ help _ | .labelledCounter _ help _ | .histogram _ help _
  | .labelledHistogram _ help _ => help

def kind : Family → String
  | .counter .. | .labelledCounter .. => "counter"
  | .histogram .. | .labelledHistogram .. => "histogram"

/-- A family with labels has samples only for the labels that have been seen. -/
def samples (events : List Event) : Family → List Sample
  | .counter name _ count => [⟨name ++ "_total", [], .count (events.countP count)⟩]
  | .labelledCounter name _ labels =>
    let seen := events.filterMap labels
    seen.eraseDups.map fun l => ⟨name ++ "_total", l, .count (seen.count l)⟩
  | .histogram name _ value => histogramSamples name [] (events.filterMap value)
  | .labelledHistogram name _ value =>
    let seen := events.filterMap value
    (seen.map (·.1)).eraseDups.flatMap fun l =>
      histogramSamples name l ((seen.filter (·.1 == l)).map (·.2))

end Family

def samples (events : List Event) : List Sample := families.flatMap (·.samples events)

def labelText (labels : List String) : String :=
  if labels.isEmpty then "" else "\x7b" ++ ",".intercalate labels ++ "\x7d"

def Sample.labelTexts (s : Sample) : List String :=
  s.labels.map fun l => l.1 ++ "=\"" ++ l.2 ++ "\""

/-- The lines of the text exposition. -/
def exposition (events : List Event) : List String :=
  families.flatMap (fun f =>
      ["# HELP " ++ f.name ++ " " ++ f.help ++ ".", "# TYPE " ++ f.name ++ " " ++ f.kind]) ++
    (samples events).map (fun s => s.name ++ labelText s.labelTexts ++ " " ++ s.value.text) ++
    ["# EOF"]

end Metrics
end PodSizing
