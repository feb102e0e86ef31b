import PodSizing.CommandLine
import PodSizing.Json.Record
import PodSizing.Reconcile
import PodSizing.Settings.SocketAddress
import PodSizing.Text.Basic

/-!
# Settings

What can be set about the controller, and the flags and variables that set it.
-/
namespace PodSizing

inductive LogFormat where
  | plain
  | json
  deriving DecidableEq, Repr

def LogFormat.text : LogFormat → String
  | .plain => "plain"
  | .json => "json"

/-- Which cluster is spoken to, and as whom. -/
structure ClusterAccess where
  cluster : Option String := none
  context : Option String := none
  user : Option String := none
  impersonatedUser : Option String := none
  impersonatedGroups : List String := []
  configPath : Option String := none
  deriving DecidableEq, Repr

structure Settings where
  logFilter : Option String := none
  verbosity : Nat := 0
  logFormat : LogFormat := .plain
  access : ClusterAccess := {}
  adminAddress : String := "0.0.0.0:8080"
  leaderElection : Bool := true
  leaseNamespace : String := "startup-scaler"
  resyncMinutes : Nat := 60
  graceSeconds : Nat := 10
  requeueSeconds : Nat := 1
  concurrency : Nat := 10
  retryAttempts : Nat := 3
  retrySeconds : Nat := 1
  scaleUnknown : Bool := false
  resources : List ResourceName := ResourceName.all
  cacheSyncMillis : Nat := 3000
  awaitedMessage : String := "attempting to resize memory limit"
  deriving DecidableEq, Repr

namespace Settings

def anyText (s : String) : Except ValueError String := .ok s

def nonempty (s : String) : Except ValueError String :=
  if s.isEmpty then .error .empty else .ok s

def boolean (s : String) : Except ValueError Bool :=
  if s = "true" then .ok true else if s = "false" then .ok false else .error .notBoolean

/-- A natural number of 64 bits. -/
def natural64 (s : String) : Except ValueError Nat :=
  (Text.readNatural Text.maxNat64 s.toList).mapError fun _ => .unreadable

/-- A natural number up to a bound, among the integers of 64 bits: zero may have a minus sign. -/
def naturalUpTo (bound : Nat) (s : String) : Except ValueError Nat :=
  match Text.readInteger? Text.maxInt64 s.toList with
  | some n => if 0 ≤ n && n ≤ bound then .ok n.toNat else .error .unreadable
  | none => .error .unreadable

def logFormatOf (s : String) : Except ValueError LogFormat :=
  if s = "plain" then .ok .plain else if s = "json" then .ok .json else .error .unreadable

def resourceNames (s : String) : Except ValueError (List ResourceName) :=
  (ResourceName.parseList s).mapError fun _ => .unreadable

def socketAddress (s : String) : Except ValueError String :=
  if isSocketAddress s.toList then .ok s else .error .unreadable

/-- A flag whose value is read and put into the settings. -/
def flag {α : Type} (name : String) (read : String → Except ValueError α)
    (put : Settings → α → Settings) (standIn : Option String := none) : Flag Settings :=
  { name, standIn, set := fun text s => (read text).map (put s) }

def accessFlags : List (Flag Settings) :=
  [flag "cluster" anyText fun s a => { s with access := { s.access with cluster := some a } },
   flag "context" anyText fun s a => { s with access := { s.access with context := some a } },
   flag "user" anyText fun s a => { s with access := { s.access with user := some a } },
   flag "as" anyText fun s a => { s with access := { s.access with impersonatedUser := some a } },
   { flag "as-group" anyText fun s a =>
       { s with
         access :=
           { s.access with impersonatedGroups := s.access.impersonatedGroups ++ [a] } } with
     mayRepeat := true },
   flag "kubeconfig" nonempty fun s a =>
     { s with access := { s.access with configPath := some a } },
   flag "admin-addr" socketAddress fun s a => { s with adminAddress := a }]

def logFlags : List (Flag Settings) :=
  [flag "log-level" anyText (fun s a => { s with logFilter := some a }) "STARTUP_SCALER_LOG",
   flag "log-v" (naturalUpTo 2) fun s a => { s with verbosity := a },
   flag "log-format" logFormatOf fun s a => { s with logFormat := a }]

def leaseFlags : List (Flag Settings) :=
  [flag "leader-election-enabled" boolean (fun s a => { s with leaderElection := a })
     "STARTUP_SCALER_LEADER_ELECTION_ENABLED",
   flag "leader-election-resource-namespace" anyText (fun s a => { s with leaseNamespace := a })
     "STARTUP_SCALER_LEADER_ELECTION_RESOURCE_NAMESPACE"]

def reconcileFlags : List (Flag Settings) :=
  [flag "cache-sync-period-mins" natural64 (fun s a => { s with resyncMinutes := a })
     "STARTUP_SCALER_CACHE_SYNC_PERIOD_MINS",
   flag "graceful-shutdown-timeout-secs" natural64 (fun s a => { s with graceSeconds := a })
     "STARTUP_SCALER_GRACEFUL_SHUTDOWN_TIMEOUT_SECS",
   flag "requeue-duration-secs" natural64 (fun s a => { s with requeueSeconds := a })
     "STARTUP_SCALER_REQUEUE_DURATION_SECS",
   flag "max-concurrent-reconciles" (naturalUpTo Text.maxNat16)
     (fun s a => { s with concurrency := a }) "STARTUP_SCALER_MAX_CONCURRENT_RECONCILES",
   flag "standard-retry-attempts" (naturalUpTo Text.maxNat32)
     (fun s a => { s with retryAttempts := a }) "STARTUP_SCALER_STANDARD_RETRY_ATTEMPTS",
   flag "standard-retry-delay-secs" natural64 (fun s a => { s with retrySeconds := a })
     "STARTUP_SCALER_STANDARD_RETRY_DELAY_SECS",
   { flag "scale-when-unknown-resources" boolean (fun s a => { s with scaleUnknown := a })
       "STARTUP_SCALER_SCALE_WHEN_UNKNOWN_RESOURCES" with
     takesValue := false },
   flag "scale-resources" resourceNames (fun s a => { s with resources := a })
     "STARTUP_SCALER_SCALE_RESOURCES",
   flag "cache-sync-timeout-ms" natural64 (fun s a => { s with cacheSyncMillis := a })
     "STARTUP_SCALER_CACHE_SYNC_TIMEOUT_MS",
   flag "resize-awaiting-memory-message" anyText (fun s a => { s with awaitedMessage := a })
     "STARTUP_SCALER_RESIZE_AWAITING_MEMORY_MESSAGE"]

def flags : List (Flag Settings) := logFlags ++ accessFlags ++ leaseFlags ++ reconcileFlags

/-- The settings that a command line and an environment make. -/
def parse (words : List String) (environment : String → Option String) :
    Except CommandLineError Settings :=
  CommandLine.parse flags {} words environment

/-- The settings as a record, but for how the cluster is reached. -/
def toJson (s : Settings) : Json :=
  .record
    [("log_level", (s.logFilter.map .text).getD .null),
     ("log_v", .whole s.verbosity),
     ("log_format", .text s.logFormat.text),
     ("leader_election_enabled", .bool s.leaderElection),
     ("leader_election_resource_namespace", .text s.leaseNamespace),
     ("cache_sync_period_mins", .whole s.resyncMinutes),
     ("graceful_shutdown_timeout_secs", .whole s.graceSeconds),
     ("requeue_duration_secs", .whole s.requeueSeconds),
     ("max_concurrent_reconciles", .whole s.concurrency),
     ("standard_retry_attempts", .whole s.retryAttempts),
     ("standard_retry_delay_secs", .whole s.retrySeconds),
     ("scale_when_unknown_resources", .bool s.scaleUnknown),
     ("scale_resources", .arr (s.resources.map fun r => .text r.text)),
     ("cache_sync_timeout_ms", .whole s.cacheSyncMillis),
     ("resize_awaiting_memory_message", .text s.awaitedMessage)]

/-- What they say about reconciles. -/
def reconcileConfig (s : Settings) : ReconcileConfig :=
  { enabled := s.resources
    retry := ⟨s.retryAttempts, s.retrySeconds * 1000⟩
    requeueMillis := s.requeueSeconds * 1000
    resyncMillis := s.resyncMinutes * 60000
    scaleUnknown := s.scaleUnknown
    awaitedMessage := s.awaitedMessage }

end Settings
end PodSizing
