import PodSizing.Mutation
import PodSizing.Status.Record
import PodSizing.Text.Upper
import PodSizing.Time.Stamp

/-!
# Status updates

An update builds the next status record from the one on the pod. A command starts a new history; a
success or a failure is stamped once for it, and only then lets metrics see how long it took.
Nothing is written when the record would say the same.
-/
namespace PodSizing
open Time (Instant)

/-- What an update says about the scale of a pod. -/
inductive ScaleState where
  | notApplicable
  | commanded (direction : Direction)
  /-- Commanded while neither configured set of resources was applied. -/
  | unknownCommanded
  | enacted (direction : Direction)
  | failed (direction : Direction) (reason : FailureReason)
  deriving DecidableEq, Repr

structure StatusUpdate where
  status : String
  states : States
  scaleState : ScaleState
  enabled : List ResourceName
  deriving DecidableEq, Repr

/-- The record on a pod, if it has one that can be read. -/
def Pod.statusRecord? (p : Pod) : Option StatusRecord :=
  (p.annotation? Key.status).bind StatusRecord.parse?

/-- How long ago the command was given, if that is known and not in the future. -/
def durationSince (commanded : String) (now : Instant) (direction : Direction)
    (outcome : ScaleOutcome) : List Observation :=
  match Time.elapsed? commanded now with
  | some millis => [.duration direction outcome millis]
  | none => []

/-- The history after an update, and what metrics see of the step. -/
def Scale.advance (s : Scale) (state : ScaleState) (now : Instant) : Scale × List Observation :=
  match state with
  | .notApplicable => (s, [])
  | .commanded _ =>
    ({ s with lastCommanded := Time.stamp now, lastEnacted := "", lastFailed := "" }, [])
  | .unknownCommanded =>
    ({ s with lastCommanded := Time.stamp now, lastEnacted := "", lastFailed := "" },
      [.commandedUnknown])
  | .enacted direction =>
    if s.lastEnacted.isEmpty && !s.lastCommanded.isEmpty then
      ({ s with lastEnacted := Time.stamp now }, durationSince s.lastCommanded now direction .success)
    else (s, [])
  | .failed direction reason =>
    if s.lastFailed.isEmpty then
      ({ s with lastFailed := Time.stamp now },
        .failure direction reason :: durationSince s.lastCommanded now direction .failure)
    else (s, [])

namespace StatusUpdate

/-- The record that follows a history, and what metrics see of the step. -/
def next (u : StatusUpdate) (history : Scale) (now : Instant) : StatusRecord × List Observation :=
  let (scale, observations) := history.advance u.scaleState now
  ({ status := Text.capitalize u.status
     states := u.states
     scale := { scale with enabledForResources := u.enabled }
     lastUpdated := Time.secondStamp now }, observations)

/-- Records the update on a pod, unless the pod says the same already. -/
def apply (u : StatusUpdate) (now : Instant) (p : Pod) : Edit :=
  let existing := p.statusRecord?
  let (record, observations) := u.next ((existing.map (·.scale)).getD {}) now
  if existing.any (·.agrees record) then { changed := false, pod := p }
  else { changed := true, pod := p.setAnnotation Key.status record.write, observations }

def mutator (u : StatusUpdate) : Mutator := fun now p => .ok (u.apply now p)

end StatusUpdate

/-- An update that is not known to be written, and what its last application observed. -/
structure PendingStatus where
  update : StatusUpdate
  observations : List Observation := []
  deriving DecidableEq, Repr

namespace PendingStatus

/-- Applies the update once more; what earlier applications observed is forgotten. -/
def apply (s : PendingStatus) (now : Instant) (p : Pod) : Edit × PendingStatus :=
  let edit := s.update.apply now p
  (edit, { s with observations := edit.observations })

/-- What metrics record once the update is written. -/
def commit (s : PendingStatus) : List Event := s.observations.map .scale

end PendingStatus
end PodSizing
