import CatalogSync.Listener.Basic

namespace CatalogSync

inductive ListenerBehavior where
  | succeed
  | fail
  | panic
  deriving DecidableEq, Repr

structure RecordedEvent where
  kind : ChangeKind
  correlationId : String
  location : String
  deriving DecidableEq, Repr

structure RecordingListener where
  name : String
  events : List RecordedEvent
  behavior : ListenerBehavior

namespace RecordingListener

def start (name : String) (behavior : ListenerBehavior) : RecordingListener := ⟨name, [], behavior⟩

instance : Inhabited RecordingListener := ⟨start "" .succeed⟩

def count (listener : RecordingListener) (kind : ChangeKind) : Nat :=
  listener.events.countP fun event => event.kind = kind

def clear (listener : RecordingListener) : RecordingListener :=
  { listener with events := [] }

def record (kind : ChangeKind) (correlationId location : String) :
    StateM RecordingListener (Outcome ListenerError Unit) := fun listener =>
  let recorded := { listener with events := listener.events ++ [⟨kind, correlationId, location⟩] }
  match listener.behavior with
  | .succeed => (.ok (), recorded)
  | .fail => (.error (.failed (listener.name ++ " refused " ++ location)), recorded)
  | .panic => (.panicked, recorded)

/-- The listener with a given name, kept in one part of a state. -/
def listener {σ : Type} (name : String) (cell : Part σ RecordingListener) : Listener σ where
  name := name
  onCreate := fun resource =>
    Reading.onWorld (cell.lift (record .created resource.correlationId resource.location))
  onUpdate := fun resource =>
    Reading.onWorld (cell.lift (record .modified resource.correlationId resource.location))
  onDelete := fun resource =>
    cell.lift (record .deleted resource.correlationId resource.location)

end RecordingListener

end CatalogSync
