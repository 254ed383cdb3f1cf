import CatalogSync.Ingest.Basic
import CatalogSync.Listener.Basic
import CatalogSync.Listener.Correlation

/-!
The listener that keeps a downstream store in step. Its correlation map says which downstream record
belongs to which resource, and every call depends on nothing but the event and that map, so that an
event may be delivered again. Failures of the adapter leave the map alone and are not reported;
failures of the map's own store are.
-/

namespace CatalogSync

/-- A persistent listener over a state `σ`. The store holds its correlation map; the clock tells
when a row is recorded. -/
structure PersistentListener (σ : Type) where
  name : String
  adapter : Adapter σ
  store : BlobStore σ
  clock : σ → Time.Timestamp

namespace PersistentListener

variable {σ : Type}

/-- The row of a correlation id. -/
def find? (listener : PersistentListener σ) (correlationId : String) :
    StateM σ (Except ListenerError (Option Correlation)) := do
  match ← listener.store.load correlationId with
  | .error e => return .error (.persistence e)
  | .ok none => return .ok none
  | .ok (some blob) =>
    match Correlation.decode? blob with
    | some row => return .ok (some row)
    | none => return .error (.persistence (.codec "malformed correlation record"))

/-- The id of the downstream record of a correlation id. -/
def downstreamId (listener : PersistentListener σ) (correlationId : String) :
    StateM σ (Except ListenerError (Option String)) := do
  match ← listener.find? correlationId with
  | .error e => return .error e
  | .ok row => return .ok (row.map Correlation.downstreamId)

/-- How many downstream records the map knows. -/
def mappedCount (listener : PersistentListener σ) : StateM σ (Except ListenerError Nat) := do
  match ← listener.store.keys with
  | .error e => return .error (.persistence e)
  | .ok keys => return .ok keys.length

/-- Maps a resource to a downstream record. -/
def save (listener : PersistentListener σ) (correlationId downstreamId location : String) :
    StateM σ (Outcome ListenerError Unit) := fun world =>
  let row : Correlation := ⟨downstreamId, location, listener.clock world⟩
  match listener.store.store correlationId row.encode world with
  | (.ok (), world) => (.ok (), world)
  | (.error e, world) => (.error (.persistence e), world)

/-- Maps a resource to the id that the adapter has answered; no answer and an empty id change
nothing. -/
def saveAnswer (listener : PersistentListener σ) (resource : Resource) :
    Outcome IngestError String → StateM σ (Outcome ListenerError Unit)
  | .ok id =>
    if id.isEmpty then pure (.ok ())
    else listener.save resource.correlationId id resource.location
  | .error _ => pure (.ok ())
  | .panicked => pure .panicked

/-- A resource that is mapped already has been created before. -/
def onCreate (listener : PersistentListener σ) (resource : Resource) :
    StateM (Reading σ) (Outcome ListenerError Unit) := do
  match ← Reading.onWorld (listener.find? resource.correlationId) with
  | .error e => return .error e
  | .ok (some _) => return .ok ()
  | .ok none =>
    let answer ← listener.adapter.create resource
    Reading.onWorld (listener.saveAnswer resource answer)

/-- A resource that is not mapped has nothing to update. -/
def onUpdate (listener : PersistentListener σ) (resource : Resource) :
    StateM (Reading σ) (Outcome ListenerError Unit) := do
  match ← Reading.onWorld (listener.find? resource.correlationId) with
  | .error e => return .error e
  | .ok none => return .ok ()
  | .ok (some row) =>
    let answer ← listener.adapter.update resource row.downstreamId
    Reading.onWorld (listener.saveAnswer resource answer)

/-- A mapping is removed once its downstream record is deleted. -/
def onDelete (listener : PersistentListener σ) (resource : DeletedResource) :
    StateM σ (Outcome ListenerError Unit) := do
  match ← listener.find? resource.correlationId with
  | .error e => return .error e
  | .ok none => return .ok ()
  | .ok (some row) =>
    match ← listener.adapter.delete row.downstreamId with
    | .panicked => return .panicked
    | .error _ => return .ok ()
    | .ok () =>
      match ← listener.store.delete resource.correlationId with
      | .error e => return .error (.persistence e)
      | .ok _ => return .ok ()

def listener (l : PersistentListener σ) : Listener σ :=
  ⟨l.name, l.onCreate, l.onUpdate, l.onDelete⟩

end PersistentListener

end CatalogSync
