import CatalogSync.Listener.Basic

namespace CatalogSync

/-- What a reader notes about one event. -/
inductive ReaderNote where
  | seen (kind : ChangeKind) (resource : Resource) (content : Except ContentError Content)
      (again : Bool)
  | gone (location : String)

structure ReaderListener where
  notes : List ReaderNote

namespace ReaderListener

def start : ReaderListener := ⟨[]⟩

instance : Inhabited ReaderListener := ⟨start⟩

def note (entry : ReaderNote) : StateM ReaderListener Unit := fun reader =>
  ((), ⟨reader.notes ++ [entry]⟩)

variable {σ : Type}

def read (cell : Part σ ReaderListener) (kind : ChangeKind) (resource : Resource) :
    StateM (Reading σ) (Outcome ListenerError Unit) := do
  let first ← Reading.read
  let second ← Reading.read
  Reading.onWorld (cell.lift (note (.seen kind resource first second.isOk)))
  match first with
  | .ok _ => return .ok ()
  | .error e => return .error (.failed e.message)

/-- The listener with a given name, kept in one part of a state. -/
def listener (name : String) (cell : Part σ ReaderListener) : Listener σ where
  name := name
  onCreate := read cell .created
  onUpdate := read cell .modified
  onDelete := fun resource => do
    cell.lift (note (.gone resource.location))
    return .ok ()

end ReaderListener

end CatalogSync
