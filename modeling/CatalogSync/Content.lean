import CatalogSync.Bytes

namespace CatalogSync

structure Content where
  name : String
  bytes : Bytes
  mediaType : Option String
  deriving DecidableEq

namespace Content

/-- Content whose media type nobody has declared. -/
def ofBytes (name : String) (bytes : Bytes) : Content :=
  ⟨name, bytes, none⟩

def size (content : Content) : Nat :=
  content.bytes.length

end Content

inductive ContentError where
  | unavailable (location : String)
  | readFailed (location reason : String)
  deriving DecidableEq, Repr

def ContentError.message : ContentError → String
  | unavailable location => "No resource available at " ++ location
  | readFailed location reason => "Failed to read " ++ location ++ ": " ++ reason

/-- Access to the content of one resource. `fetch` acts on whatever state `σ` the content comes
from; `outcome` is what it answered, once it has been asked. -/
structure Accessor (σ : Type) where
  fetch : StateM σ (Except ContentError Content)
  outcome : Option (Except ContentError Content)

namespace Accessor

variable {σ : Type}

/-- Access that has not fetched yet. -/
def ofFetch (fetch : StateM σ (Except ContentError Content)) : Accessor σ :=
  ⟨fetch, none⟩

/-- Access whose outcome is known, so that nothing is ever fetched. -/
def ofOutcome (outcome : Except ContentError Content) : Accessor σ :=
  ⟨pure outcome, some outcome⟩

def ready (content : Content) : Accessor σ :=
  ofOutcome (.ok content)

def unavailable (location : String) : Accessor σ :=
  ofOutcome (.error (.unavailable location))

def isLoaded (accessor : Accessor σ) : Bool :=
  accessor.outcome.isSome

/-- How access shows itself: by whether its outcome is known. -/
def describe (accessor : Accessor σ) : String :=
  "ContentAccessor \x7b loaded: " ++ (if accessor.isLoaded then "true" else "false") ++ " \x7d"

end Accessor

/-- What the handling of a created or modified resource works on: access to the resource's content,
and the state of everything else. -/
structure Reading (σ : Type) where
  content : Accessor σ
  world : σ

namespace Reading

variable {σ α : Type}

/-- The content of the resource: fetched the first time, remembered afterwards. -/
def read : StateM (Reading σ) (Except ContentError Content) := fun reading =>
  match reading.content.outcome with
  | some outcome => (outcome, reading)
  | none =>
    let (outcome, world) := reading.content.fetch reading.world
    (outcome, ⟨⟨reading.content.fetch, some outcome⟩, world⟩)

/-- Acts on everything but the access to the content. -/
def onWorld (action : StateM σ α) : StateM (Reading σ) α := fun reading =>
  let (answer, world) := action reading.world
  (answer, ⟨reading.content, world⟩)

/-- Runs a handling of a resource with fresh access to its content. -/
def run (action : StateM (Reading σ) α) (content : Accessor σ) : StateM σ α := fun world =>
  let (answer, reading) := action ⟨content, world⟩
  (answer, reading.world)

end Reading

end CatalogSync
