import CatalogSync.Ingest.Basic
import CatalogSync.Uuid

namespace CatalogSync

inductive AdapterCall where
  | create (location : String)
  | update (location id : String)
  | delete (id : String)
  deriving DecidableEq, Repr

namespace AdapterCall

def isCreate : AdapterCall → Bool
  | create _ => true
  | _ => false

def isUpdate : AdapterCall → Bool
  | update _ _ => true
  | _ => false

def isDelete : AdapterCall → Bool
  | delete _ => true
  | _ => false

end AdapterCall

inductive AdapterBehavior where
  | succeed
  | failCreate
  | failUpdate
  | failDelete
  /-- Updates succeed and answer a new id. -/
  | reissueIdOnUpdate
  deriving DecidableEq, Repr

structure RecordingAdapter where
  calls : List AdapterCall
  /-- The locations of the live records by id. -/
  records : Table String
  behavior : AdapterBehavior

namespace RecordingAdapter

def start (behavior : AdapterBehavior) : RecordingAdapter := ⟨[], Table.empty, behavior⟩

instance : Inhabited RecordingAdapter := ⟨start .succeed⟩

def note (adapter : RecordingAdapter) (call : AdapterCall) : RecordingAdapter :=
  { adapter with calls := adapter.calls ++ [call] }

/-- How many of the calls were creations. -/
def creates (adapter : RecordingAdapter) : Nat := adapter.calls.countP AdapterCall.isCreate

/-- How many of the calls were updates. -/
def updates (adapter : RecordingAdapter) : Nat := adapter.calls.countP AdapterCall.isUpdate

/-- How many of the calls were deletions. -/
def deletes (adapter : RecordingAdapter) : Nat := adapter.calls.countP AdapterCall.isDelete

/-- A recording adapter together with the source of its ids. -/
abbrev WithSupply := RecordingAdapter × UuidSupply

/-- Stores the location under a fresh id. -/
def issue (location : String) : StateM WithSupply String := fun (adapter, supply) =>
  let (uuid, supply) := supply.take
  (uuid.text, { adapter with records := adapter.records.insert uuid.text location }, supply)

def create (location : String) : StateM WithSupply (Except IngestError String) :=
  fun (adapter, supply) =>
    let adapter := adapter.note (.create location)
    if adapter.behavior = .failCreate then
      (.error (.storage "simulated create failure"), adapter, supply)
    else
      let (id, state) := issue location (adapter, supply)
      (.ok id, state)

def update (location id : String) : StateM WithSupply (Except IngestError String) :=
  fun (adapter, supply) =>
    let adapter := adapter.note (.update location id)
    if adapter.behavior = .failUpdate then
      (.error (.storage "simulated update failure"), adapter, supply)
    else if adapter.records.contains id then
      if adapter.behavior = .reissueIdOnUpdate then
        let (new, state) :=
          issue location ({ adapter with records := adapter.records.erase id }, supply)
        (.ok new, state)
      else (.ok id, { adapter with records := adapter.records.insert id location }, supply)
    else (.error (.rejected ("no record " ++ id)), adapter, supply)

def delete (id : String) : StateM RecordingAdapter (Except IngestError Unit) := fun adapter =>
  let adapter := adapter.note (.delete id)
  if adapter.behavior = .failDelete then (.error (.storage "simulated delete failure"), adapter)
  else if adapter.records.contains id then
    (.ok (), { adapter with records := adapter.records.erase id })
  else (.error (.rejected ("no record " ++ id)), adapter)

variable {σ : Type}

/-- Two parts of a state as one. -/
def both (cell : Part σ RecordingAdapter) (supply : Part σ UuidSupply) : Part σ WithSupply where
  get := fun state => (cell.get state, supply.get state)
  set := fun (adapter, source) state => supply.set source (cell.set adapter state)

/-- The adapter kept in one part of a state, with its ids coming from another. -/
def adapter (cell : Part σ RecordingAdapter) (supply : Part σ UuidSupply) : Adapter σ where
  create := fun resource => do
    return .ofExcept (← Reading.onWorld ((both cell supply).lift (create resource.location)))
  update := fun resource id => do
    return .ofExcept (← Reading.onWorld ((both cell supply).lift (update resource.location id)))
  delete := fun id => do return .ofExcept (← cell.lift (delete id))

end RecordingAdapter

end CatalogSync
