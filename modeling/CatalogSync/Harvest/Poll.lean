import CatalogSync.Harvest.Lifecycle

/-!
One poll: list the tree, compare it with the snapshot, deliver every change to every listener, and
only then store the new snapshot. What goes wrong before the end leaves the snapshot as it was, so
that the next poll delivers the same changes again.
-/

namespace CatalogSync.Harvester

variable {σ : Type}

/-- How a poll begins: not at all, without listing, or with the listing of a root for the listeners
that are registered at that moment. -/
inductive PollStart where
  | notRunning
  | idle
  | listing (root : String) (members : List ListenerId)
  deriving DecidableEq

def beginPoll (h : Harvester) : PollStart :=
  if h.status ≠ .polling then .notRunning
  else if h.members = [] ∧ h.config.idleWithoutListeners then .idle
  else .listing h.config.root h.members

/-- Counts a call to a listener as failed or not. A listener that cannot keep its own state puts an
end to the poll. -/
def failureCount : Outcome ListenerError Unit → Except StoreError Nat
  | .ok () => .ok 0
  | .error (.persistence e) => .error e
  | .error (.failed _) => .ok 1
  | .panicked => .ok 1

/-- Makes a call for one listener after the other and counts the failures. -/
def callAll {τ : Type} (call : Listener σ → StateM τ (Outcome ListenerError Unit)) :
    List (Listener σ) → StateM τ (Except StoreError Nat)
  | [] => pure (.ok 0)
  | listener :: rest => do
    match failureCount (← call listener) with
    | .error e => return .error e
    | .ok failed =>
      match ← callAll call rest with
      | .error e => return .error e
      | .ok more => return .ok (failed + more)

/-- Delivers one change to all listeners. They share one access to the content. -/
def deliver (lister : Lister σ) (root : String) (properties : Properties)
    (listeners : List (Listener σ)) (change : Change) : StateM σ (Except StoreError Nat) :=
  let location := lister.locate root change.path
  let content := Accessor.ofFetch (lister.fetch location)
  match change.kind with
  | .created =>
    Reading.run (callAll (fun listener => listener.onCreate ⟨location, properties⟩) listeners)
      content
  | .modified =>
    Reading.run (callAll (fun listener => listener.onUpdate ⟨location, properties⟩) listeners)
      content
  | .deleted => callAll (fun listener => listener.onDelete ⟨location⟩) listeners

/-- Delivers changes in order and counts the failures. -/
def deliverAll (lister : Lister σ) (root : String) (properties : Properties)
    (listeners : List (Listener σ)) : List Change → StateM σ (Except StoreError Nat)
  | [] => pure (.ok 0)
  | change :: rest => do
    match ← deliver lister root properties listeners change with
    | .error e => return .error e
    | .ok failed =>
      match ← deliverAll lister root properties listeners rest with
      | .error e => return .error e
      | .ok more => return .ok (failed + more)

/-- Keeps the new snapshot once it is stored. A snapshot that is the same as before is not stored
again. -/
def commit (store : BlobStore σ) (h : Harvester) (diff : Diff) (report : PollReport) :
    StateM σ (Except HarvestError PollReport × Harvester) := do
  if report.events = 0 ∧ h.snapshot.isSome then return (.ok report, h)
  else
    match ← store.store h.snapshotKey diff.next.encode with
    | .error e => return (.error (.persistence e), h)
    | .ok () => return (.ok report, { h with snapshot := some diff.next })

/-- What follows the listing. -/
def finishPoll (lister : Lister σ) (store : BlobStore σ) (listeners : List (Listener σ))
    (h : Harvester) (root : String) (listed : Except ListerError (List ListingEntry)) :
    StateM σ (Except HarvestError PollReport × Harvester) := do
  match listed with
  | .error e => return (.error (.lister e), h)
  | .ok listing =>
    let diff := CatalogSync.diff h.snapshot listing
    match ← deliverAll lister root h.properties listeners diff.changes with
    | .error e => return (.error (.persistence e), h)
    | .ok failures => commit store h diff (PollReport.ofDiff diff failures)

/-- One poll from beginning to end; `listenerOf` finds the listener with a number. -/
def poll (lister : Lister σ) (store : BlobStore σ) (listenerOf : ListenerId → Listener σ)
    (h : Harvester) : StateM σ (Except HarvestError PollReport × Harvester) := do
  match h.beginPoll with
  | .notRunning => return (.error (.notRunning h.id), h)
  | .idle => return (.ok .ofIdle, h)
  | .listing root members =>
    let listed ← lister.list root
    finishPoll lister store (members.map listenerOf) h root listed

end CatalogSync.Harvester
