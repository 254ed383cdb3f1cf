import CatalogSync.Harvest.Basic

/-!
The registry brings harvesters and listeners together by the id that a listener watches. Either side
may come first. A listener that is rejected because another one is there gets its chance when that
one leaves.
-/

namespace CatalogSync

inductive RegistryError where
  | duplicateHarvester (id : String)
  | harvesterNotFound (id : String)
  deriving DecidableEq, Repr

def RegistryError.message : RegistryError → String
  | duplicateHarvester id => "Harvester already registered: " ++ id
  | harvesterNotFound id => "Harvester not found: " ++ id

/-- Harvesters are told apart by number, whatever their ids are. -/
abbrev HarvesterRef := Nat

/-- A listener with its name, and the id of the harvester that it watches. -/
structure Watch where
  harvester : String
  listener : ListenerId
  name : String
  deriving DecidableEq

structure Registry where
  harvesters : Table HarvesterRef
  watches : List Watch

namespace Registry

def empty : Registry := ⟨Table.empty, []⟩

/-- Attaches the watching listeners one after the other, as far as the harvester takes them. -/
def attachAll (h : Harvester) : List Watch → Harvester × Nat
  | [] => (h, 0)
  | watch :: rest =>
    match h.register watch.listener watch.name with
    | .ok h =>
      let (h, attached) := attachAll h rest
      (h, attached + 1)
    | .error _ => attachAll h rest

/-- The watches on a harvester, oldest first. -/
def watchesOn (registry : Registry) (id : String) : List Watch :=
  registry.watches.filter fun watch => watch.harvester = id

/-- Registers a harvester and attaches the listeners that watch it; the answer is their number. -/
def addHarvester (registry : Registry) (ref : HarvesterRef) (h : Harvester) :
    Except RegistryError (Nat × Registry × Harvester) :=
  if registry.harvesters.contains h.id then .error (.duplicateHarvester h.id)
  else
    let (attachedTo, attached) := attachAll h (registry.watchesOn h.id)
    .ok (attached, { registry with harvesters := registry.harvesters.insert h.id ref }, attachedTo)

/-- Forgets a harvester; the answer is which one it was. -/
def removeHarvester (registry : Registry) (id : String) :
    Except RegistryError (HarvesterRef × Registry) :=
  match registry.harvesters.get? id with
  | none => .error (.harvesterNotFound id)
  | some ref => .ok (ref, { registry with harvesters := registry.harvesters.erase id })

/-- Detaches the listeners that watch a harvester from it. -/
def detachAll (registry : Registry) (id : String) (h : Harvester) : Harvester :=
  (registry.watchesOn id).foldl (fun h watch => h.unregister watch.listener) h

/-- Attaches a listener to the harvester that it watches, if that is known and takes it. -/
def attach (watch : Watch) (h : Harvester) : Bool × Harvester :=
  match h.register watch.listener watch.name with
  | .ok h => (true, h)
  | .error _ => (false, h)

def addWatch (registry : Registry) (watch : Watch) : Registry :=
  { registry with watches := registry.watches ++ [watch] }

/-- Takes the oldest watch of a listener off the registry. -/
def removeWatch? (registry : Registry) (listener : ListenerId) : Option (Watch × Registry) :=
  match registry.watches.find? fun watch => watch.listener = listener with
  | none => none
  | some watch => some (watch, { registry with watches := registry.watches.erase watch })

/-- Detaches a listener and gives those that still watch the harvester another chance. -/
def detach (registry : Registry) (watch : Watch) (h : Harvester) : Harvester :=
  if h.hasListener watch.listener then
    let left := h.unregister watch.listener
    let waiting := (registry.watchesOn watch.harvester).filter fun other =>
      !left.hasListener other.listener
    (attachAll left waiting).1
  else h

end Registry

end CatalogSync
