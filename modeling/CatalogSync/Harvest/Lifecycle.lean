import CatalogSync.Harvest.Basic

namespace CatalogSync.Harvester

variable {σ : Type}

/-- The snapshot in a stored blob. One that cannot be read counts as none, so that the tree is
harvested from scratch. -/
def storedSnapshot? (blob : Option Bytes) : Option Snapshot :=
  blob.bind fun bytes => (Snapshot.decode bytes).toOption

/-- Checks configuration and root, and loads what belongs to the root. -/
def loadState (lister : Lister σ) (store : BlobStore σ) (h : Harvester) :
    StateM σ (Except HarvestError Unit × Harvester) := do
  match h.config.validate with
  | .error e => return (.error (.config e), h)
  | .ok () =>
    match ← lister.checkRoot h.config.root with
    | .error e => return (.error (.lister e), h)
    | .ok () =>
      let key := persistenceKey h.config.root
      let h := { h with snapshotKey := key, properties := h.config.overrides.toProperties }
      match ← store.load key with
      | .error e => return (.error (.persistence e), h)
      | .ok blob => return (.ok (), { h with snapshot := storedSnapshot? blob })

/-- Brings a harvester up; it polls afterwards, or is stopped if that fails. -/
def bringUp (lister : Lister σ) (store : BlobStore σ) (h : Harvester) :
    StateM σ (Except HarvestError Unit × Harvester) := do
  match ← loadState lister store { h with status := .initializing } with
  | (.ok (), h) => return (.ok (), { h with status := .polling })
  | (.error e, h) => return (.error e, { h with status := .stopped })

/-- Starts a harvester that is not running. -/
def start (lister : Lister σ) (store : BlobStore σ) (h : Harvester) :
    StateM σ (Except HarvestError Unit × Harvester) :=
  if h.status = .polling then pure (.ok (), h) else bringUp lister store h

def stop (h : Harvester) : Harvester :=
  { h with snapshot := none, status := .stopped }

/-- A new configuration has to keep the id and make sense. This is checked before anything else
happens. -/
def checkConfig (h : Harvester) (config : HarvesterConfig) : Except HarvestError Unit :=
  if config.id ≠ h.id then .error (.config (.invalidValue "id" config.id))
  else
    match config.validate with
    | .ok () => .ok ()
    | .error e => .error (.config e)

/-- Whether the listeners fit a policy. -/
def admitsPolicy (h : Harvester) (policy : ListenerPolicy) : Bool :=
  !(policy = .single ∧ 1 < h.members.length)

/-- A harvester that has taken a configuration but has not been brought up with it. -/
def adopt (h : Harvester) (config : HarvesterConfig) : Harvester :=
  { h with
    config := config
    policy := config.policy
    snapshot := none
    interval := config.interval
    status := .stopped }

/-- Takes a checked configuration, unless the listeners do not fit its policy, and brings the
harvester up again. -/
def applyConfig (lister : Lister σ) (store : BlobStore σ) (h : Harvester)
    (config : HarvesterConfig) : StateM σ (Except HarvestError Unit × Harvester) :=
  if h.admitsPolicy config.policy then bringUp lister store (h.adopt config)
  else
    pure (.error (.config (.invalidValue ("harvester." ++ h.id ++ ".listener_policy")
      ListenerPolicy.single.text)), h)

/-- Checks a new configuration and takes it. -/
def reconfigure (lister : Lister σ) (store : BlobStore σ) (h : Harvester)
    (config : HarvesterConfig) : StateM σ (Except HarvestError Unit × Harvester) :=
  match h.checkConfig config with
  | .ok () => applyConfig lister store h config
  | .error e => pure (.error e, h)

end CatalogSync.Harvester
