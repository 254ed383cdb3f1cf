import CatalogSync.Overrides
import CatalogSync.Text.Blank

namespace CatalogSync

/-- How many listeners a harvester accepts. -/
inductive ListenerPolicy where
  | fanOut
  | single
  deriving DecidableEq, Repr

namespace ListenerPolicy

def text : ListenerPolicy → String
  | fanOut => "fan_out"
  | single => "single"

def ofText (text : String) : Except ConfigError ListenerPolicy :=
  if text = fanOut.text then .ok fanOut
  else if text = single.text then .ok single
  else .error (.invalidValue "listener_policy" text)

/-- A policy as stored: its text, or an object that gives it as the key of a null. -/
def ofSource? (source : Json.Source) : Option ListenerPolicy := do
  let text ← match source with
    | .object [(key, .null)] => key.text?
    | _ => source.text?
  (ofText text).toOption

end ListenerPolicy

/-- A root without one slash at its end, if it has one. -/
def canonicalRoot (root : String) : String :=
  (Text.stripEnd? "/" root).getD root

structure HarvesterConfig where
  id : String
  root : String
  /-- The time between two polls in milliseconds. -/
  interval : Nat
  overrides : Overrides
  policy : ListenerPolicy
  /-- Whether polls are skipped while nobody listens. -/
  idleWithoutListeners : Bool
  deriving DecidableEq

namespace HarvesterConfig

/-- Five seconds. -/
def defaultInterval : Nat := 5000

/-- The configuration with nothing but an id and a root given. -/
def ofRoot (id root : String) : HarvesterConfig where
  id := id
  root := canonicalRoot root
  interval := defaultInterval
  overrides := Table.empty
  policy := .fanOut
  idleWithoutListeners := true

/-- A harvester needs an id and a root that are not blank, and an interval that is not zero. -/
def validate (config : HarvesterConfig) : Except ConfigError Unit :=
  if Text.isBlank config.id then .error (.invalidValue "id" config.id)
  else if Text.isBlank config.root then
    .error (.missingKey ("harvester." ++ config.id ++ ".root"))
  else if config.interval = 0 then
    .error (.invalidValue ("harvester." ++ config.id ++ ".poll_interval_secs") "0")
  else .ok ()

end HarvesterConfig

end CatalogSync
