import CatalogSync.Config.Harvester
import CatalogSync.Decimal
import CatalogSync.Json.Decode
import CatalogSync.Json.Parser

namespace CatalogSync

/-- Settings by key. -/
abbrev Settings := Table String

namespace Settings

/-- Whether a setting is switched on: it has to be the text `true`. -/
def flag (settings : Settings) (key : String) : Bool :=
  settings.get? key = some "true"

/-- The first `n` characters of a text, as a database cuts them: a null character ends the text. -/
def firstChars (n : Nat) (text : String) : List Char :=
  (text.toList.takeWhile (· ≠ '\x00')).take n

/-- The settings whose key, cut to as many characters as the beginning has bytes, is the beginning;
in ascending byte order of the keys. -/
def withBeginning (settings : Settings) (beginning : String) : List (String × String) :=
  settings.entries.filter fun entry =>
    firstChars (Bytes.ofText beginning).length entry.1 = beginning.toList

/-- The non-empty texts between a beginning and an ending of a key. -/
def idsBetween (settings : Settings) (beginning ending : String) : List String :=
  (settings.withBeginning beginning).filterMap fun entry => do
    let rest ← Text.stripStart? beginning entry.1
    let id ← Text.stripEnd? ending rest
    if id.isEmpty then none else some id

/-- The harvesters that have a root. -/
def harvesterIds (settings : Settings) : List String :=
  settings.idsBetween "harvester." ".root"

/-- The listeners that have a harvester to watch. -/
def listenerNames (settings : Settings) : List String :=
  settings.idsBetween "listener." ".watch"

end Settings

namespace HarvesterConfig

/-- The key of a setting of a harvester. -/
def key (id name : String) : String :=
  "harvester." ++ id ++ "." ++ name

/-- The interval given in whole seconds, if it is given. -/
def readInterval (settings : Settings) (id : String) : Except ConfigError Nat :=
  let name := key id "poll_interval_secs"
  match settings.get? name with
  | none => .ok defaultInterval
  | some text =>
    match Decimal.unsigned64? text with
    | some seconds => .ok (1000 * seconds)
    | none => .error (.invalidValue name text)

/-- The overrides given as a JSON array of pairs, if they are given. -/
def readOverrides (settings : Settings) (id : String) : Except ConfigError Overrides :=
  let name := key id "attribute_overrides"
  match settings.get? name with
  | none => .ok Table.empty
  | some text =>
    match (Json.parse? (Bytes.ofText text)).bind (Json.Source.list? Json.Source.text?) with
    | some pairs => Overrides.ofPairs pairs
    | none => .error (.invalidValue name text)

def readPolicy (settings : Settings) (id : String) : Except ConfigError ListenerPolicy :=
  match settings.get? (key id "listener_policy") with
  | none => .ok .fanOut
  | some text => ListenerPolicy.ofText text

def readIdle (settings : Settings) (id : String) : Except ConfigError Bool :=
  let name := key id "idle_without_listeners"
  match settings.get? name with
  | none => .ok true
  | some text =>
    if text = "true" then .ok true
    else if text = "false" then .ok false
    else .error (.invalidValue name text)

/-- The configuration that the settings of a harvester describe. Of several faults the first in this
order is reported: root, interval, overrides, policy, idling, and then what `validate` finds. -/
def ofSettings (settings : Settings) (id : String) : Except ConfigError HarvesterConfig := do
  let root ← match settings.get? (key id "root") with
    | some root => Except.ok root
    | none => Except.error (.missingKey (key id "root"))
  let interval ← readInterval settings id
  let overrides ← readOverrides settings id
  let policy ← readPolicy settings id
  let idle ← readIdle settings id
  let config : HarvesterConfig := ⟨id, canonicalRoot root, interval, overrides, policy, idle⟩
  config.validate
  return config

end HarvesterConfig

/-- A persistent listener: its name, the id of the harvester it watches, and the directory of its
catalog if that is not the usual one. -/
structure ListenerConfig where
  name : String
  watch : String
  catalogDir : Option String
  deriving DecidableEq

namespace ListenerConfig

/-- The key of a setting of a listener. -/
def key (name setting : String) : String :=
  "listener." ++ name ++ "." ++ setting

/-- The listener that the settings describe; it needs a harvester to watch. -/
def ofSettings (settings : Settings) (name : String) : Except ConfigError ListenerConfig :=
  match (settings.get? (key name "watch")).filter fun watch => !Text.isBlank watch with
  | none => .error (.missingKey (key name "watch"))
  | some watch => .ok ⟨name, watch, settings.get? (key name "catalog_dir")⟩

end ListenerConfig

end CatalogSync
