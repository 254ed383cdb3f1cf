import CatalogSync.Identity
import CatalogSync.Json.Decode
import CatalogSync.Json.Parser
import CatalogSync.Json.Printer
import CatalogSync.Time.Timestamp

namespace CatalogSync

structure Correlation where
  downstreamId : String
  location : String
  recordedAt : Time.Timestamp
  deriving DecidableEq

namespace Correlation

def toJson (row : Correlation) : Json :=
  .obj [("downstream_id", .str row.downstreamId), ("location", .str row.location),
    ("recorded_at", .str row.recordedAt.text)]

def encode (row : Correlation) : Bytes :=
  row.toJson.compact

def ofSource? (source : Json.Source) : Option Correlation := do
  match ← source.fields? ["downstream_id", "location", "recorded_at"] with
  | [some id, some location, some recordedAt] =>
    return ⟨← id.text?, ← location.text?, ← Time.Timestamp.ofText? (← recordedAt.text?)⟩
  | _ => none

def decode? (bytes : Bytes) : Option Correlation :=
  (Json.parse? bytes).bind ofSource?

/-- The namespace of the correlation map of a listener. -/
def namespaceOf (listenerName : String) : String :=
  "harvest/persistent/" ++ persistenceKey listenerName

end Correlation

end CatalogSync
