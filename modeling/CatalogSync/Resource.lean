import CatalogSync.Identity
import CatalogSync.Overrides

namespace CatalogSync

/-- A created or modified resource. -/
structure Resource where
  location : String
  properties : Properties

namespace Resource

def correlationId (resource : Resource) : String :=
  CatalogSync.correlationId resource.location

/-- The last segment of the location, slashes at the end left aside. -/
def name (resource : Resource) : String :=
  String.ofList (Text.lastPiece '/' (Text.trimEnd '/' resource.location.toList))

def overrides (resource : Resource) : Overrides :=
  Overrides.ofProperties resource.properties

end Resource

/-- A resource that is gone. -/
structure DeletedResource where
  location : String
  deriving DecidableEq

def DeletedResource.correlationId (resource : DeletedResource) : String :=
  CatalogSync.correlationId resource.location

end CatalogSync
