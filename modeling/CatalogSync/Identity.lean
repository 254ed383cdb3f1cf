import CatalogSync.Sha256

namespace CatalogSync

/-- The key under which the data belonging to a logical name is stored. -/
def persistenceKey (name : String) : String :=
  Sha256.hexDigest (Bytes.ofText name)

/-- The identity of a resource across polls and restarts. -/
def correlationId (location : String) : String :=
  persistenceKey location

end CatalogSync
