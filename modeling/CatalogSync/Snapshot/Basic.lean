import CatalogSync.Table

namespace CatalogSync

/-- What is compared to detect that a resource has changed: its size, and its time of modification
in milliseconds from the start of 1970. -/
structure Fingerprint where
  size : UInt64
  modified : Int64
  deriving DecidableEq

/-- One entry of a listing: a path below the root, with slashes, and its fingerprint. -/
structure ListingEntry where
  path : String
  fingerprint : Fingerprint
  deriving DecidableEq

/-- A listing in ascending order of the paths. -/
def ListingEntry.sorted (listing : List ListingEntry) : List ListingEntry :=
  listing.mergeSort fun a b => !Text.before b.path a.path

structure Snapshot where
  table : Table Fingerprint
  deriving DecidableEq

namespace Snapshot

def empty : Snapshot := ⟨Table.empty⟩

/-- The snapshot of a listing. A path listed more than once keeps its last fingerprint. -/
def ofListing (listing : List ListingEntry) : Snapshot :=
  ⟨Table.ofList (listing.map fun entry => (entry.path, entry.fingerprint))⟩

def get? (snapshot : Snapshot) (path : String) : Option Fingerprint :=
  snapshot.table.get? path

def contains (snapshot : Snapshot) (path : String) : Bool :=
  (snapshot.get? path).isSome

/-- The paths in ascending byte order. -/
def paths (snapshot : Snapshot) : List String :=
  snapshot.table.keys

def size (snapshot : Snapshot) : Nat :=
  snapshot.table.size

/-- The snapshot as a listing, in ascending order of the paths. -/
def toListing (snapshot : Snapshot) : List ListingEntry :=
  snapshot.table.entries.map fun entry => ⟨entry.1, entry.2⟩

end Snapshot

end CatalogSync
