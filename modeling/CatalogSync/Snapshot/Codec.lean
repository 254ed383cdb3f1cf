import CatalogSync.Json.Decode
import CatalogSync.Json.Parser
import CatalogSync.Json.Printer
import CatalogSync.Snapshot.Basic

/-!
The stored form of snapshots: one JSON object with a format version and the table of entries. The
version is looked at first and on its own, so that a snapshot of another version is recognised
whatever its layout is.
-/

namespace CatalogSync

inductive SnapshotError where
  | unsupportedVersion (found : Nat)
  | malformed
  deriving DecidableEq, Repr

/-- The version that is written, and the only one that is read. -/
def Snapshot.version : Nat := 1

def SnapshotError.message : SnapshotError → String
  | unsupportedVersion found =>
    "Unsupported snapshot version " ++ Decimal.text found ++ " (expected " ++
      Decimal.text Snapshot.version ++ ")"
  | malformed => "Snapshot codec error: malformed snapshot"

namespace Fingerprint

def toJson (fingerprint : Fingerprint) : Json :=
  .obj [("size", .num fingerprint.size.toNat), ("modified_ms", .num fingerprint.modified.toInt)]

def ofSource? (source : Json.Source) : Option Fingerprint := do
  match ← source.fields? ["size", "modified_ms"] with
  | [some size, some modified] =>
    return ⟨UInt64.ofNat (← size.below? UInt64.size), Int64.ofInt (← modified.int64?)⟩
  | _ => none

end Fingerprint

namespace ListingEntry

def toJson (entry : ListingEntry) : Json :=
  .obj [("path", .str entry.path), ("fingerprint", entry.fingerprint.toJson)]

def ofSource? (source : Json.Source) : Option ListingEntry := do
  match ← source.fields? ["path", "fingerprint"] with
  | [some path, some fingerprint] =>
    return ⟨← path.text?, ← Fingerprint.ofSource? fingerprint⟩
  | _ => none

end ListingEntry

namespace Snapshot

def toJson (snapshot : Snapshot) : Json :=
  .obj [("version", .num version),
    ("entries", .ofTable (snapshot.table.map Fingerprint.toJson))]

/-- The stored form. -/
def encode (snapshot : Snapshot) : Bytes :=
  snapshot.toJson.compact

/-- The version of a stored form, whatever else it holds. -/
def versionOf? (source : Json.Source) : Option Nat := do
  match ← source.fields? ["version"] with
  | [some version] => version.below? UInt32.size
  | _ => none

def ofSource? (source : Json.Source) : Option Snapshot := do
  match ← source.fields? ["version", "entries"] with
  | [some found, some entries] =>
    let _ ← found.below? UInt32.size
    return ⟨← entries.table? Fingerprint.ofSource?⟩
  | _ => none

def decode (bytes : Bytes) : Except SnapshotError Snapshot :=
  match Json.parse? bytes with
  | none => .error .malformed
  | some source =>
    match versionOf? source with
    | none => .error .malformed
    | some found =>
      if found = version then
        match ofSource? source with
        | some snapshot => .ok snapshot
        | none => .error .malformed
      else .error (.unsupportedVersion found)

end Snapshot

end CatalogSync
