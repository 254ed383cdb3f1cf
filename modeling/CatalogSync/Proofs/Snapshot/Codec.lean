import CatalogSync.Proofs.Json.Fields
import CatalogSync.Snapshot.Codec

namespace CatalogSync

open Json

namespace Fingerprint

theorem ofSource?_eq_some {source size modified : Source} {n : Nat} {m : Int}
    (hfields : source.fields? ["size", "modified_ms"] = some [some size, some modified])
    (hsize : size.below? UInt64.size = some n) (hmodified : modified.int64? = some m) :
    ofSource? source = some ⟨UInt64.ofNat n, Int64.ofInt m⟩ := by
  rw [ofSource?, hfields]
  simp [hsize, hmodified]

theorem ofSource?_toJson (fingerprint : Fingerprint) :
    ofSource? (source fingerprint.toJson) = some fingerprint := by
  have hfields : (source fingerprint.toJson).fields? ["size", "modified_ms"] =
      some [some (source (.num fingerprint.size.toNat)),
        some (source (.num fingerprint.modified.toInt))] := by
    rw [toJson, fields?_source_obj]
    simp [Source.field?]
  have hlow := fingerprint.modified.le_toInt
  have hhigh := fingerprint.modified.toInt_lt
  have h := ofSource?_eq_some hfields (below?_source_num fingerprint.size.toNat_lt)
    (int64?_source_num (by omega))
  simpa using h

end Fingerprint

namespace Snapshot

theorem versionOf?_toJson (snapshot : Snapshot) :
    versionOf? (source snapshot.toJson) = some version := by
  have hversion : (source (.num (version : Nat))).below? UInt32.size = some version :=
    below?_source_num (by decide)
  rw [versionOf?, toJson, fields?_source_obj]
  simp [Source.field?, hversion]

theorem ofSource?_toJson (snapshot : Snapshot) :
    ofSource? (source snapshot.toJson) = some snapshot := by
  have hversion : (source (.num (version : Nat))).below? UInt32.size = some version :=
    below?_source_num (by decide)
  have htable := table?_source_ofTable Fingerprint.ofSource?_toJson snapshot.table
  rw [ofSource?, toJson, fields?_source_obj]
  simp [Source.field?, hversion, htable]

theorem decode_encode (snapshot : Snapshot) : decode snapshot.encode = .ok snapshot := by
  rw [decode, encode, parse?_compact]
  simp only [versionOf?_toJson, ofSource?_toJson, if_true]

theorem encode_injective : Function.Injective encode := by
  intro snapshot other h
  have hdecoded := congrArg decode h
  rw [decode_encode, decode_encode] at hdecoded
  exact Except.ok.inj hdecoded

/-- The fingerprint that a listing gives last for a path. -/
def lastFingerprint? (listing : List ListingEntry) (path : String) : Option Fingerprint :=
  (listing.reverse.find? fun entry => entry.path = path).map ListingEntry.fingerprint

theorem get?_ofListing (listing : List ListingEntry) (path : String) :
    (ofListing listing).get? path = lastFingerprint? listing path := by
  rw [get?, ofListing, Table.get?_ofList, ← List.map_reverse, List.find?_map, Option.map_map]
  rfl

/-- What would be written in the place of what is stored. -/
def normalForm (bytes : Bytes) : Except SnapshotError Bytes :=
  (decode bytes).map encode

theorem bind_normalForm {α : Type} (bytes : Bytes) (f : Bytes → Except SnapshotError α) :
    (normalForm bytes).bind f = (decode bytes).bind fun snapshot => f snapshot.encode := by
  rw [normalForm]
  cases decode bytes <;> rfl

theorem decode_normalForm (bytes : Bytes) : (normalForm bytes).bind decode = decode bytes := by
  rw [bind_normalForm]
  cases hdecoded : decode bytes with
  | error e => rfl
  | ok snapshot => exact decode_encode snapshot

theorem normalForm_normalForm (bytes : Bytes) :
    (normalForm bytes).bind normalForm = normalForm bytes := by
  have hnormal : ∀ snapshot : Snapshot, normalForm snapshot.encode = .ok snapshot.encode := by
    intro snapshot
    rw [normalForm, decode_encode]
    rfl
  simp only [bind_normalForm, hnormal]
  rw [normalForm]
  cases decode bytes <;> rfl

theorem normalForm_eq_iff {bytes : Bytes} {snapshot : Snapshot} :
    normalForm bytes = .ok snapshot.encode ↔ decode bytes = .ok snapshot := by
  rw [normalForm]
  cases decode bytes with
  | error e => simp [Except.map]
  | ok other =>
    simp only [Except.map, Except.ok.injEq]
    exact encode_injective.eq_iff

/-- The view of any listing is read back as it was written, with the last fingerprint of every path.
What can be read from any bytes is read again once it has been written anew, and nothing else has
the same written form. -/
theorem every_snapshot_is_read_back :
    (∀ listing, decode (ofListing listing).encode = .ok (ofListing listing) ∧
      ∀ path, (ofListing listing).get? path = lastFingerprint? listing path) ∧
    (∀ bytes snapshot, decode bytes = .ok snapshot →
      decode snapshot.encode = .ok snapshot ∧
        ∀ other, normalForm other = .ok snapshot.encode ↔ decode other = .ok snapshot) ∧
    Function.Injective encode ∧
    ∀ bytes, (normalForm bytes).bind decode = decode bytes ∧
      (normalForm bytes).bind normalForm = normalForm bytes := by
  refine ⟨?_, ?_, encode_injective, ?_⟩
  · intro listing
    exact ⟨decode_encode _, get?_ofListing listing⟩
  · intro bytes snapshot _
    exact ⟨decode_encode snapshot, fun other => normalForm_eq_iff⟩
  · intro bytes
    exact ⟨decode_normalForm bytes, normalForm_normalForm bytes⟩

/-- A stored form with blanks, escapes, members in another order, a short entry and a repeated
one. -/
def untidy : Bytes :=
  Bytes.ofText (" \x7b \"entries\" : \x7b\"b\":\x7b\"modified_ms\":-5,\"size\":1," ++
    "\"more\":[]\x7d,\"\\u0061\\\"\":[7,3],\"b\":\x7b\"size\":2,\"modified_ms\":4\x7d\x7d," ++
    " \"version\":1\x7d")

theorem untidy_read_again :
    decode untidy = .ok (ofListing [⟨"b", ⟨9, 9⟩⟩, ⟨"a\"", ⟨7, 3⟩⟩, ⟨"b", ⟨2, 4⟩⟩]) ∧
      decode (ofListing [⟨"b", ⟨9, 9⟩⟩, ⟨"a\"", ⟨7, 3⟩⟩, ⟨"b", ⟨2, 4⟩⟩]).encode =
        .ok (ofListing [⟨"b", ⟨9, 9⟩⟩, ⟨"a\"", ⟨7, 3⟩⟩, ⟨"b", ⟨2, 4⟩⟩]) := by
  have huntidy : decode untidy =
      .ok (ofListing [⟨"b", ⟨9, 9⟩⟩, ⟨"a\"", ⟨7, 3⟩⟩, ⟨"b", ⟨2, 4⟩⟩]) := by
    decide +kernel
  exact ⟨huntidy, (every_snapshot_is_read_back.2.1 _ _ huntidy).1⟩

end Snapshot

end CatalogSync
