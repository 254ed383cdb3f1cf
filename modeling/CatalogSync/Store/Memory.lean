import CatalogSync.Store.Basic
import CatalogSync.Table

namespace CatalogSync

structure MemoryStore where
  blobs : Table Bytes
  failsWrites : Bool

namespace MemoryStore

def empty : MemoryStore := ⟨Table.empty, false⟩

instance : Inhabited MemoryStore := ⟨empty⟩

def writeFailure : StoreError := .database "simulated write failure"

def store (key : String) (blob : Bytes) : StateM MemoryStore (Except StoreError Unit) := fun s =>
  if s.failsWrites then (.error writeFailure, s)
  else (.ok (), { s with blobs := s.blobs.insert key blob })

def load (key : String) : StateM MemoryStore (Except StoreError (Option Bytes)) := fun s =>
  (.ok (s.blobs.get? key), s)

def delete (key : String) : StateM MemoryStore (Except StoreError Bool) := fun s =>
  if s.failsWrites then (.error writeFailure, s)
  else (.ok (s.blobs.contains key), { s with blobs := s.blobs.erase key })

def keys : StateM MemoryStore (Except StoreError (List String)) := fun s =>
  (.ok s.blobs.keys, s)

def blobStore : BlobStore MemoryStore := ⟨store, load, delete, keys⟩

end MemoryStore

end CatalogSync
