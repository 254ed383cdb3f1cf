import CatalogSync.Bytes
import CatalogSync.Part

namespace CatalogSync

inductive StoreError where
  | database (reason : String)
  | codec (reason : String)
  deriving DecidableEq, Repr

def StoreError.message : StoreError → String
  | database reason => "Database error: " ++ reason
  | codec reason => "Codec error: " ++ reason

/-- A store over a state `σ`. Every write touches one key. -/
structure BlobStore (σ : Type) where
  /-- Puts a blob under a key, in the place of the one that is there. -/
  store : String → Bytes → StateM σ (Except StoreError Unit)
  load : String → StateM σ (Except StoreError (Option Bytes))
  /-- Removes a key and says whether it was there. -/
  delete : String → StateM σ (Except StoreError Bool)
  /-- The keys in ascending byte order. -/
  keys : StateM σ (Except StoreError (List String))

/-- A store of which nothing can be changed, for a reason. -/
def BlobStore.readOnly {σ : Type} (reason : StoreError) (store : BlobStore σ) : BlobStore σ :=
  { store with
    store := fun _ _ => pure (.error reason)
    delete := fun _ => pure (.error reason) }

/-- A store over a part of the state. -/
def BlobStore.over {σ s : Type} (part : Part σ s) (store : BlobStore s) : BlobStore σ where
  store := fun key blob => part.lift (store.store key blob)
  load := fun key => part.lift (store.load key)
  delete := fun key => part.lift (store.delete key)
  keys := part.lift store.keys

end CatalogSync
