import CatalogSync.Config.Settings
import CatalogSync.Store.Basic
import CatalogSync.Store.BlobTable

namespace CatalogSync

structure Database where
  /-- The settings, once their table has been created. -/
  settings : Option Settings
  /-- The blobs of every namespace. -/
  blobs : BlobTable

namespace Database

def empty : Database := ⟨none, BlobTable.empty⟩

instance : Inhabited Database := ⟨empty⟩

/-- Creates the table of settings unless it is there. -/
def withSettings (database : Database) : Database :=
  { database with settings := some (database.settings.getD Table.empty) }

/-- The settings; it is an error to ask for them before their table has been created. -/
def readSettings (database : Database) : Except ConfigError Settings :=
  match database.settings with
  | some settings => .ok settings
  | none => .error (.database "no such table: app_config")

/-- Changes the settings. -/
def changeSettings (change : Settings → Settings) : StateM Database (Except ConfigError Unit) :=
  fun database =>
    match database.readSettings with
    | .ok settings => (.ok (), { database with settings := some (change settings) })
    | .error e => (.error e, database)

/-- The store confined to a namespace. Every statement that it makes names the namespace; the keys
are collected in ascending order. -/
def blobStore (namespaceName : String) : BlobStore Database where
  store := fun key blob database =>
    (.ok (), { database with blobs := database.blobs.replace ⟨namespaceName, key, blob⟩ })
  load := fun key database => (.ok (database.blobs.value? namespaceName key), database)
  delete := fun key database =>
    let (removed, blobs) := database.blobs.remove namespaceName key
    (.ok (decide (0 < removed)), { database with blobs := blobs })
  keys := fun database =>
    (.ok (Table.ofList ((database.blobs.keysIn namespaceName).map fun key => (key, ()))).keys,
      database)

end Database

end CatalogSync
