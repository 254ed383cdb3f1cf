import CatalogSync.Ingest.Basic
import CatalogSync.Decimal

namespace CatalogSync

inductive CatalogCall where
  | create (record : Record)
  | update (id : String) (record : Record)
  | delete (id : String)

structure CatalogLog where
  calls : List CatalogCall
  denies : Bool
  /-- How many ids have been issued. -/
  issued : Nat

namespace CatalogLog

def start (denies : Bool) : CatalogLog := ⟨[], denies, 0⟩

instance : Inhabited CatalogLog := ⟨start false⟩

def note (log : CatalogLog) (call : CatalogCall) : CatalogLog :=
  { log with calls := log.calls ++ [call] }

def denial : IngestError := .rejected "scripted denial"

/-- The ids of new records are numbered from one. -/
def create (record : Record) : StateM CatalogLog (Except IngestError String) := fun log =>
  let log := log.note (.create record)
  if log.denies then (.error denial, log)
  else (.ok ("cat-" ++ Decimal.text (log.issued + 1)), { log with issued := log.issued + 1 })

def update (id : String) (record : Record) : StateM CatalogLog (Except IngestError String) :=
  fun log =>
    let log := log.note (.update id record)
    (if log.denies then .error denial else .ok id, log)

def delete (id : String) : StateM CatalogLog (Except IngestError Unit) := fun log =>
  let log := log.note (.delete id)
  (if log.denies then .error denial else .ok (), log)

def catalog : Catalog CatalogLog := ⟨create, update, delete⟩

end CatalogLog

end CatalogSync
