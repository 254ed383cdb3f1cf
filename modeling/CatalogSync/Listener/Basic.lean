import CatalogSync.Changes
import CatalogSync.Content
import CatalogSync.Outcome
import CatalogSync.Resource
import CatalogSync.Store.Basic

namespace CatalogSync

inductive ListenerError where
  | persistence (reason : StoreError)
  | failed (reason : String)
  deriving DecidableEq, Repr

def ListenerError.message : ListenerError → String
  | persistence reason => "Persistence error: " ++ reason.message
  | failed reason => "Listener failed: " ++ reason

/-- A listener over a state `σ`. The content of a resource can be read while it is handled. -/
structure Listener (σ : Type) where
  name : String
  onCreate : Resource → StateM (Reading σ) (Outcome ListenerError Unit)
  onUpdate : Resource → StateM (Reading σ) (Outcome ListenerError Unit)
  onDelete : DeletedResource → StateM σ (Outcome ListenerError Unit)

end CatalogSync
