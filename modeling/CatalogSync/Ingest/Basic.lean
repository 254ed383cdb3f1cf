import CatalogSync.Content
import CatalogSync.Outcome
import CatalogSync.Part
import CatalogSync.Record.Basic
import CatalogSync.Resource

namespace CatalogSync

inductive IngestError where
  | rejected (reason : String)
  | unavailable (reason : String)
  | transform (reason : String)
  | storage (reason : String)
  deriving DecidableEq, Repr

def IngestError.message : IngestError → String
  | rejected reason => "Rejected by catalog: " ++ reason
  | unavailable reason => "Resource content unavailable: " ++ reason
  | transform reason => "Transform failed: " ++ reason
  | storage reason => "Storage error: " ++ reason

/-- An adapter over a state `σ`. Creating and updating may read the content of the resource. -/
structure Adapter (σ : Type) where
  /-- Creates the downstream record of a resource and answers its id. -/
  create : Resource → StateM (Reading σ) (Outcome IngestError String)
  /-- Updates the downstream record with an id; the answer is its id from now on. -/
  update : Resource → String → StateM (Reading σ) (Outcome IngestError String)
  /-- Deletes the downstream record with an id. -/
  delete : String → StateM σ (Outcome IngestError Unit)

/-- A catalog over a state `σ`. -/
structure Catalog (σ : Type) where
  /-- Stores a new record and answers the id that was issued for it. -/
  create : Record → StateM σ (Except IngestError String)
  /-- Replaces the record with an id. -/
  update : String → Record → StateM σ (Except IngestError String)
  delete : String → StateM σ (Except IngestError Unit)

/-- A catalog over a part of the state. -/
def Catalog.over {σ s : Type} (part : Part σ s) (catalog : Catalog s) : Catalog σ where
  create := fun record => part.lift (catalog.create record)
  update := fun id record => part.lift (catalog.update id record)
  delete := fun id => part.lift (catalog.delete id)

/-- Describes a resource with its content by a record. The id is that of the record to be replaced,
if there is one. -/
abbrev Transformer := Resource → Content → Option String → Except IngestError Record

/-- A transformer that always fails. -/
def Transformer.failing (reason : String) : Transformer := fun _ _ _ =>
  .error (.transform reason)

/-- A transformer that always answers the same attributes, under a given id or else under that of
the record to be replaced. -/
def Transformer.constant (id : Option String) (attributes : Table Json) : Transformer :=
  fun _ _ existing => .ok ⟨id <|> existing, attributes⟩

end CatalogSync
