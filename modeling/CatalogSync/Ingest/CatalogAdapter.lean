import CatalogSync.Ingest.Metadata

/-!
The adapter that describes a resource by a record and hands that to a catalog. Of the attributes,
overrides come first, then those of the transformer, then defaults.
-/

namespace CatalogSync.CatalogAdapter

variable {σ : Type}

/-- Fills in the attributes that the transformer has left open. -/
def fillDefaults (resource : Resource) (content : Content) (record : Record) : Record :=
  ((record.setIfAbsent Attribute.title resource.name).setIfAbsent Attribute.resourceSize
    (Decimal.text content.size)).setIfAbsent Attribute.resourceUri resource.location

/-- One value stands for itself, several stand in an array. -/
def overrideValue : List String → Json
  | [value] => .str value
  | values => Json.ofStrings values

def applyOverrides (overrides : Overrides) (record : Record) : Record :=
  overrides.entries.foldl (fun record entry => record.set entry.1 (overrideValue entry.2)) record

/-- The record for a resource. -/
def describe (transformer : Transformer) (resource : Resource) (content : Content)
    (existing : Option String) : Except IngestError Record :=
  match transformer resource content existing with
  | .ok record => .ok (applyOverrides resource.overrides (fillDefaults resource content record))
  | .error e => .error e

/-- Reads the content of a resource and makes the record for it. -/
def buildRecord (transformer : Transformer) (resource : Resource) (existing : Option String) :
    StateM (Reading σ) (Except IngestError Record) := do
  match ← Reading.read with
  | .ok content => return describe transformer resource content existing
  | .error e => return .error (.unavailable e.message)

/-- The adapter from a transformer to a catalog. -/
def adapter (transformer : Transformer) (catalog : Catalog σ) : Adapter σ where
  create := fun resource => do
    match ← buildRecord transformer resource none with
    | .ok record => return .ofExcept (← Reading.onWorld (catalog.create record))
    | .error e => return .error e
  update := fun resource id => do
    match ← buildRecord transformer resource (some id) with
    | .ok record =>
      return .ofExcept (← Reading.onWorld (catalog.update id { record with id := some id }))
    | .error e => return .error e
  delete := fun id => do return .ofExcept (← catalog.delete id)

end CatalogSync.CatalogAdapter
