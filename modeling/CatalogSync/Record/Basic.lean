import CatalogSync.Json.Value

namespace CatalogSync

structure Record where
  id : Option String
  attributes : Table Json

namespace Record

def empty : Record := ⟨none, Table.empty⟩

instance : Inhabited Record := ⟨empty⟩

def get? (record : Record) (name : String) : Option Json :=
  record.attributes.get? name

def set (record : Record) (name : String) (value : Json) : Record :=
  { record with attributes := record.attributes.insert name value }

/-- Gives an attribute a text unless it has a value already; the empty text is never given. -/
def setIfAbsent (record : Record) (name value : String) : Record :=
  if value.isEmpty || record.attributes.contains name then record
  else record.set name (.str value)

end Record

end CatalogSync
