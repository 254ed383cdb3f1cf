import CatalogSync.Json.Decode
import CatalogSync.Json.Parser
import CatalogSync.Json.Printer
import CatalogSync.Record.Basic

namespace CatalogSync.Record

def toJson (record : Record) : Json :=
  .obj [("id", (record.id.map Json.str).getD .null), ("attributes", .ofTable record.attributes)]

/-- How deep arrays and objects may be nested inside a value of an attribute. -/
def valueDepth : Nat := 125

def id? : Option Json.Source → Option (Option String)
  | none => some none
  | some source => if source.isNull then some none else source.text?.map some

def ofSource? (source : Json.Source) : Option Record := do
  match ← source.fields? ["id", "attributes"] with
  | [id, some attributes] =>
    return ⟨← id? id, ← attributes.table? (Json.Source.toJson? valueDepth)⟩
  | _ => none

def decode? (bytes : Bytes) : Option Record :=
  (Json.parse? bytes).bind ofSource?

/-- The record as a catalog keeps it in a file. -/
def encodePretty (record : Record) : Bytes :=
  record.toJson.pretty 0

end CatalogSync.Record
