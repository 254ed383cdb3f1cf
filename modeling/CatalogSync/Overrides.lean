import CatalogSync.Config.Error
import CatalogSync.Json.Decode
import CatalogSync.Json.Value
import CatalogSync.Text.Affix

namespace CatalogSync

/-- The properties that a harvester attaches to its resources. -/
abbrev Properties := Table Json

/-- The values that replace those of the named attributes. -/
abbrev Overrides := Table (List String)

namespace Overrides

/-- Splits a pair at its equals sign. There has to be exactly one, with something on both sides. -/
def splitPair? (pair : String) : Option (String × String) :=
  match Text.splitOn '=' pair.toList with
  | [name, value] =>
    if name.isEmpty ∨ value.isEmpty then none else some (String.ofList name, String.ofList value)
  | _ => none

/-- Adds a value behind the values that a name already has. -/
def add (overrides : Overrides) (name value : String) : Overrides :=
  overrides.insert name ((overrides.get? name).getD [] ++ [value])

/-- Reads pairs one after the other; the first malformed one is the error. -/
def addPairs (overrides : Overrides) : List String → Except ConfigError Overrides
  | [] => .ok overrides
  | pair :: rest =>
    match splitPair? pair with
    | some (name, value) => addPairs (overrides.add name value) rest
    | none => .error (.invalidOverride pair)

/-- The overrides that a list of pairs describes. -/
def ofPairs (pairs : List String) : Except ConfigError Overrides :=
  addPairs Table.empty pairs

def toJson (overrides : Overrides) : Json :=
  Json.ofTable (Table.map Json.ofStrings overrides)

/-- The property under which overrides travel. -/
def propertyName : String := "attribute-overrides"

/-- The properties that carry overrides: none at all if there are no overrides. -/
def toProperties (overrides : Overrides) : Properties :=
  if overrides.isEmpty then Table.empty
  else Table.empty.insert propertyName overrides.toJson

/-- Overrides as a property: an object of arrays of texts. -/
def ofJson? : Json → Option Overrides
  | .obj members =>
    (members.mapM fun (member : String × Json) =>
      member.2.strings?.map fun texts => (member.1, texts)).map Table.ofList
  | _ => none

/-- The overrides that properties carry; properties that carry none, or something else in their
place, stand for no overrides. -/
def ofProperties (properties : Properties) : Overrides :=
  ((properties.get? propertyName).bind ofJson?).getD Table.empty

/-- Overrides as stored: an object of arrays of texts. -/
def ofSource? (source : Json.Source) : Option Overrides :=
  source.table? (Json.Source.list? Json.Source.text?)

end Overrides

end CatalogSync
