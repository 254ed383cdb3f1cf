import CatalogSync.Table

namespace CatalogSync

inductive Json where
  | null
  | bool (value : Bool)
  | num (value : Int)
  | str (text : String)
  | arr (items : List Json)
  | obj (members : List (String × Json))
  deriving BEq, Inhabited, Repr

namespace Json

/-- The object with the entries of a table, in ascending order of the keys. -/
def ofTable (table : Table Json) : Json :=
  obj table.entries

def ofStrings (texts : List String) : Json :=
  arr (texts.map str)

/-- The value of a member of an object; a null counts as no value. -/
def member? (json : Json) (name : String) : Option Json :=
  match json with
  | obj members => ((members.find? fun m => m.1 == name).map Prod.snd).filter fun v => v != null
  | _ => none

/-- The items of an array; nothing else has any. -/
def items : Json → List Json
  | arr items => items
  | _ => []

def text? : Json → Option String
  | str text => some text
  | _ => none

mutual

/-- Changes all texts of a value, keys included. -/
def mapTexts (f : String → String) : Json → Json
  | null => null
  | bool value => bool value
  | num value => num value
  | str text => str (f text)
  | arr items => arr (mapItems f items)
  | obj members => obj (mapMembers f members)

def mapItems (f : String → String) : List Json → List Json
  | [] => []
  | item :: rest => mapTexts f item :: mapItems f rest

def mapMembers (f : String → String) : List (String × Json) → List (String × Json)
  | [] => []
  | (key, value) :: rest => (f key, mapTexts f value) :: mapMembers f rest

end

/-- The texts of an array of nothing but texts. -/
def strings? : Json → Option (List String)
  | arr items => items.mapM text?
  | _ => none

end Json

end CatalogSync
