import CatalogSync.Json.Source
import CatalogSync.Json.Value

/-!
Reading typed data out of JSON. A record is an object that gives every field once, with other
members ignored, or an array that lists exactly its fields. A table is an object; of several
members with one key the last counts.
-/

namespace CatalogSync.Json.Source

def text? : Source → Option String
  | .text literal => literal.text?
  | _ => none

def int? : Source → Option Int
  | .number numeral => numeral.int?
  | _ => none

/-- A whole number below `bound`. -/
def below? (bound : Nat) (source : Source) : Option Nat := do
  let n ← source.int?
  if 0 ≤ n ∧ n < bound then some n.toNat else none

/-- A whole number that fits 64 bits with sign. -/
def int64? (source : Source) : Option Int := do
  let n ← source.int?
  if -0x8000_0000_0000_0000 ≤ n ∧ n < 0x8000_0000_0000_0000 then some n else none

def isNull : Source → Bool
  | .null => true
  | _ => false

/-- The items of an array, each read by `item?`. -/
def list? {α : Type} (item? : Source → Option α) : Source → Option (List α)
  | .array items => items.mapM item?
  | _ => none

/-- The members of an object with the texts of their keys. -/
def members? : Source → Option (List (String × Source))
  | .object members => members.mapM fun (key, value) => do return (← key.text?, value)
  | _ => none

/-- An object as a table with its values read by `value?`. -/
def table? {α : Type} (value? : Source → Option α) (source : Source) : Option (Table α) := do
  let members ← source.members?
  let entries ← members.mapM fun (key, value) => do return (key, ← value? value)
  return Table.ofList entries

/-- The value of a field that at most one member gives; two members are an error. -/
def field? (name : String) (members : List (String × Source)) : Option (Option Source) :=
  match members.filter fun member => member.1 = name with
  | [] => some none
  | [member] => some (some member.2)
  | _ => none

/-- The values of the named fields, in the order of the names: those of an object, where a field may
be missing, or the items of an array of the same length. -/
def fields? (names : List String) : Source → Option (List (Option Source))
  | .array items => if items.length = names.length then some (items.map some) else none
  | .object members => do
    let members ← (Source.object members).members?
    names.mapM fun name => field? name members
  | _ => none

mutual

/-- The value of a JSON text whose arrays and objects are nested at most `depth` deep. Numbers have
to fit 64 bits, with or without sign. -/
def toJson? : Nat → Source → Option Json
  | _, .null => some .null
  | _, .bool b => some (.bool b)
  | _, .number numeral => do
    let n ← numeral.int?
    if -0x8000_0000_0000_0000 ≤ n ∧ n < UInt64.size then some (.num n) else none
  | _, .text literal => literal.text?.map .str
  | 0, .array _ => none
  | depth + 1, .array items => (toItems? depth items).map .arr
  | 0, .object _ => none
  | depth + 1, .object members =>
    (toMembers? depth members).map fun entries => .ofTable (Table.ofList entries)

def toItems? : Nat → List Source → Option (List Json)
  | _, [] => some []
  | depth, item :: rest => do
    return (← toJson? depth item) :: (← toItems? depth rest)

def toMembers? : Nat → List (Literal × Source) → Option (List (String × Json))
  | _, [] => some []
  | depth, (key, value) :: rest => do
    return (← key.text?, ← toJson? depth value) :: (← toMembers? depth rest)

end

end CatalogSync.Json.Source
