import CatalogSync.Bytes
import CatalogSync.Text.Affix

namespace CatalogSync

structure Uuid where
  bits : BitVec 128
  deriving DecidableEq

namespace Uuid

/-- The hexadecimal digits, most significant first. -/
def hexDigits (id : Uuid) : List Nat :=
  (List.range 32).map fun i => (id.bits.toNat >>> (4 * (31 - i))) % 16

/-- The written form: lower-case digits with hyphens. -/
def text (id : Uuid) : String :=
  let cs := id.hexDigits.map Bytes.hexDigit
  let group (start length : Nat) := (cs.drop start).take length
  String.ofList (group 0 8 ++ '-' :: group 8 4 ++ '-' :: group 12 4 ++ '-' :: group 16 4 ++
    '-' :: group 20 12)

/-- The identifier with these 32 digits. -/
def ofDigits? (cs : List Char) : Option Uuid :=
  if cs.length = 32 then
    (cs.mapM Bytes.hexValue?).map fun ds =>
      ⟨BitVec.ofNat 128 (ds.foldl (fun n d => 16 * n + d) 0)⟩
  else none

/-- Reads the form with hyphens between the groups. -/
def ofHyphenated? (cs : List Char) : Option Uuid :=
  match Text.splitOn '-' cs with
  | [a, b, c, d, e] =>
    if [a, b, c, d, e].map List.length = [8, 4, 4, 4, 12] then
      ofDigits? (a ++ b ++ c ++ d ++ e)
    else none
  | _ => none

def urnStart : List Char := "urn:uuid:".toList

/-- Reads any of the four accepted forms. -/
def ofText? (text : String) : Option Uuid :=
  let cs := text.toList
  match cs.length with
  | 32 => ofDigits? cs
  | 36 => ofHyphenated? cs
  | 38 =>
    if cs.head? = some '\x7b' ∧ cs.getLast? = some '\x7d' then
      ofHyphenated? ((cs.drop 1).take 36)
    else none
  | 45 =>
    if (cs.take 9).map Char.toLower = urnStart then ofHyphenated? (cs.drop 9) else none
  | _ => none

end Uuid

/-- A source of fresh identifiers. They differ in their last 62 bits, which count; the others are
fixed, with the version and the variant of random identifiers. -/
structure UuidSupply where
  issued : Nat
  deriving DecidableEq

namespace UuidSupply

def start : UuidSupply := ⟨0⟩

/-- The fixed bits of the identifiers of a supply. -/
def base : BitVec 128 := 0x9d3c51e7_4b0a_4f26_8000_000000000000

/-- The identifier with a given number. -/
def nth (n : Nat) : Uuid :=
  ⟨base + BitVec.ofNat 128 (n % 0x4000_0000_0000_0000)⟩

/-- The next identifier, and the supply without it. -/
def take (supply : UuidSupply) : Uuid × UuidSupply :=
  (nth supply.issued, ⟨supply.issued + 1⟩)

end UuidSupply

end CatalogSync
