import CatalogSync.Decimal

/-!
What a JSON text says before it is given a meaning: its structure, its string literals as written,
and its numerals as written. A literal is checked for well-formed text only when somebody asks for
that text, and a numeral for its range only when somebody asks for its value.
-/

namespace CatalogSync.Json

/-- A piece of a string literal: a byte, or a 16-bit unit given by four hexadecimal digits. -/
inductive Piece where
  | byte (value : UInt8)
  | unit (value : Nat)
  deriving DecidableEq

/-- What stands between the quotes. -/
abbrev Literal := List Piece

/-- A number as written: its sign, the digits before point and exponent, and whether there is
neither of these. -/
structure Numeral where
  negative : Bool
  digits : List Nat
  whole : Bool
  deriving DecidableEq

inductive Source where
  | null
  | bool (value : Bool)
  | number (numeral : Numeral)
  | text (literal : Literal)
  | array (items : List Source)
  | object (members : List (Literal × Source))

/-- The bytes of the character with a given code point, if there is such a character. -/
def encodePoint? (point : Nat) : Option Bytes :=
  if point < 0xD800 ∨ (0xE000 ≤ point ∧ point < 0x110000) then
    some (Bytes.ofText (String.ofList [Char.ofNat point]))
  else none

/-- The bytes of a literal. A unit between `D800` and `DBFF` counts only together with a following
unit between `DC00` and `DFFF`, and the latter only after the former. -/
def Literal.bytes? : Literal → Option Bytes
  | [] => some []
  | .byte b :: rest => (bytes? rest).map (b :: ·)
  | .unit u :: rest =>
    if 0xD800 ≤ u ∧ u < 0xDC00 then
      match rest with
      | .unit v :: rest =>
        if 0xDC00 ≤ v ∧ v < 0xE000 then do
          let point ← encodePoint? (0x10000 + (u - 0xD800) * 0x400 + (v - 0xDC00))
          return point ++ (← bytes? rest)
        else none
      | _ => none
    else do
      let point ← encodePoint? u
      return point ++ (← bytes? rest)

/-- The text of a literal, if its bytes are valid UTF-8. -/
def Literal.text? (literal : Literal) : Option String :=
  literal.bytes?.bind Bytes.toText?

/-- The value of a numeral that is an integer; a zero with a sign is none. -/
def Numeral.int? (numeral : Numeral) : Option Int :=
  let magnitude := Decimal.value numeral.digits
  if !numeral.whole then none
  else if numeral.negative then
    if magnitude = 0 then none else some (-(magnitude : Int))
  else some (magnitude : Int)

end CatalogSync.Json
