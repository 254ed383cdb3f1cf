import CatalogSync.Decimal
import CatalogSync.Json.Value

namespace CatalogSync.Json

/-- The bytes of a text that is known to be ASCII. -/
def ascii (text : String) : Bytes :=
  Bytes.ofText text

/-- Inside quotes a quote, a backslash and every control byte is escaped; the common control bytes
have letters, the others four hexadecimal digits. -/
def escapeByte (b : UInt8) : Bytes :=
  if b = '"'.toUInt8 then ascii "\\\""
  else if b = '\\'.toUInt8 then ascii "\\\\"
  else if b = 0x08 then ascii "\\b"
  else if b = 0x09 then ascii "\\t"
  else if b = 0x0A then ascii "\\n"
  else if b = 0x0C then ascii "\\f"
  else if b = 0x0D then ascii "\\r"
  else if b < 0x20 then ascii "\\u00" ++ ascii (Bytes.toHex [b])
  else [b]

def quote (text : String) : Bytes :=
  '"'.toUInt8 :: (Bytes.ofText text).flatMap escapeByte ++ ['"'.toUInt8]

def printInt (n : Int) : Bytes :=
  ascii (Decimal.intText n)

def openBrace : UInt8 := 0x7B
def closeBrace : UInt8 := 0x7D
def openBracket : UInt8 := 0x5B
def closeBracket : UInt8 := 0x5D
def comma : UInt8 := 0x2C
def colon : UInt8 := 0x3A

mutual

/-- The written form without white space. -/
def compact : Json → Bytes
  | null => ascii "null"
  | bool true => ascii "true"
  | bool false => ascii "false"
  | num n => printInt n
  | str text => quote text
  | arr items => openBracket :: compactItems items
  | obj members => openBrace :: compactMembers members

/-- The items of an array and its closing bracket. -/
def compactItems : List Json → Bytes
  | [] => [closeBracket]
  | [item] => compact item ++ [closeBracket]
  | item :: rest => compact item ++ comma :: compactItems rest

/-- The members of an object and its closing brace. -/
def compactMembers : List (String × Json) → Bytes
  | [] => [closeBrace]
  | [(key, value)] => quote key ++ colon :: compact value ++ [closeBrace]
  | (key, value) :: rest => quote key ++ colon :: compact value ++ comma :: compactMembers rest

end

/-- A line break followed by the indentation of a level. -/
def newLine (level : Nat) : Bytes :=
  0x0A :: List.replicate (2 * level) 0x20

mutual

/-- The written form over several lines, for a value whose first line stands at `level`. An empty
array or object stays on one line. -/
def pretty (level : Nat) : Json → Bytes
  | null => ascii "null"
  | bool true => ascii "true"
  | bool false => ascii "false"
  | num n => printInt n
  | str text => quote text
  | arr [] => [openBracket, closeBracket]
  | arr (item :: rest) =>
    openBracket :: newLine (level + 1) ++ pretty (level + 1) item ++ prettyItems level rest
  | obj [] => [openBrace, closeBrace]
  | obj ((key, value) :: rest) =>
    openBrace :: newLine (level + 1) ++ quote key ++ ascii ": " ++ pretty (level + 1) value ++
      prettyMembers level rest

/-- The items after the first, and the closing bracket on a line of its own. -/
def prettyItems (level : Nat) : List Json → Bytes
  | [] => newLine level ++ [closeBracket]
  | item :: rest =>
    comma :: newLine (level + 1) ++ pretty (level + 1) item ++ prettyItems level rest

/-- The members after the first, and the closing brace on a line of its own. -/
def prettyMembers (level : Nat) : List (String × Json) → Bytes
  | [] => newLine level ++ [closeBrace]
  | (key, value) :: rest =>
    comma :: newLine (level + 1) ++ quote key ++ ascii ": " ++ pretty (level + 1) value ++
      prettyMembers level rest

end

end CatalogSync.Json
