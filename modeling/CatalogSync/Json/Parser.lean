import CatalogSync.Json.Source

namespace CatalogSync.Json

def isBlankByte (b : UInt8) : Bool :=
  b == 0x20 || b == 0x09 || b == 0x0A || b == 0x0D

def skipBlanks (input : Bytes) : Bytes :=
  input.dropWhile isBlankByte

def isDigit (b : UInt8) : Bool :=
  '0'.toUInt8 ≤ b && b ≤ '9'.toUInt8

def digitOf (b : UInt8) : Nat :=
  b.toNat - '0'.toNat

/-- Reads a fixed spelling. -/
def keyword? (spelling : String) (input : Bytes) : Option Bytes :=
  let bytes := Bytes.ofText spelling
  if bytes.isPrefixOf input then some (input.drop bytes.length) else none

/-- Reads at least one digit. -/
def digits? (input : Bytes) : Option (List Nat × Bytes) :=
  let ds := input.takeWhile isDigit
  if ds.isEmpty then none else some (ds.map digitOf, input.dropWhile isDigit)

/-- Reads the digits before the point: a zero alone, or a row that does not start with zero. -/
def integral? : Bytes → Option (List Nat × Bytes)
  | b :: rest => if b = '0'.toUInt8 then some ([0], rest) else digits? (b :: rest)
  | [] => none

/-- Reads a point and the digits behind it, if there is a point. The flag says whether there was
none. -/
def fraction? : Bytes → Option (Bool × Bytes)
  | b :: rest =>
    if b = '.'.toUInt8 then (digits? rest).map fun (_, rest) => (false, rest)
    else some (true, b :: rest)
  | [] => some (true, [])

def skipSign : Bytes → Bytes
  | b :: rest => if b = '+'.toUInt8 ∨ b = '-'.toUInt8 then rest else b :: rest
  | [] => []

/-- Reads an exponent, if there is one. The flag says whether there was none. -/
def exponent? : Bytes → Option (Bool × Bytes)
  | b :: rest =>
    if b = 'e'.toUInt8 ∨ b = 'E'.toUInt8 then
      (digits? (skipSign rest)).map fun (_, rest) => (false, rest)
    else some (true, b :: rest)
  | [] => some (true, [])

def unsigned? (negative : Bool) (input : Bytes) : Option (Numeral × Bytes) := do
  let (ds, rest) ← integral? input
  let (noFraction, rest) ← fraction? rest
  let (noExponent, rest) ← exponent? rest
  return (⟨negative, ds, noFraction && noExponent⟩, rest)

def numeral? : Bytes → Option (Numeral × Bytes)
  | b :: rest => if b = '-'.toUInt8 then unsigned? true rest else unsigned? false (b :: rest)
  | [] => none

/-- The unit written by four hexadecimal digits. -/
def unit? : Bytes → Option (Nat × Bytes)
  | a :: b :: c :: d :: rest => do
    let value ← [a, b, c, d].foldlM (fun n digit => do
      return 16 * n + (← Bytes.hexValue? (Char.ofNat digit.toNat))) 0
    return (value, rest)
  | _ => none

/-- The byte that an escape letter stands for. -/
def escapeLetter? (b : UInt8) : Option UInt8 :=
  if b = '"'.toUInt8 ∨ b = '\\'.toUInt8 ∨ b = '/'.toUInt8 then some b
  else if b = 'b'.toUInt8 then some 0x08
  else if b = 'f'.toUInt8 then some 0x0C
  else if b = 'n'.toUInt8 then some 0x0A
  else if b = 'r'.toUInt8 then some 0x0D
  else if b = 't'.toUInt8 then some 0x09
  else none

/-- Reads the rest of a string literal up to and including its closing quote. Control bytes have to
be escaped. -/
def literal? : Nat → Bytes → Option (Literal × Bytes)
  | 0, _ => none
  | _ + 1, [] => none
  | fuel + 1, b :: rest =>
    if b = '"'.toUInt8 then some ([], rest)
    else if b = '\\'.toUInt8 then
      match rest with
      | [] => none
      | e :: rest =>
        if e = 'u'.toUInt8 then do
          let (unit, rest) ← unit? rest
          let (pieces, rest) ← literal? fuel rest
          return (.unit unit :: pieces, rest)
        else do
          let byte ← escapeLetter? e
          let (pieces, rest) ← literal? fuel rest
          return (.byte byte :: pieces, rest)
    else if b < 0x20 then none
    else do
      let (pieces, rest) ← literal? fuel rest
      return (.byte b :: pieces, rest)

mutual

/-- Reads one value. `fuel` bounds the number of steps; one more than the number of input bytes
always suffices. -/
def value? : Nat → Bytes → Option (Source × Bytes)
  | 0, _ => none
  | fuel + 1, input =>
    match skipBlanks input with
    | [] => none
    | b :: rest =>
      if b = 'n'.toUInt8 then (keyword? "ull" rest).map (Source.null, ·)
      else if b = 't'.toUInt8 then (keyword? "rue" rest).map (Source.bool true, ·)
      else if b = 'f'.toUInt8 then (keyword? "alse" rest).map (Source.bool false, ·)
      else if b = '"'.toUInt8 then
        (literal? (rest.length + 1) rest).map fun (literal, rest) => (Source.text literal, rest)
      else if b = '['.toUInt8 then
        match skipBlanks rest with
        | [] => none
        | c :: tail =>
          if c = ']'.toUInt8 then some (Source.array [], tail)
          else (items? fuel (c :: tail)).map fun (items, rest) => (Source.array items, rest)
      else if b = 0x7B then
        match skipBlanks rest with
        | [] => none
        | c :: tail =>
          if c = 0x7D then some (Source.object [], tail)
          else (members? fuel (c :: tail)).map fun (members, rest) =>
            (Source.object members, rest)
      else (numeral? (b :: rest)).map fun (numeral, rest) => (Source.number numeral, rest)

/-- Reads the items of an array, at least one, and its closing bracket. -/
def items? : Nat → Bytes → Option (List Source × Bytes)
  | 0, _ => none
  | fuel + 1, input => do
    let (item, rest) ← value? fuel input
    match skipBlanks rest with
    | [] => none
    | b :: rest =>
      if b = ']'.toUInt8 then return ([item], rest)
      else if b = ','.toUInt8 then
        let (items, rest) ← items? fuel rest
        return (item :: items, rest)
      else none

/-- Reads the members of an object, at least one, and its closing brace. -/
def members? : Nat → Bytes → Option (List (Literal × Source) × Bytes)
  | 0, _ => none
  | fuel + 1, input =>
    match skipBlanks input with
    | [] => none
    | b :: rest =>
      if b = '"'.toUInt8 then do
        let (key, rest) ← literal? (rest.length + 1) rest
        match skipBlanks rest with
        | [] => none
        | c :: rest =>
          if c = ':'.toUInt8 then do
            let (value, rest) ← value? fuel rest
            match skipBlanks rest with
            | [] => none
            | d :: rest =>
              if d = 0x7D then return ([(key, value)], rest)
              else if d = ','.toUInt8 then
                let (members, rest) ← members? fuel rest
                return ((key, value) :: members, rest)
              else none
          else none
      else none

end

/-- The one value that a JSON text holds. -/
def parse? (input : Bytes) : Option Source :=
  match value? (input.length + 1) input with
  | some (source, rest) => if (skipBlanks rest).isEmpty then some source else none
  | none => none

end CatalogSync.Json
