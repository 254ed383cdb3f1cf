import CatalogSync.Decimal
import CatalogSync.Text.Affix
import CatalogSync.Text.Blank
import CatalogSync.Time.Calendar

namespace CatalogSync.Time

/-- Seconds from the start of 1970, and nanoseconds. In a leap second the nanoseconds are a
thousand million or more, on top of the second before. -/
structure Timestamp where
  seconds : Int
  nanos : Nat
  deriving DecidableEq, Repr

def skipBlanks (cs : List Char) : List Char :=
  cs.dropWhile Text.isBlankChar

def isDigit (c : Char) : Bool :=
  '0' ≤ c && c ≤ '9'

/-- Reads at least one digit and, if `most` is given, no more than that. -/
def number? (most : Option Nat) (cs : List Char) : Option (Nat × List Char) :=
  let run := cs.takeWhile isDigit
  let taken := match most with
    | some n => run.take n
    | none => run
  (Decimal.nat? taken).map fun n => (n, cs.drop taken.length)

/-- Reads a number of one or two digits after blanks. -/
def part? (cs : List Char) : Option (Nat × List Char) :=
  number? (some 2) (skipBlanks cs)

/-- Reads a year after blanks: up to four digits, or any number of digits behind a sign. -/
def year? (cs : List Char) : Option (Int × List Char) :=
  match skipBlanks cs with
  | '-' :: rest => (number? none rest).map fun (n, rest) => (-(n : Int), rest)
  | '+' :: rest => (number? none rest).map fun (n, rest) => ((n : Int), rest)
  | rest => (number? (some 4) rest).map fun (n, rest) => ((n : Int), rest)

/-- Reads a separator after blanks. -/
def separator? (c : Char) (cs : List Char) : Option (List Char) :=
  match skipBlanks cs with
  | d :: rest => if d = c then some rest else none
  | [] => none

/-- Reads decimals behind a point, if there is a point, as nanoseconds; digits after the ninth do
not count. -/
def decimals? : List Char → Option (Nat × List Char)
  | '.' :: rest => do
    let taken := (rest.takeWhile isDigit).take 9
    if taken.isEmpty then none
    else
      let n ← Decimal.nat? (taken ++ List.replicate (9 - taken.length) '0')
      return (n, rest.dropWhile isDigit)
  | rest => some (0, rest)

/-- Reads exactly two digits. -/
def twoDigits? : List Char → Option (Nat × List Char)
  | a :: b :: rest => (Decimal.nat? [a, b]).map fun n => (n, rest)
  | _ => none

/-- Reads an offset from UTC in seconds: the letter Z, or a sign, hours and minutes, which colons
and blanks may separate. -/
def offset? (cs : List Char) : Option (Int × List Char) :=
  match cs with
  | [] => none
  | c :: rest =>
    if c = 'Z' ∨ c = 'z' then some (0, rest)
    else if c = '+' ∨ c = '-' ∨ c = '\u2212' then do
      let (hours, rest) ← twoDigits? rest
      let (minutes, rest) ← twoDigits? (rest.dropWhile fun d => d == ':' || Text.isBlankChar d)
      let seconds : Int := (hours * 3600 + minutes * 60 : Nat)
      if minutes < 60 ∧ seconds < 86400 then
        return (if c = '+' then seconds else -seconds, rest)
      else none
    else none

/-- Reads the zone: the letters UTC in any case, or an offset. -/
def zone? (cs : List Char) : Option (Int × List Char) :=
  if (cs.take 3).map Char.toUpper = ['U', 'T', 'C'] then some (0, cs.drop 3) else offset? cs

/-- The time of day in seconds and nanoseconds; second 60 is the leap second after second 59. -/
def timeOfDay? (hour minute second nanos : Nat) : Option (Nat × Nat) :=
  if hour < 24 ∧ minute < 60 ∧ second ≤ 60 then
    if second = 60 then some (hour * 3600 + minute * 60 + 59, nanos + 1000000000)
    else some (hour * 3600 + minute * 60 + second, nanos)
  else none

def Timestamp.date (t : Timestamp) : Date :=
  Date.ofDays (t.seconds / 86400)

/-- Reads a time stamp from all of a text. -/
def Timestamp.ofText? (text : String) : Option Timestamp := do
  let (year, rest) ← year? text.toList
  let (month, rest) ← part? (← separator? '-' rest)
  let (day, rest) ← part? (← separator? '-' rest)
  let rest ← match rest with
    | c :: rest => if c = 'T' ∨ c = 't' ∨ c = ' ' then some rest else none
    | [] => none
  let (hour, rest) ← part? rest
  let (minute, rest) ← part? (← separator? ':' rest)
  let (second, rest) ← part? (← separator? ':' rest)
  let (nanos, rest) ← decimals? rest
  let (offset, rest) ← zone? (skipBlanks rest)
  let date : Date := ⟨year, month, day⟩
  let (seconds, nanos) ← timeOfDay? hour minute second nanos
  let stamp : Timestamp := ⟨date.toDays * 86400 + seconds - offset, nanos⟩
  if (skipBlanks rest).isEmpty ∧ date.isValid ∧ stamp.date.isValid then return stamp else none

/-- A year has four digits; outside of 0 to 9999 it has a sign and at least four digits. -/
def yearText (year : Int) : String :=
  if 0 ≤ year ∧ year ≤ 9999 then Decimal.padded 4 year.natAbs
  else (if year < 0 then "-" else "+") ++ Decimal.padded 4 year.natAbs

/-- The decimals of a second: none, three, six or nine. -/
def decimalsText (nanos : Nat) : String :=
  if nanos = 0 then ""
  else if nanos % 1000000 = 0 then "." ++ Decimal.padded 3 (nanos / 1000000)
  else if nanos % 1000 = 0 then "." ++ Decimal.padded 6 (nanos / 1000)
  else "." ++ Decimal.padded 9 nanos

def Timestamp.text (t : Timestamp) : String :=
  let date := t.date
  let daySeconds := (t.seconds % 86400).toNat
  let leap := t.nanos / 1000000000
  yearText date.year ++ "-" ++ Decimal.padded 2 date.month ++ "-" ++ Decimal.padded 2 date.day ++
    "T" ++ Decimal.padded 2 (daySeconds / 3600) ++ ":" ++
    Decimal.padded 2 (daySeconds / 60 % 60) ++ ":" ++
    Decimal.padded 2 (daySeconds % 60 + leap) ++
    decimalsText (t.nanos % 1000000000) ++ "Z"

end CatalogSync.Time
