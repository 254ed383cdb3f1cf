import CatalogSync.Bytes

namespace CatalogSync.Decimal

/-- The decimal digits of a number, most significant first, without leading zeros. -/
def digits (n : Nat) : List Nat :=
  if n < 10 then [n] else digits (n / 10) ++ [n % 10]
termination_by n

/-- The number that a row of digits stands for. -/
def value (ds : List Nat) : Nat :=
  ds.foldl (fun n d => 10 * n + d) 0

theorem value_append_singleton (ds : List Nat) (d : Nat) :
    value (ds ++ [d]) = 10 * value ds + d := by
  simp [value]

theorem value_digits (n : Nat) : value (digits n) = n := by
  induction n using Nat.strongRecOn with
  | ind n ih =>
    rw [digits]
    split
    · simp [value]
    · rw [value_append_singleton, ih (n / 10) (by omega)]
      omega

theorem lt_ten_of_mem_digits {n d : Nat} (h : d ∈ digits n) : d < 10 := by
  induction n using Nat.strongRecOn with
  | ind n ih =>
    rw [digits] at h
    split at h
    · simp_all
    · rcases List.mem_append.mp h with h | h
      · exact ih (n / 10) (by omega) h
      · simp only [List.mem_singleton] at h
        omega

theorem digits_ne_nil (n : Nat) : digits n ≠ [] := by
  rw [digits]
  split <;> simp

/-- The character of a digit. -/
def digitChar (d : Nat) : Char :=
  Char.ofNat ('0'.toNat + d)

/-- The value of a decimal digit character. -/
def digitValue? (c : Char) : Option Nat :=
  if '0' ≤ c ∧ c ≤ '9' then some (c.toNat - '0'.toNat) else none

/-- A whole number as text. -/
def text (n : Nat) : String :=
  String.ofList ((digits n).map digitChar)

/-- An integer as text, with a minus sign when it is negative. -/
def intText (n : Int) : String :=
  if n < 0 then "-" ++ text n.natAbs else text n.natAbs

/-- A whole number written with at least `width` digits. -/
def padded (width n : Nat) : String :=
  let ds := digits n
  String.ofList ((List.replicate (width - ds.length) 0 ++ ds).map digitChar)

/-- The number written by digits alone, at least one; leading zeros are allowed. -/
def nat? (cs : List Char) : Option Nat :=
  if cs.isEmpty then none else (cs.mapM digitValue?).map value

/-- An unsigned number of 64 bits: digits, or a plus sign and digits. -/
def unsigned64? (text : String) : Option Nat :=
  let digitChars :=
    match text.toList with
    | '+' :: rest => rest
    | cs => cs
  (nat? digitChars).filter (· < UInt64.size)

end CatalogSync.Decimal
