import CatalogSync.Proofs.Decimal
import CatalogSync.Proofs.Time.Calendar
import CatalogSync.Time.Timestamp

namespace CatalogSync

namespace Time

open Decimal

theorem isDigit_digitChar {d : Nat} (h : d < 10) : isDigit (digitChar d) = true :=
  (by decide : ∀ d : Fin 10, isDigit (digitChar d) = true) ⟨d, h⟩

theorem isBlankChar_digitChar {d : Nat} (h : d < 10) : Text.isBlankChar (digitChar d) = false :=
  (by decide : ∀ d : Fin 10, Text.isBlankChar (digitChar d) = false) ⟨d, h⟩

theorem skipBlanks_cons {c : Char} (h : Text.isBlankChar c = false) (cs : List Char) :
    skipBlanks (c :: cs) = c :: cs := by
  simp [skipBlanks, h]

theorem all_isDigit {ds : List Nat} (hds : ∀ d ∈ ds, d < 10) :
    ∀ c ∈ ds.map digitChar, isDigit c = true := by
  intro c hc
  obtain ⟨d, hd, rfl⟩ := List.mem_map.mp hc
  exact isDigit_digitChar (hds d hd)

theorem number?_width {ds : List Nat} (hne : ds ≠ []) (hds : ∀ d ∈ ds, d < 10)
    (rest : List Char) :
    number? (some ds.length) (ds.map digitChar ++ rest) = some (value ds, rest) := by
  have hrun : (ds.map digitChar ++ rest).takeWhile isDigit =
      ds.map digitChar ++ rest.takeWhile isDigit :=
    List.takeWhile_append_of_pos (all_isDigit hds)
  have htake : (ds.map digitChar ++ rest.takeWhile isDigit).take ds.length = ds.map digitChar := by
    simp
  simp only [number?, hrun, htake, nat?_map_digitChar hne hds, Option.map_some, List.length_map]
  simp

theorem number?_none {ds : List Nat} (hne : ds ≠ []) (hds : ∀ d ∈ ds, d < 10) {c : Char}
    (hc : isDigit c = false) (rest : List Char) :
    number? none (ds.map digitChar ++ c :: rest) = some (value ds, c :: rest) := by
  have hrun : (ds.map digitChar ++ c :: rest).takeWhile isDigit = ds.map digitChar := by
    rw [List.takeWhile_append_of_pos (all_isDigit hds)]
    simp [hc]
  simp only [number?, hrun, nat?_map_digitChar hne hds, Option.map_some, List.length_map]
  simp

theorem skipBlanks_padded (width n : Nat) (rest : List Char) :
    skipBlanks ((padded width n).toList ++ rest) = (padded width n).toList ++ rest := by
  rw [toList_padded]
  cases hds : paddedDigits width n with
  | nil => exact absurd hds (paddedDigits_ne_nil width n)
  | cons d ds =>
    exact skipBlanks_cons (isBlankChar_digitChar (lt_ten_of_mem_paddedDigits (n := n)
      (by rw [hds]; simp))) _

theorem number?_padded {width n : Nat} (hwidth : 0 < width) (h : n < 10 ^ width)
    (rest : List Char) :
    number? (some width) ((padded width n).toList ++ rest) = some (n, rest) := by
  have hread := number?_width (paddedDigits_ne_nil width n)
    (fun d hd => lt_ten_of_mem_paddedDigits hd) rest
  rwa [length_paddedDigits hwidth h, value_paddedDigits, ← toList_padded] at hread

theorem part?_padded {n : Nat} (h : n < 100) (rest : List Char) :
    part? ((padded 2 n).toList ++ rest) = some (n, rest) := by
  rw [part?, skipBlanks_padded]
  exact number?_padded (by decide) h rest

theorem separator?_cons {c : Char} (h : Text.isBlankChar c = false) (rest : List Char) :
    separator? c (c :: rest) = some rest := by
  simp [separator?, skipBlanks_cons h]

theorem year?_digit {c : Char} (hdigit : isDigit c = true) (hblank : Text.isBlankChar c = false)
    (cs : List Char) :
    year? (c :: cs) = (number? (some 4) (c :: cs)).map fun (n, rest) => ((n : Int), rest) := by
  rw [year?, skipBlanks_cons hblank]
  split
  · rename_i heq
    cases heq
    exact absurd hdigit (by decide)
  · rename_i heq
    cases heq
    exact absurd hdigit (by decide)
  · rfl

theorem year?_padded {n : Nat} (h : n < 10000) (rest : List Char) :
    year? ((padded 4 n).toList ++ rest) = some ((n : Int), rest) := by
  have hread := number?_padded (show 0 < 4 by decide) h rest
  rw [toList_padded] at hread ⊢
  cases hds : paddedDigits 4 n with
  | nil => exact absurd hds (paddedDigits_ne_nil 4 n)
  | cons d ds =>
    have hd : d < 10 := lt_ten_of_mem_paddedDigits (n := n) (by rw [hds]; simp)
    rw [hds, List.map_cons, List.cons_append] at hread
    rw [List.map_cons, List.cons_append, year?_digit (isDigit_digitChar hd)
      (isBlankChar_digitChar hd), hread]
    rfl

theorem year?_yearText (year : Int) (rest : List Char) :
    year? ((yearText year).toList ++ '-' :: rest) = some (year, '-' :: rest) := by
  have hread := number?_none (paddedDigits_ne_nil 4 year.natAbs)
    (fun d hd => lt_ten_of_mem_paddedDigits hd) (show isDigit '-' = false by decide) rest
  rw [value_paddedDigits, ← toList_padded] at hread
  rw [yearText]
  split
  · rename_i hyear
    rw [year?_padded (by omega), Int.natAbs_of_nonneg hyear.1]
  · rw [String.toList_append]
    split
    · rename_i hneg
      rw [year?, show "-".toList = ['-'] by rfl, List.singleton_append, List.cons_append,
        skipBlanks_cons (by decide)]
      simp only [hread, Option.map_some]
      rw [Int.ofNat_natAbs_of_nonpos (by omega), Int.neg_neg]
    · rw [year?, show "+".toList = ['+'] by rfl, List.singleton_append, List.cons_append,
        skipBlanks_cons (by decide)]
      simp only [hread, Option.map_some]
      rw [Int.natAbs_of_nonneg (by omega)]

theorem decimals?_padded {width n : Nat} (hwidth : 0 < width ∧ width ≤ 9) (h : n < 10 ^ width)
    {c : Char} (hc : isDigit c = false) (rest : List Char) :
    decimals? ('.' :: (padded width n).toList ++ c :: rest) =
      some (n * 10 ^ (9 - width), c :: rest) := by
  have hdigits := all_isDigit fun d (hd : d ∈ paddedDigits width n) => lt_ten_of_mem_paddedDigits hd
  have hlength : ((padded width n).toList).length = width := by
    rw [toList_padded, List.length_map, length_paddedDigits hwidth.1 h]
  rw [← toList_padded] at hdigits
  have hrun : ((padded width n).toList ++ c :: rest).takeWhile isDigit =
    (padded width n).toList := by
    rw [List.takeWhile_append_of_pos hdigits]
    simp [hc]
  have hrest : ((padded width n).toList ++ c :: rest).dropWhile isDigit = c :: rest := by
    rw [List.dropWhile_append_of_pos hdigits]
    simp [hc]
  have htake : (padded width n).toList.take 9 = (padded width n).toList :=
    List.take_of_length_le (by omega)
  have hzeros : List.replicate (9 - width) '0' = (List.replicate (9 - width) 0).map digitChar := by
    rw [List.map_replicate]
    rfl
  have hread : nat? ((padded width n).toList ++ List.replicate (9 - width) '0') =
      some (n * 10 ^ (9 - width)) := by
    rw [toList_padded, hzeros, ← List.map_append, nat?_map_digitChar, value_append,
      value_paddedDigits, value_replicate_zero, List.length_replicate, Nat.add_zero]
    · simp [paddedDigits_ne_nil]
    · intro d hd
      rcases List.mem_append.mp hd with hd | hd
      · exact lt_ten_of_mem_paddedDigits hd
      · rw [List.eq_of_mem_replicate hd]
        decide
  have hne : (padded width n).toList.isEmpty = false := by
    rw [toList_padded]
    simp [paddedDigits_ne_nil]
  simp only [List.cons_append, decimals?, hrun, hrest, htake, hne, hlength, hread]
  rfl

theorem decimals?_decimalsText {nanos : Nat} (h : nanos < 1000000000) {c : Char}
    (hdot : c ≠ '.') (hdigit : isDigit c = false) (rest : List Char) :
    decimals? ((decimalsText nanos).toList ++ c :: rest) = some (nanos, c :: rest) := by
  rw [decimalsText]
  split
  · subst_vars
    simp [decimals?, hdot]
  split
  · rw [String.toList_append, show ".".toList = ['.'] by rfl, List.singleton_append,
      decimals?_padded (by decide) (by omega) hdigit]
    congr 2
    omega
  split
  · rw [String.toList_append, show ".".toList = ['.'] by rfl, List.singleton_append,
      decimals?_padded (by decide) (by omega) hdigit]
    congr 2
    omega
  · rw [String.toList_append, show ".".toList = ['.'] by rfl, List.singleton_append,
      decimals?_padded (by decide) (by omega) hdigit]
    congr 2
    omega

/-- Time stamps that a clock tells: of a date that exists, with nanoseconds of a second or, at the
end of a minute, of a leap second. -/
def Timestamp.IsValid (t : Timestamp) : Prop :=
  t.date.isValid = true ∧
    (t.nanos < 1000000000 ∨ t.nanos < 2000000000 ∧ t.seconds % 60 = 59)

theorem timeOfDay?_parts {daySeconds nanos : Nat} (hday : daySeconds < 86400)
    (hnanos : nanos < 1000000000 ∨ nanos < 2000000000 ∧ daySeconds % 60 = 59) :
    timeOfDay? (daySeconds / 3600) (daySeconds / 60 % 60)
        (daySeconds % 60 + nanos / 1000000000) (nanos % 1000000000) =
      some (daySeconds, nanos) := by
  have hfields : daySeconds / 3600 < 24 ∧ daySeconds / 60 % 60 < 60 ∧
      daySeconds % 60 + nanos / 1000000000 ≤ 60 := by omega
  rw [timeOfDay?, if_pos hfields]
  split
  · congr 2 <;> omega
  · congr 2 <;> omega

theorem Date.bounds_of_isValid {date : Date} (h : date.isValid = true) :
    date.month < 100 ∧ date.day < 100 := by
  simp only [isValid, Bool.and_eq_true, decide_eq_true_eq] at h
  obtain ⟨⟨⟨-, hmonth⟩, -⟩, hday⟩ := h
  have hlength : daysInMonth date.year date.month ≤ 31 := by
    unfold daysInMonth
    split
    · split <;> omega
    all_goals omega
  omega

theorem Timestamp.ofText?_of_parts {text : String} {year month day hour minute second decimals :
    List Char} {date : Date} {h m s n : Nat} {daySeconds nanos : Nat}
    (htext : text.toList = year ++ '-' :: (month ++ '-' :: (day ++ 'T' :: (hour ++ ':' ::
      (minute ++ ':' :: (second ++ (decimals ++ ['Z'])))))))
    (hyear : ∀ rest, year? (year ++ '-' :: rest) = some (date.year, '-' :: rest))
    (hmonth : ∀ rest, part? (month ++ rest) = some (date.month, rest))
    (hday : ∀ rest, part? (day ++ rest) = some (date.day, rest))
    (hhour : ∀ rest, part? (hour ++ rest) = some (h, rest))
    (hminute : ∀ rest, part? (minute ++ rest) = some (m, rest))
    (hsecond : ∀ rest, part? (second ++ rest) = some (s, rest))
    (hdecimals : decimals? (decimals ++ ['Z']) = some (n, ['Z']))
    (htime : timeOfDay? h m s n = some (daySeconds, nanos)) (hdate : date.isValid = true)
    (hstamp : (Timestamp.date ⟨date.toDays * 86400 + daySeconds, nanos⟩).isValid = true) :
    ofText? text = some ⟨date.toDays * 86400 + daySeconds, nanos⟩ := by
  have hdash : ∀ rest, separator? '-' ('-' :: rest) = some rest :=
    separator?_cons (by decide)
  have hcolon : ∀ rest, separator? ':' (':' :: rest) = some rest :=
    separator?_cons (by decide)
  have hzone : zone? (skipBlanks ['Z']) = some (0, []) := by rfl
  rw [ofText?, htext, hyear, Option.bind_eq_bind, Option.bind_some]
  dsimp only
  rw [hdash, Option.bind_eq_bind, Option.bind_some, hmonth, Option.bind_eq_bind, Option.bind_some]
  dsimp only
  rw [hdash, Option.bind_some, hday, Option.bind_some]
  dsimp only
  rw [if_pos (Or.inl rfl), Option.bind_some, hhour, Option.bind_some, hcolon, Option.bind_some,
    hminute, Option.bind_some, hcolon, Option.bind_some, hsecond, Option.bind_some, hdecimals,
    Option.bind_some, hzone, Option.bind_some, htime, Option.bind_eq_bind, Option.bind_some]
  dsimp only
  rw [Int.sub_zero, if_pos ⟨rfl, hdate, hstamp⟩]
  rfl

/-- A valid time stamp is read back from its text. -/
theorem Timestamp.ofText?_text {t : Timestamp} (h : t.IsValid) : ofText? t.text = some t := by
  obtain ⟨hdate, hnanos⟩ := h
  obtain ⟨hmonth, hday⟩ := Date.bounds_of_isValid hdate
  have hseconds : (t.seconds % 86400).toNat < 86400 := by omega
  have hleap : t.nanos < 1000000000 ∨
      t.nanos < 2000000000 ∧ (t.seconds % 86400).toNat % 60 = 59 := by omega
  have htime := timeOfDay?_parts hseconds hleap
  have hstamp : (⟨t.date.toDays * 86400 + ((t.seconds % 86400).toNat : Int), t.nanos⟩ : Timestamp) =
      t := by
    have hdays : t.date.toDays * 86400 + ((t.seconds % 86400).toNat : Int) = t.seconds := by
      rw [Timestamp.date, Date.toDays_ofDays]
      omega
    rw [hdays]
  have htext : t.text.toList = (yearText t.date.year).toList ++ '-' ::
      ((padded 2 t.date.month).toList ++ '-' :: ((padded 2 t.date.day).toList ++ 'T' ::
        ((padded 2 ((t.seconds % 86400).toNat / 3600)).toList ++ ':' ::
          ((padded 2 ((t.seconds % 86400).toNat / 60 % 60)).toList ++ ':' ::
            ((padded 2 ((t.seconds % 86400).toNat % 60 + t.nanos / 1000000000)).toList ++
              ((decimalsText (t.nanos % 1000000000)).toList ++ ['Z'])))))) := by
    simp [Timestamp.text, String.toList_append]
  rw [ofText?_of_parts htext (year?_yearText t.date.year) (part?_padded hmonth)
    (part?_padded hday) (part?_padded (by omega)) (part?_padded (by omega))
    (part?_padded (by omega)) (decimals?_decimalsText (by omega) (by decide) (by decide) []) htime
    hdate (by rw [hstamp, hdate]), hstamp]

end Time

end CatalogSync
