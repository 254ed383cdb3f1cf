import CatalogSync.Proofs.Json.RoundTrip
import Mathlib.Data.List.TakeWhile

namespace CatalogSync.Json

section Grammar

def AllBlank (bytes : Bytes) : Prop :=
  ∀ b ∈ bytes, isBlankByte b = true

/-- A row of digits, at least one. -/
def IsDigitRow (bytes : Bytes) : Prop :=
  bytes ≠ [] ∧ ∀ b ∈ bytes, isDigit b = true

/-- The digits before the point. Only a zero that stands alone comes first. -/
inductive WritesIntegral : List Nat → Bytes → Prop where
  | zero : WritesIntegral [0] ['0'.toUInt8]
  | row {bytes : Bytes} (hrow : IsDigitRow bytes) (hhead : bytes.head? ≠ some '0'.toUInt8) :
      WritesIntegral (bytes.map digitOf) bytes

/-- A point with digits behind it, or nothing. The flag says that it is nothing. -/
inductive WritesFraction : Bool → Bytes → Prop where
  | absent : WritesFraction true []
  | digits {bytes : Bytes} (hrow : IsDigitRow bytes) : WritesFraction false ('.'.toUInt8 :: bytes)

inductive IsSign : Bytes → Prop where
  | absent : IsSign []
  | plus : IsSign ['+'.toUInt8]
  | minus : IsSign ['-'.toUInt8]

/-- An exponent, or nothing. The flag says that it is nothing. -/
inductive WritesExponent : Bool → Bytes → Prop where
  | absent : WritesExponent true []
  | digits {letter : UInt8} {sign bytes : Bytes}
      (hletter : letter = 'e'.toUInt8 ∨ letter = 'E'.toUInt8) (hsign : IsSign sign)
      (hrow : IsDigitRow bytes) : WritesExponent false (letter :: (sign ++ bytes))

inductive Numeral.WrittenAs : Numeral → Bytes → Prop where
  | parts {negative noFraction noExponent : Bool} {ds : List Nat}
    {integral fraction exponent : Bytes}
      (hintegral : WritesIntegral ds integral) (hfraction : WritesFraction noFraction fraction)
      (hexponent : WritesExponent noExponent exponent) :
      WrittenAs ⟨negative, ds, noFraction && noExponent⟩
        ((if negative then ['-'.toUInt8] else []) ++ (integral ++ (fraction ++ exponent)))

def hexOf? (b : UInt8) : Option Nat :=
  Bytes.hexValue? (Char.ofNat b.toNat)

/-- What stands between the quotes of a literal. -/
inductive Literal.WrittenAs : Literal → Bytes → Prop where
  | empty : WrittenAs [] []
  | plain {b : UInt8} {literal : Literal} {bytes : Bytes} (hcontrol : ¬ b < 0x20)
      (hquote : b ≠ '"'.toUInt8) (hslash : b ≠ '\\'.toUInt8) (hrest : WrittenAs literal bytes) :
      WrittenAs (.byte b :: literal) (b :: bytes)
  | letter {letter b : UInt8} {literal : Literal} {bytes : Bytes}
      (hletter : escapeLetter? letter = some b) (hrest : WrittenAs literal bytes) :
      WrittenAs (.byte b :: literal) ('\\'.toUInt8 :: letter :: bytes)
  | unit {a b c d : UInt8} {w x y z : Nat} {literal : Literal} {bytes : Bytes}
      (ha : hexOf? a = some w) (hb : hexOf? b = some x) (hc : hexOf? c = some y)
      (hd : hexOf? d = some z) (hrest : WrittenAs literal bytes) :
      WrittenAs (.unit (16 * (16 * (16 * w + x) + y) + z) :: literal)
        ('\\'.toUInt8 :: 'u'.toUInt8 :: a :: b :: c :: d :: bytes)

/-- A literal with its quotes. -/
def quoted (bytes : Bytes) : Bytes :=
  '"'.toUInt8 :: (bytes ++ ['"'.toUInt8])

mutual

/-- How a value is written, without blanks around it. -/
inductive Source.WrittenAs : Source → Bytes → Prop where
  | null : Source.WrittenAs .null (ascii "null")
  | true : Source.WrittenAs (.bool true) (ascii "true")
  | false : Source.WrittenAs (.bool false) (ascii "false")
  | number {numeral : Numeral} {bytes : Bytes} (h : numeral.WrittenAs bytes) :
      Source.WrittenAs (.number numeral) bytes
  | text {literal : Literal} {bytes : Bytes} (h : literal.WrittenAs bytes) :
      Source.WrittenAs (.text literal) (quoted bytes)
  | emptyArray {blanks : Bytes} (h : AllBlank blanks) :
      Source.WrittenAs (.array []) (openBracket :: (blanks ++ [closeBracket]))
  | array {items : List Source} {bytes : Bytes} (h : ItemsWrittenAs items bytes) :
      Source.WrittenAs (.array items) (openBracket :: bytes)
  | emptyObject {blanks : Bytes} (h : AllBlank blanks) :
      Source.WrittenAs (.object []) (openBrace :: (blanks ++ [closeBrace]))
  | object {members : List (Literal × Source)} {bytes : Bytes}
    (h : MembersWrittenAs members bytes) :
      Source.WrittenAs (.object members) (openBrace :: bytes)

/-- The items of an array, at least one, and its closing bracket. -/
inductive ItemsWrittenAs : List Source → Bytes → Prop where
  | last {item : Source} {before bytes after : Bytes} (hbefore : AllBlank before)
      (hitem : item.WrittenAs bytes) (hafter : AllBlank after) :
      ItemsWrittenAs [item] (before ++ (bytes ++ (after ++ [closeBracket])))
  | comma {item : Source} {items : List Source} {before bytes after rest : Bytes}
      (hbefore : AllBlank before) (hitem : item.WrittenAs bytes) (hafter : AllBlank after)
      (hrest : ItemsWrittenAs items rest) :
      ItemsWrittenAs (item :: items) (before ++ (bytes ++ (after ++ comma :: rest)))

/-- The members of an object, at least one, and its closing brace. -/
inductive MembersWrittenAs : List (Literal × Source) → Bytes → Prop where
  | last {key : Literal} {value : Source} {before name between inner bytes after : Bytes}
      (hbefore : AllBlank before) (hkey : key.WrittenAs name) (hbetween : AllBlank between)
      (hinner : AllBlank inner) (hvalue : value.WrittenAs bytes) (hafter : AllBlank after) :
      MembersWrittenAs [(key, value)]
        (before ++ (quoted name ++
          (between ++ colon :: (inner ++ (bytes ++ (after ++ [closeBrace]))))))
  | comma {key : Literal} {value : Source} {members : List (Literal × Source)}
      {before name between inner bytes after rest : Bytes}
      (hbefore : AllBlank before) (hkey : key.WrittenAs name) (hbetween : AllBlank between)
      (hinner : AllBlank inner) (hvalue : value.WrittenAs bytes) (hafter : AllBlank after)
      (hrest : MembersWrittenAs members rest) :
      MembersWrittenAs ((key, value) :: members)
        (before ++ (quoted name ++
          (between ++ colon :: (inner ++ (bytes ++ (after ++ comma :: rest))))))

end

/-- A text is a value with blanks around it. -/
def Holds (input : Bytes) (source : Source) : Prop :=
  ∃ before bytes after, AllBlank before ∧ source.WrittenAs bytes ∧ AllBlank after ∧
    input = before ++ (bytes ++ after)

end Grammar

section Blanks

theorem exists_blanks (input : Bytes) :
    ∃ before, AllBlank before ∧ input = before ++ skipBlanks input := by
  refine ⟨input.takeWhile isBlankByte, ?_, ?_⟩
  · intro b hb
    exact List.mem_takeWhile_imp hb
  · exact (List.takeWhile_append_dropWhile ..).symm

theorem skipBlanks_append {before : Bytes} (h : AllBlank before) (input : Bytes) :
    skipBlanks (before ++ input) = skipBlanks input :=
  List.dropWhile_append_of_pos h

theorem skipBlanks_append_cons {before : Bytes} (h : AllBlank before) {b : UInt8}
    (hb : isBlankByte b = false) (rest : Bytes) :
    skipBlanks (before ++ b :: rest) = b :: rest := by
  rw [skipBlanks_append h, skipBlanks_cons hb]

theorem skipBlanks_eq_nil_iff {input : Bytes} : skipBlanks input = [] ↔ AllBlank input := by
  rw [skipBlanks, List.dropWhile_eq_nil_iff]
  exact Iff.rfl

theorem endsNumber_blanks {blanks : Bytes} (h : AllBlank blanks) {rest : Bytes}
    (hrest : EndsNumber rest) : EndsNumber (blanks ++ rest) := by
  cases blanks with
  | nil => exact hrest
  | cons b blanks =>
    have hblank := h b (by simp)
    rintro _ ⟨⟩
    simp only [isBlankByte, Bool.or_eq_true, beq_iff_eq] at hblank
    rcases hblank with ((rfl | rfl) | rfl) | rfl <;> decide

end Blanks

section Numerals

theorem exists_digitRow {input rest : Bytes} {ds : List Nat} (h : digits? input = some (ds, rest)) :
    ∃ bytes, IsDigitRow bytes ∧ ds = bytes.map digitOf ∧ input = bytes ++ rest := by
  rw [digits?] at h
  split at h
  · cases h
  · rename_i hempty
    cases h
    refine ⟨input.takeWhile isDigit, ⟨?_, ?_⟩, rfl, ?_⟩
    · simpa using hempty
    · intro b hb
      exact List.mem_takeWhile_imp hb
    · exact (List.takeWhile_append_dropWhile ..).symm

theorem digits?_append {bytes : Bytes} (h : IsDigitRow bytes) {rest : Bytes}
    (hrest : ∀ b ∈ rest.head?, isDigit b = false) :
    digits? (bytes ++ rest) = some (bytes.map digitOf, rest) := by
  have htail : rest.takeWhile isDigit = [] ∧ rest.dropWhile isDigit = rest := by
    cases rest with
    | nil => exact ⟨rfl, rfl⟩
    | cons b rest => simp [hrest b rfl]
  rw [digits?, List.takeWhile_append_of_pos h.2, List.dropWhile_append_of_pos h.2, htail.1, htail.2,
    List.append_nil, List.isEmpty_eq_false_iff.mpr h.1]
  rfl

theorem exists_integral {input rest : Bytes} {ds : List Nat}
    (h : integral? input = some (ds, rest)) :
    ∃ bytes, WritesIntegral ds bytes ∧ input = bytes ++ rest := by
  cases input with
  | nil => cases h
  | cons b input =>
    rw [integral?] at h
    split at h
    · rename_i hzero
      cases h
      exact ⟨['0'.toUInt8], .zero, by rw [hzero]; rfl⟩
    · rename_i hzero
      obtain ⟨bytes, hrow, rfl, hinput⟩ := exists_digitRow h
      refine ⟨bytes, .row hrow ?_, hinput⟩
      obtain ⟨first, bytes, rfl⟩ := List.exists_cons_of_ne_nil hrow.1
      obtain ⟨rfl, -⟩ := List.cons.inj hinput
      simpa using hzero

theorem integral?_append {bytes : Bytes} {ds : List Nat} (h : WritesIntegral ds bytes)
    {rest : Bytes} (hrest : ∀ b ∈ rest.head?, isDigit b = false) :
    integral? (bytes ++ rest) = some (ds, rest) := by
  cases h with
  | zero => rfl
  | row hrow hhead =>
    have hdigits := digits?_append hrow hrest
    obtain ⟨first, bytes, rfl⟩ := List.exists_cons_of_ne_nil hrow.1
    rw [List.cons_append, integral?, if_neg (by simpa using hhead)]
    exact hdigits

theorem exists_fraction {input rest : Bytes} {absent : Bool}
    (h : fraction? input = some (absent, rest)) :
    ∃ bytes, WritesFraction absent bytes ∧ input = bytes ++ rest := by
  cases input with
  | nil =>
    cases h
    exact ⟨[], .absent, rfl⟩
  | cons b input =>
    rw [fraction?] at h
    split at h
    · rename_i hpoint
      obtain ⟨⟨ds, tail⟩, hdigits, hsame⟩ := Option.map_eq_some_iff.mp h
      cases hsame
      obtain ⟨bytes, hrow, -, rfl⟩ := exists_digitRow hdigits
      exact ⟨_, .digits hrow, by rw [hpoint]; rfl⟩
    · cases h
      exact ⟨[], .absent, rfl⟩

theorem fraction?_append {bytes : Bytes} {absent : Bool} (h : WritesFraction absent bytes)
    {rest : Bytes} (hrest : ∀ b ∈ rest.head?, isDigit b = false ∧ b ≠ '.'.toUInt8) :
    fraction? (bytes ++ rest) = some (absent, rest) := by
  cases h with
  | absent =>
    cases rest with
    | nil => rfl
    | cons b rest => rw [List.nil_append, fraction?, if_neg (hrest b rfl).2]
  | digits hrow =>
    rw [List.cons_append, fraction?, if_pos rfl, digits?_append hrow fun b hb => (hrest b hb).1]
    rfl

theorem exists_sign (input : Bytes) : ∃ sign, IsSign sign ∧ input = sign ++ skipSign input := by
  cases input with
  | nil => exact ⟨[], .absent, rfl⟩
  | cons b input =>
    rw [skipSign]
    split
    · rename_i hsign
      rcases hsign with rfl | rfl
      · exact ⟨_, .plus, rfl⟩
      · exact ⟨_, .minus, rfl⟩
    · exact ⟨[], .absent, rfl⟩

theorem skipSign_append {sign : Bytes} (h : IsSign sign) {bytes : Bytes} (hrow : IsDigitRow bytes)
    (rest : Bytes) : skipSign (sign ++ (bytes ++ rest)) = bytes ++ rest := by
  cases h with
  | absent =>
    obtain ⟨first, tail, rfl⟩ := List.exists_cons_of_ne_nil hrow.1
    have hfirst := hrow.2 first (by simp)
    have hnone : ¬ (first = '+'.toUInt8 ∨ first = '-'.toUInt8) := by
      rintro (rfl | rfl)
      · exact absurd hfirst (by decide)
      · exact absurd hfirst (by decide)
    rw [List.nil_append, List.cons_append, skipSign, if_neg hnone]
  | plus => rfl
  | minus => rfl

theorem exists_exponent {input rest : Bytes} {absent : Bool}
    (h : exponent? input = some (absent, rest)) :
    ∃ bytes, WritesExponent absent bytes ∧ input = bytes ++ rest := by
  cases input with
  | nil =>
    cases h
    exact ⟨[], .absent, rfl⟩
  | cons b input =>
    rw [exponent?] at h
    split at h
    · rename_i hletter
      obtain ⟨⟨ds, tail⟩, hdigits, hsame⟩ := Option.map_eq_some_iff.mp h
      cases hsame
      obtain ⟨sign, hsign, hinput⟩ := exists_sign input
      obtain ⟨bytes, hrow, -, htail⟩ := exists_digitRow hdigits
      refine ⟨_, .digits hletter hsign hrow, ?_⟩
      rw [List.cons_append, List.append_assoc, ← htail, ← hinput]
    · cases h
      exact ⟨[], .absent, rfl⟩

theorem exponent?_append {bytes : Bytes} {absent : Bool} (h : WritesExponent absent bytes)
    {rest : Bytes} (hrest : EndsNumber rest) : exponent? (bytes ++ rest) = some (absent, rest) := by
  cases h with
  | absent =>
    cases rest with
    | nil => rfl
    | cons b rest =>
      have hletter : ¬ (b = 'e'.toUInt8 ∨ b = 'E'.toUInt8) :=
        not_or.mpr ⟨(hrest b rfl).2.2.1, (hrest b rfl).2.2.2⟩
      rw [List.nil_append, exponent?, if_neg hletter]
  | digits hletter hsign hrow =>
    rw [List.cons_append, exponent?, if_pos hletter, List.append_assoc, skipSign_append hsign hrow,
      digits?_append hrow fun b hb => (hrest b hb).1]
    rfl

theorem head_exponent {bytes : Bytes} {absent : Bool} (h : WritesExponent absent bytes)
    {rest : Bytes} (hrest : EndsNumber rest) :
    ∀ b ∈ (bytes ++ rest).head?, isDigit b = false ∧ b ≠ '.'.toUInt8 := by
  cases h with
  | absent => exact fun b hb => ⟨(hrest b hb).1, (hrest b hb).2.1⟩
  | digits hletter _ _ =>
    rintro _ ⟨⟩
    rcases hletter with rfl | rfl <;> decide

theorem head_fraction {bytes : Bytes} {absent : Bool} (h : WritesFraction absent bytes)
    {rest : Bytes} (hrest : ∀ b ∈ rest.head?, isDigit b = false) :
    ∀ b ∈ (bytes ++ rest).head?, isDigit b = false := by
  cases h with
  | absent => exact hrest
  | digits _ =>
    rintro _ ⟨⟩
    decide

theorem exists_unsigned {negative : Bool} {input rest : Bytes} {numeral : Numeral}
    (h : unsigned? negative input = some (numeral, rest)) :
    ∃ bytes, numeral.WrittenAs ((if negative then ['-'.toUInt8] else []) ++ bytes) ∧
      input = bytes ++ rest := by
  simp only [unsigned?, Option.bind_eq_bind, Option.bind_eq_some_iff, Prod.exists] at h
  obtain ⟨ds, tail, hintegral, noFraction, tail', hfraction, noExponent, tail'', hexponent,
    hsame⟩ := h
  cases hsame
  obtain ⟨integral, hwrites, rfl⟩ := exists_integral hintegral
  obtain ⟨fraction, hwrites', rfl⟩ := exists_fraction hfraction
  obtain ⟨exponent, hwrites'', rfl⟩ := exists_exponent hexponent
  refine ⟨_, .parts hwrites hwrites' hwrites'', ?_⟩
  simp only [List.append_assoc]

theorem unsigned?_append (negative : Bool) {noFraction noExponent : Bool} {ds : List Nat}
    {integral fraction exponent : Bytes} (hintegral : WritesIntegral ds integral)
    (hfraction : WritesFraction noFraction fraction)
    (hexponent : WritesExponent noExponent exponent) {rest : Bytes} (hrest : EndsNumber rest) :
    unsigned? negative (integral ++ (fraction ++ (exponent ++ rest))) =
      some (⟨negative, ds, noFraction && noExponent⟩, rest) := by
  have hhead := head_exponent hexponent hrest
  have hhead' := head_fraction hfraction fun b hb => (hhead b hb).1
  rw [unsigned?, integral?_append hintegral hhead']
  simp only [Option.bind_eq_bind, Option.bind_some]
  rw [fraction?_append hfraction hhead]
  simp only [Option.bind_some]
  rw [exponent?_append hexponent hrest]
  rfl

theorem exists_numeral {input rest : Bytes} {numeral : Numeral}
    (h : numeral? input = some (numeral, rest)) :
    ∃ bytes, numeral.WrittenAs bytes ∧ input = bytes ++ rest := by
  cases input with
  | nil => cases h
  | cons b input =>
    rw [numeral?] at h
    split at h
    · rename_i hminus
      obtain ⟨bytes, hwrites, rfl⟩ := exists_unsigned h
      exact ⟨_, hwrites, by rw [hminus]; rfl⟩
    · obtain ⟨bytes, hwrites, hinput⟩ := exists_unsigned h
      exact ⟨_, hwrites, hinput⟩

theorem exists_integral_cons {ds : List Nat} {bytes : Bytes} (h : WritesIntegral ds bytes) :
    ∃ b tail, bytes = b :: tail ∧ isDigit b = true := by
  cases h with
  | zero => exact ⟨_, _, rfl, by decide⟩
  | row hrow _ =>
    obtain ⟨b, tail, rfl⟩ := List.exists_cons_of_ne_nil hrow.1
    exact ⟨b, tail, rfl, hrow.2 b (by simp)⟩

theorem exists_numeral_cons {numeral : Numeral} {bytes : Bytes} (h : numeral.WrittenAs bytes) :
    ∃ b tail, bytes = b :: tail ∧ (isDigit b = true ∨ b = '-'.toUInt8) := by
  cases h with
  | @parts negative _ _ _ _ _ _ hintegral _ _ =>
    obtain ⟨b, tail, rfl, hdigit⟩ := exists_integral_cons hintegral
    cases negative with
    | false => exact ⟨b, _, rfl, Or.inl hdigit⟩
    | true => exact ⟨_, _, rfl, Or.inr rfl⟩

theorem numeral?_append {numeral : Numeral} {bytes : Bytes} (h : numeral.WrittenAs bytes)
    {rest : Bytes} (hrest : EndsNumber rest) : numeral? (bytes ++ rest) = some (numeral, rest) := by
  cases h with
  | @parts negative _ _ _ _ _ _ hintegral hfraction hexponent =>
    have hunsigned := unsigned?_append negative hintegral hfraction hexponent hrest
    simp only [List.append_assoc]
    cases negative with
    | true => exact hunsigned
    | false =>
      obtain ⟨b, tail, rfl, hdigit⟩ := exists_integral_cons hintegral
      have hminus : b ≠ '-'.toUInt8 := by
        rintro rfl
        exact absurd hdigit (by decide)
      simp only [Bool.false_eq_true, if_false, List.nil_append, List.cons_append] at hunsigned ⊢
      rw [numeral?, if_neg hminus]
      exact hunsigned

end Numerals

section Literals

theorem unit?_cons {a b c d : UInt8} {w x y z : Nat} (ha : hexOf? a = some w)
    (hb : hexOf? b = some x) (hc : hexOf? c = some y) (hd : hexOf? d = some z) (rest : Bytes) :
    unit? (a :: b :: c :: d :: rest) = some (16 * (16 * (16 * w + x) + y) + z, rest) := by
  unfold hexOf? at ha hb hc hd
  simp [unit?, ha, hb, hc, hd]

theorem exists_unit {input rest : Bytes} {unit : Nat} (h : unit? input = some (unit, rest)) :
    ∃ a b c d w x y z, input = a :: b :: c :: d :: rest ∧ hexOf? a = some w ∧ hexOf? b = some x ∧
      hexOf? c = some y ∧ hexOf? d = some z ∧ unit = 16 * (16 * (16 * w + x) + y) + z := by
  match input, h with
  | a :: b :: c :: d :: tail, h =>
    simp only [unit?, Option.bind_eq_bind, Option.bind_eq_some_iff, List.foldlM_cons,
      List.foldlM_nil, Option.pure_def, Option.some.injEq, Prod.mk.injEq] at h
    obtain ⟨value, ⟨v₁, ⟨w, ha, rfl⟩, v₂, ⟨x, hb, rfl⟩, v₃, ⟨y, hc, rfl⟩, v₄, ⟨z, hd, rfl⟩, rfl⟩,
      rfl, rfl⟩ := h
    exact ⟨a, b, c, d, w, x, y, z, rfl, ha, hb, hc, hd, by omega⟩

theorem exists_literal {fuel : Nat} {input rest : Bytes} {literal : Literal}
    (h : literal? fuel input = some (literal, rest)) :
    ∃ bytes, literal.WrittenAs bytes ∧ input = bytes ++ '"'.toUInt8 :: rest := by
  induction fuel generalizing input literal with
  | zero => cases h
  | succ fuel ih =>
    cases input with
    | nil => cases h
    | cons b input =>
      rw [literal?.eq_def] at h
      dsimp only at h
      split at h
      · rename_i hquote
        cases h
        exact ⟨[], .empty, by rw [hquote]; rfl⟩
      split at h
      · rename_i hslash
        cases input with
        | nil => cases h
        | cons e input =>
          dsimp only at h
          split at h
          · rename_i hletter
            simp only [Option.bind_eq_bind, Option.bind_eq_some_iff, Prod.exists] at h
            obtain ⟨unit, tail, hunit, pieces, tail', hpieces, hsame⟩ := h
            cases hsame
            obtain ⟨a, b, c, d, w, x, y, z, rfl, ha, hb, hc, hd, rfl⟩ := exists_unit hunit
            obtain ⟨bytes, hwrites, rfl⟩ := ih hpieces
            exact ⟨_, .unit ha hb hc hd hwrites, by rw [hslash, hletter]; rfl⟩
          · simp only [Option.bind_eq_bind, Option.bind_eq_some_iff, Prod.exists] at h
            obtain ⟨byte, hbyte, pieces, tail, hpieces, hsame⟩ := h
            cases hsame
            obtain ⟨bytes, hwrites, rfl⟩ := ih hpieces
            exact ⟨_, .letter hbyte hwrites, by rw [hslash]; rfl⟩
      split at h
      · cases h
      · rename_i hquote hslash hcontrol
        simp only [Option.bind_eq_bind, Option.bind_eq_some_iff, Prod.exists] at h
        obtain ⟨pieces, tail, hpieces, hsame⟩ := h
        cases hsame
        obtain ⟨bytes, hwrites, rfl⟩ := ih hpieces
        exact ⟨_, .plain hcontrol hquote hslash hwrites, rfl⟩

theorem literal?_append {literal : Literal} {bytes : Bytes} (h : literal.WrittenAs bytes)
    (rest : Bytes) {fuel : Nat} (hfuel : bytes.length < fuel) :
    literal? fuel (bytes ++ '"'.toUInt8 :: rest) = some (literal, rest) := by
  obtain ⟨fuel, rfl⟩ : ∃ n, fuel = n + 1 := ⟨fuel - 1, by omega⟩
  induction h generalizing fuel with
  | empty => exact literal?_quote fuel rest
  | plain hcontrol hquote hslash _ ih =>
    simp only [List.length_cons] at hfuel
    obtain ⟨fuel, rfl⟩ : ∃ n, fuel = n + 1 := ⟨fuel - 1, by omega⟩
    rw [List.cons_append, literal?_plain hquote hslash hcontrol, ih fuel (by omega)]
    rfl
  | letter hletter _ ih =>
    simp only [List.length_cons] at hfuel
    obtain ⟨fuel, rfl⟩ : ∃ n, fuel = n + 1 := ⟨fuel - 1, by omega⟩
    rw [List.cons_append, List.cons_append, literal?_letter hletter, ih fuel (by omega)]
    rfl
  | @unit a b c d w x y z literal bytes ha hb hc hd _ ih =>
    simp only [List.length_cons] at hfuel
    obtain ⟨fuel, rfl⟩ : ∃ n, fuel = n + 1 := ⟨fuel - 1, by omega⟩
    have hunit := unit?_cons ha hb hc hd (bytes ++ '"'.toUInt8 :: rest)
    refine (literal?_unit [a, b, c, d] hunit (fuel + 1)).trans ?_
    exact congrArg (Option.map _) (ih fuel (by omega))

end Literals

end CatalogSync.Json
