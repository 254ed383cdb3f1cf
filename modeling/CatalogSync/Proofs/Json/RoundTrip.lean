import CatalogSync.Json.Parser
import CatalogSync.Json.Printer

namespace CatalogSync.Json

/-- The piece of a literal as which a byte is printed: control bytes without a letter of their own
become units. -/
def pieceOf (b : UInt8) : Piece :=
  if b < 0x20 ∧ b ∉ [0x08, 0x09, 0x0A, 0x0C, 0x0D] then .unit b.toNat else .byte b

theorem literal?_quote (fuel : Nat) (rest : Bytes) :
    literal? (fuel + 1) ('"'.toUInt8 :: rest) = some ([], rest) := by
  simp [literal?]

theorem literal?_letter {letter byte : UInt8} (h : escapeLetter? letter = some byte)
    (fuel : Nat) (rest : Bytes) :
    literal? (fuel + 1) ('\\'.toUInt8 :: letter :: rest) =
      (literal? fuel rest).map fun (pieces, rest) => (.byte byte :: pieces, rest) := by
  have hletter : letter ≠ 'u'.toUInt8 := by
    rintro rfl
    simp [show escapeLetter? 'u'.toUInt8 = none by decide] at h
  rw [literal?]
  simp [hletter, h]
  cases literal? fuel rest <;> rfl

theorem literal?_unit (digits : Bytes) {unit : Nat} {rest : Bytes}
    (h : unit? (digits ++ rest) = some (unit, rest)) (fuel : Nat) :
    literal? (fuel + 1) ('\\'.toUInt8 :: 'u'.toUInt8 :: (digits ++ rest)) =
      (literal? fuel rest).map fun (pieces, rest) => (.unit unit :: pieces, rest) := by
  rw [literal?]
  simp [h]
  cases literal? fuel rest <;> rfl

theorem literal?_plain {b : UInt8} (hquote : b ≠ '"'.toUInt8) (hslash : b ≠ '\\'.toUInt8)
    (hcontrol : ¬ b < 0x20) (fuel : Nat) (rest : Bytes) :
    literal? (fuel + 1) (b :: rest) =
      (literal? fuel rest).map fun (pieces, rest) => (.byte b :: pieces, rest) := by
  rw [literal?.eq_def]
  simp [hquote, hslash, hcontrol]
  cases literal? fuel rest <;> rfl

theorem unit?_control {b : UInt8} (h : b < 0x20) (rest : Bytes) :
    unit? (0x30 :: 0x30 :: (ascii (Bytes.toHex [b]) ++ rest)) = some (b.toNat, rest) := by
  have hdigits : ∀ n : Fin 32, ascii (Bytes.toHex [UInt8.ofNat n]) =
      [0x30 + UInt8.ofNat (n / 16), UInt8.ofNat (Bytes.hexDigit (n % 16)).toNat] := by decide
  have hvalue : ∀ n : Fin 32, [0x30, 0x30, 0x30 + UInt8.ofNat (n / 16),
      UInt8.ofNat ((Bytes.hexDigit (n % 16)).toNat)].foldlM (fun n digit => do
        return 16 * n + (← Bytes.hexValue? (Char.ofNat (UInt8.toNat digit)))) 0 = some n.1 := by
    decide
  have hb := hdigits ⟨b.toNat, h⟩
  rw [UInt8.ofNat_toNat] at hb
  rw [hb]
  simp only [List.cons_append, List.nil_append, unit?]
  rw [hvalue ⟨b.toNat, h⟩]
  rfl

theorem literal?_escapeByte (b : UInt8) (fuel : Nat) (rest : Bytes) :
    literal? (fuel + 1) (escapeByte b ++ rest) =
      (literal? fuel rest).map fun (pieces, rest) => (pieceOf b :: pieces, rest) := by
  unfold escapeByte
  split
  · subst_vars; exact literal?_letter (by decide) fuel rest
  split
  · subst_vars; exact literal?_letter (by decide) fuel rest
  split
  · subst_vars; exact literal?_letter (by decide) fuel rest
  split
  · subst_vars; exact literal?_letter (by decide) fuel rest
  split
  · subst_vars; exact literal?_letter (by decide) fuel rest
  split
  · subst_vars; exact literal?_letter (by decide) fuel rest
  split
  · subst_vars; exact literal?_letter (by decide) fuel rest
  split
  · rename_i hcontrol
    have hpiece : pieceOf b = .unit b.toNat := by simp [pieceOf, *]
    rw [hpiece, List.append_assoc]
    exact literal?_unit (0x30 :: 0x30 :: ascii (Bytes.toHex [b])) (unit?_control hcontrol rest) fuel
  · rename_i hquote hslash _ _ _ _ _ hcontrol
    have hpiece : pieceOf b = .byte b := by simp [pieceOf, *]
    rw [hpiece]
    exact literal?_plain hquote hslash hcontrol fuel rest

theorem literal?_quoted (bytes : Bytes) (rest : Bytes) {fuel : Nat} (h : bytes.length < fuel) :
    literal? fuel (bytes.flatMap escapeByte ++ '"'.toUInt8 :: rest) =
      some (bytes.map pieceOf, rest) := by
  induction bytes generalizing fuel with
  | nil =>
    obtain ⟨fuel, rfl⟩ := Nat.exists_eq_add_of_lt h
    simp [literal?_quote]
  | cons b bytes ih =>
    cases fuel with
    | zero => omega
    | succ fuel =>
      rw [List.flatMap_cons, List.append_assoc, literal?_escapeByte,
        ih (by simpa using h)]
      rfl

theorem encodePoint?_control {b : UInt8} (h : b < 0x20) : encodePoint? b.toNat = some [b] := by
  have hpoint : ∀ n : Fin 32, encodePoint? n = some [UInt8.ofNat n] := by decide
  simpa using hpoint ⟨b.toNat, h⟩

theorem bytes?_pieceOf (b : UInt8) (literal : Literal) :
    Literal.bytes? (pieceOf b :: literal) = literal.bytes?.map (b :: ·) := by
  unfold pieceOf
  split
  · rename_i hb
    have hlow : ¬ (0xD800 ≤ b.toNat ∧ b.toNat < 0xDC00) := by
      have : b.toNat < 32 := hb.1
      omega
    rw [Literal.bytes?.eq_def]
    simp only [hlow, if_false, encodePoint?_control hb.1]
    cases Literal.bytes? literal <;> rfl
  · rw [Literal.bytes?]

theorem bytes?_map_pieceOf (bytes : Bytes) : Literal.bytes? (bytes.map pieceOf) = some bytes := by
  induction bytes with
  | nil => rfl
  | cons b bytes ih =>
    rw [List.map_cons, bytes?_pieceOf, ih]
    rfl

/-- What stands between the quotes of a printed text. -/
def literalOf (text : String) : Literal :=
  (Bytes.ofText text).map pieceOf

@[simp] theorem text?_literalOf (text : String) : (literalOf text).text? = some text := by
  rw [Literal.text?, literalOf, bytes?_map_pieceOf]
  exact Bytes.toText?_ofText text

theorem digitOf_add : ∀ d : Fin 10, digitOf (0x30 + UInt8.ofNat d) = d := by decide
theorem isDigit_add : ∀ d : Fin 10, isDigit (0x30 + UInt8.ofNat d) = true := by decide

/-- What may follow a printed number: nothing, or a byte that does not continue it. -/
def EndsNumber (rest : Bytes) : Prop :=
  ∀ b ∈ rest.head?, isDigit b = false ∧ b ≠ '.'.toUInt8 ∧ b ≠ 'e'.toUInt8 ∧ b ≠ 'E'.toUInt8

def digitBytes (ds : List Nat) : Bytes :=
  ds.map fun d => 0x30 + UInt8.ofNat d

theorem takeWhile_digitBytes {ds : List Nat} (hds : ∀ d ∈ ds, d < 10) {rest : Bytes}
    (hrest : EndsNumber rest) :
    (digitBytes ds ++ rest).takeWhile isDigit = digitBytes ds ∧
      (digitBytes ds ++ rest).dropWhile isDigit = rest := by
  induction ds with
  | nil =>
    cases rest with
    | nil => simp [digitBytes]
    | cons b rest => simp [digitBytes, (hrest b rfl).1]
  | cons d ds ih =>
    have hd := isDigit_add ⟨d, hds d (by simp)⟩
    have hih := ih fun d hd => hds d (by simp [hd])
    simp only [digitBytes, List.map_cons, List.cons_append] at hih ⊢
    simp only [List.takeWhile_cons, List.dropWhile_cons, hd, if_true]
    exact ⟨by rw [hih.1], hih.2⟩

theorem map_digitOf_digitBytes {ds : List Nat} (hds : ∀ d ∈ ds, d < 10) :
    (digitBytes ds).map digitOf = ds := by
  calc (digitBytes ds).map digitOf = ds.map id := by
        rw [digitBytes, List.map_map]
        refine List.map_congr_left ?_
        intro d hd
        exact digitOf_add ⟨d, hds d hd⟩
    _ = ds := List.map_id ds

theorem digits?_digitBytes {ds : List Nat} (hne : ds ≠ []) (hds : ∀ d ∈ ds, d < 10)
    {rest : Bytes} (hrest : EndsNumber rest) :
    digits? (digitBytes ds ++ rest) = some (ds, rest) := by
  obtain ⟨htake, hdrop⟩ := takeWhile_digitBytes hds hrest
  have hnonempty : (digitBytes ds).isEmpty = false := by
    cases ds with
    | nil => exact absurd rfl hne
    | cons d ds => rfl
  rw [digits?, htake, hdrop, hnonempty, map_digitOf_digitBytes hds]
  rfl

theorem head_digits_ne_zero {n : Nat} (hn : n ≠ 0) : ∀ d ∈ (Decimal.digits n).head?, d ≠ 0 := by
  induction n using Nat.strongRecOn with
  | ind n ih =>
    rw [Decimal.digits]
    split
    · simpa using hn
    · rw [List.head?_append]
      have hquotient := ih (n / 10) (by omega) (by omega)
      cases hdigits : Decimal.digits (n / 10) with
      | nil => exact absurd hdigits (Decimal.digits_ne_nil _)
      | cons d ds => simpa [hdigits] using hquotient

theorem integral?_digits (n : Nat) {rest : Bytes} (hrest : EndsNumber rest) :
    integral? (digitBytes (Decimal.digits n) ++ rest) = some (Decimal.digits n, rest) := by
  by_cases hn : n = 0
  · subst hn
    have h : Decimal.digits 0 = [0] := by simp [Decimal.digits]
    rw [h]
    rfl
  · have hds : ∀ d ∈ Decimal.digits n, d < 10 := fun d hd => Decimal.lt_ten_of_mem_digits hd
    have hparsed := digits?_digitBytes (Decimal.digits_ne_nil n) hds hrest
    have hhead := head_digits_ne_zero hn
    cases hdigits : Decimal.digits n with
    | nil => exact absurd hdigits (Decimal.digits_ne_nil n)
    | cons d ds =>
      rw [hdigits] at hds hparsed hhead
      have hne : ∀ d : Fin 10, d.1 ≠ 0 → 0x30 + UInt8.ofNat d ≠ '0'.toUInt8 := by decide
      have hd := hne ⟨d, hds d (by simp)⟩ (hhead d rfl)
      simp only [digitBytes, List.map_cons, List.cons_append, integral?, hd, if_false] at hparsed ⊢
      exact hparsed

theorem unsigned?_digits (negative : Bool) (n : Nat) {rest : Bytes} (hrest : EndsNumber rest) :
    unsigned? negative (digitBytes (Decimal.digits n) ++ rest) =
      some (⟨negative, Decimal.digits n, true⟩, rest) := by
  have hfraction : fraction? rest = some (true, rest) := by
    cases rest with
    | nil => rfl
    | cons b rest => simp [fraction?, (hrest b rfl).2.1]
  have hexponent : exponent? rest = some (true, rest) := by
    cases rest with
    | nil => rfl
    | cons b rest => simp [exponent?, (hrest b rfl).2.2]
  simp [unsigned?, integral?_digits n hrest, hfraction, hexponent]

def numeralOf (n : Int) : Numeral :=
  ⟨decide (n < 0), Decimal.digits n.natAbs, true⟩

@[simp] theorem int?_numeralOf (n : Int) : (numeralOf n).int? = some n := by
  simp only [numeralOf, Numeral.int?, Decimal.value_digits, Bool.not_true, Bool.false_eq_true,
    if_false, decide_eq_true_eq]
  split
  · rename_i hn
    rw [if_neg (Int.natAbs_ne_zero.mpr (Int.ne_of_lt hn)),
      Int.ofNat_natAbs_of_nonpos (Int.le_of_lt hn), Int.neg_neg]
  · rename_i hn
    rw [Int.natAbs_of_nonneg (Int.not_lt.mp hn)]

theorem ofText_decimal (n : Nat) :
    Bytes.ofText (Decimal.text n) = digitBytes (Decimal.digits n) := by
  have hchar : ∀ d : Fin 10,
      String.utf8EncodeChar (Decimal.digitChar d) = [0x30 + UInt8.ofNat d] := by decide
  rw [Decimal.text, Bytes.ofText_ofList, digitBytes, List.flatMap_map, List.map_eq_flatMap]
  have hds : ∀ d ∈ Decimal.digits n, d < 10 := fun d hd => Decimal.lt_ten_of_mem_digits hd
  generalize Decimal.digits n = ds at hds
  induction ds with
  | nil => rfl
  | cons d ds ih =>
    rw [List.flatMap_cons, List.flatMap_cons, ih fun d hd => hds d (by simp [hd]),
      hchar ⟨d, hds d (by simp)⟩]

theorem printInt_eq (n : Int) :
    printInt n = (if n < 0 then ['-'.toUInt8] else []) ++ digitBytes (Decimal.digits n.natAbs) := by
  rw [printInt, ascii, Decimal.intText]
  split
  · rw [Bytes.ofText_append, ofText_decimal]
    rfl
  · rw [ofText_decimal]
    rfl

theorem exists_digits_cons (n : Nat) : ∃ d : Fin 10, ∃ ds, Decimal.digits n = d.1 :: ds := by
  cases hdigits : Decimal.digits n with
  | nil => exact absurd hdigits (Decimal.digits_ne_nil n)
  | cons d ds => exact ⟨⟨d, Decimal.lt_ten_of_mem_digits (n := n) (by simp [hdigits])⟩, ds, rfl⟩

theorem numeral?_printInt (n : Int) {rest : Bytes} (hrest : EndsNumber rest) :
    numeral? (printInt n ++ rest) = some (numeralOf n, rest) := by
  have hunsigned := unsigned?_digits (decide (n < 0)) n.natAbs hrest
  rw [printInt_eq]
  by_cases hn : n < 0
  · simp only [hn, if_true, decide_true] at hunsigned ⊢
    simpa [numeral?, numeralOf, hn] using hunsigned
  · simp only [hn, if_false, decide_false, List.nil_append] at hunsigned ⊢
    obtain ⟨d, ds, hdigits⟩ := exists_digits_cons n.natAbs
    have hminus : ∀ d : Fin 10, 0x30 + UInt8.ofNat d ≠ '-'.toUInt8 := by decide
    rw [hdigits] at hunsigned
    simpa [digitBytes, numeral?, numeralOf, hdigits, hminus d, hn] using hunsigned

mutual

/-- The source that a printed value is read as. -/
def source : Json → Source
  | null => .null
  | bool value => .bool value
  | num n => .number (numeralOf n)
  | str text => .text (literalOf text)
  | arr items => .array (itemSources items)
  | obj members => .object (memberSources members)

def itemSources : List Json → List Source
  | [] => []
  | item :: rest => source item :: itemSources rest

def memberSources : List (String × Json) → List (Literal × Source)
  | [] => []
  | (key, value) :: rest => (literalOf key, source value) :: memberSources rest

end

theorem exists_compact_cons (json : Json) :
    ∃ b rest, compact json = b :: rest ∧ isBlankByte b = false ∧ b ≠ ']'.toUInt8 := by
  match json with
  | null => exact ⟨_, _, rfl, by decide, by decide⟩
  | bool true => exact ⟨_, _, rfl, by decide, by decide⟩
  | bool false => exact ⟨_, _, rfl, by decide, by decide⟩
  | str text => exact ⟨_, _, rfl, by decide, by decide⟩
  | arr items => exact ⟨_, _, rfl, by decide, by decide⟩
  | obj members => exact ⟨_, _, rfl, by decide, by decide⟩
  | num n =>
    rw [compact, printInt_eq]
    split
    · exact ⟨_, _, rfl, by decide, by decide⟩
    · obtain ⟨d, ds, hdigits⟩ := exists_digits_cons n.natAbs
      rw [hdigits]
      refine ⟨_, _, rfl, ?_, ?_⟩
      · exact (by decide : ∀ d : Fin 10, isBlankByte (0x30 + UInt8.ofNat d) = false) d
      · exact (by decide : ∀ d : Fin 10, 0x30 + UInt8.ofNat d ≠ ']'.toUInt8) d

theorem compactItems_cons_cons (item next : Json) (items : List Json) :
    compactItems (item :: next :: items) =
      compact item ++ comma :: compactItems (next :: items) := rfl

theorem exists_compactItems_cons (item : Json) (items : List Json) :
    ∃ b rest, compactItems (item :: items) = b :: rest ∧ isBlankByte b = false ∧
      b ≠ ']'.toUInt8 := by
  obtain ⟨b, tail, hitem, hblank, hne⟩ := exists_compact_cons item
  cases items with
  | nil => exact ⟨b, _, by rw [compactItems, hitem]; rfl, hblank, hne⟩
  | cons next items => exact ⟨b, _, by rw [compactItems_cons_cons, hitem]; rfl, hblank, hne⟩

theorem exists_compactMembers_cons (key : String) (value : Json) (members : List (String × Json)) :
    ∃ rest, compactMembers ((key, value) :: members) = '"'.toUInt8 :: rest := by
  cases members with
  | nil => exact ⟨_, rfl⟩
  | cons next members => exact ⟨_, rfl⟩

theorem skipBlanks_cons {b : UInt8} (h : isBlankByte b = false) (rest : Bytes) :
    skipBlanks (b :: rest) = b :: rest := by
  simp [skipBlanks, h]

theorem skipBlanks_compact (json : Json) (rest : Bytes) :
    skipBlanks (compact json ++ rest) = compact json ++ rest := by
  obtain ⟨b, tail, hjson, hblank, -⟩ := exists_compact_cons json
  rw [hjson]
  exact skipBlanks_cons hblank _

theorem keyword?_append (spelling : String) (rest : Bytes) :
    keyword? spelling (Bytes.ofText spelling ++ rest) = some rest := by
  have hstart : (Bytes.ofText spelling).isPrefixOf (Bytes.ofText spelling ++ rest) = true :=
    List.isPrefixOf_iff_prefix.mpr (List.prefix_append _ _)
  simp [keyword?, hstart]

theorem endsNumber_cons {b : UInt8} (h : b = ','.toUInt8 ∨ b = ']'.toUInt8 ∨ b = 0x7D)
    (rest : Bytes) : EndsNumber (b :: rest) := by
  intro c hc
  obtain rfl : b = c := by simpa using hc
  rcases h with rfl | rfl | rfl <;> decide

theorem escapeByte_ne_nil (b : UInt8) : escapeByte b ≠ [] := by
  intro h
  have hread := literal?_escapeByte b 0 ['"'.toUInt8]
  simp [h, literal?] at hread

theorem length_le_length_flatMap_escapeByte (bytes : Bytes) :
    bytes.length ≤ (bytes.flatMap escapeByte).length := by
  induction bytes with
  | nil => exact Nat.le_refl _
  | cons b bytes ih =>
    have hb := List.length_pos_iff.mpr (escapeByte_ne_nil b)
    simp only [List.flatMap_cons, List.length_append, List.length_cons]
    omega

theorem literal?_text (text : String) (rest : Bytes) {fuel : Nat}
    (h : ((Bytes.ofText text).flatMap escapeByte ++ '"'.toUInt8 :: rest).length < fuel) :
    literal? fuel ((Bytes.ofText text).flatMap escapeByte ++ '"'.toUInt8 :: rest) =
      some (literalOf text, rest) := by
  refine literal?_quoted _ rest ?_
  have hlength := length_le_length_flatMap_escapeByte (Bytes.ofText text)
  simp only [List.length_append, List.length_cons] at h
  omega

theorem value?_quote (text : String) (fuel : Nat) (rest : Bytes) :
    value? (fuel + 1) (quote text ++ rest) = some (.text (literalOf text), rest) := by
  have hliteral := literal?_text text rest (Nat.lt_succ_self _)
  simp only [quote, List.cons_append, List.append_assoc, List.nil_append]
  rw [value?, skipBlanks_cons (by decide)]
  exact congrArg (Option.map _) hliteral

theorem value?_printInt (n : Int) (fuel : Nat) {rest : Bytes} (hrest : EndsNumber rest) :
    value? (fuel + 1) (printInt n ++ rest) = some (.number (numeralOf n), rest) := by
  have hnumeral := numeral?_printInt n hrest
  have hstart : ∀ b ∈ (printInt n).head?, b ∉ ['n'.toUInt8, 't'.toUInt8, 'f'.toUInt8,
      '"'.toUInt8, '['.toUInt8, 0x7B] := by
    rw [printInt_eq]
    split
    · rintro _ ⟨⟩
      decide
    · obtain ⟨d, ds, hdigits⟩ := exists_digits_cons n.natAbs
      rw [hdigits]
      rintro _ ⟨⟩
      exact (by decide : ∀ d : Fin 10, 0x30 + UInt8.ofNat d ∉ ['n'.toUInt8, 't'.toUInt8,
        'f'.toUInt8, '"'.toUInt8, '['.toUInt8, 0x7B]) d
  obtain ⟨b, tail, hprinted, -⟩ := exists_compact_cons (num n)
  rw [value?, ← compact, skipBlanks_compact]
  rw [compact] at hprinted ⊢
  rw [hprinted] at hnumeral hstart ⊢
  simp only [List.mem_cons, List.not_mem_nil, or_false, not_or, List.head?_cons,
    Option.mem_some_iff, forall_eq'] at hstart
  simp only [List.cons_append, hstart, if_false] at hnumeral ⊢
  rw [hnumeral]
  rfl

theorem value?_array (fuel : Nat) {b : UInt8} {rest : Bytes} (hb : isBlankByte b = false)
    (hne : b ≠ ']'.toUInt8) :
    value? (fuel + 1) (openBracket :: b :: rest) =
      (items? fuel (b :: rest)).map fun (items, rest) => (Source.array items, rest) := by
  rw [value?, skipBlanks_cons (by decide)]
  simp only [skipBlanks_cons hb, hne, if_false]
  rfl

theorem value?_object (fuel : Nat) {b : UInt8} {rest : Bytes} (hb : isBlankByte b = false)
    (hne : b ≠ closeBrace) :
    value? (fuel + 1) (openBrace :: b :: rest) =
      (members? fuel (b :: rest)).map fun (members, rest) => (Source.object members, rest) := by
  rw [value?, skipBlanks_cons (by decide)]
  rw [closeBrace] at hne
  simp only [skipBlanks_cons hb, hne, if_false]
  rfl

theorem items?_last {fuel : Nat} {input rest : Bytes} {item : Source}
    (h : value? fuel input = some (item, closeBracket :: rest)) :
    items? (fuel + 1) input = some ([item], rest) := by
  rw [items?, h]
  rfl

theorem items?_comma {fuel : Nat} {input rest rest' : Bytes} {item : Source}
    {items : List Source} (h : value? fuel input = some (item, comma :: rest))
    (hitems : items? fuel rest = some (items, rest')) :
    items? (fuel + 1) input = some (item :: items, rest') := by
  rw [items?, h]
  simp [skipBlanks_cons (show isBlankByte comma = false by decide)]
  rw [hitems]
  rfl

theorem members?_last {fuel : Nat} {key : String} {input rest : Bytes} {value : Source}
    (h : value? fuel input = some (value, closeBrace :: rest)) :
    members? (fuel + 1) (quote key ++ colon :: input) = some ([(literalOf key, value)], rest) := by
  have hliteral := literal?_text key (colon :: input) (Nat.lt_succ_self _)
  simp only [quote, List.cons_append, List.append_assoc, List.nil_append]
  rw [members?, skipBlanks_cons (by decide)]
  simp only [if_true, hliteral, Option.bind_eq_bind, Option.bind_some]
  rw [skipBlanks_cons (by decide)]
  simp only [show colon = ':'.toUInt8 by decide, if_true, h, Option.bind_some]
  rw [skipBlanks_cons (by decide)]
  rfl

theorem members?_comma {fuel : Nat} {key : String} {input rest rest' : Bytes} {value : Source}
    {members : List (Literal × Source)} (h : value? fuel input = some (value, comma :: rest))
    (hmembers : members? fuel rest = some (members, rest')) :
    members? (fuel + 1) (quote key ++ colon :: input) =
      some ((literalOf key, value) :: members, rest') := by
  have hliteral := literal?_text key (colon :: input) (Nat.lt_succ_self _)
  simp only [quote, List.cons_append, List.append_assoc, List.nil_append]
  rw [members?, skipBlanks_cons (by decide)]
  simp only [if_true, hliteral, Option.bind_eq_bind, Option.bind_some]
  rw [skipBlanks_cons (by decide)]
  simp only [show colon = ':'.toUInt8 by decide, if_true, h, Option.bind_some]
  rw [skipBlanks_cons (by decide)]
  simp only [show comma = ','.toUInt8 by decide, if_true, hmembers, Option.bind_some]
  rfl

mutual

theorem value?_compact : ∀ (json : Json) (fuel : Nat) (rest : Bytes),
    (compact json).length ≤ fuel → EndsNumber rest →
      value? fuel (compact json ++ rest) = some (source json, rest)
  | json, 0, rest, hfuel, _ => by
    obtain ⟨b, tail, hjson, -⟩ := exists_compact_cons json
    simp [hjson] at hfuel
  | null, fuel + 1, rest, _, _ => by
    rw [value?, skipBlanks_compact]
    exact congrArg (Option.map _) (keyword?_append "ull" rest)
  | bool true, fuel + 1, rest, _, _ => by
    rw [value?, skipBlanks_compact]
    exact congrArg (Option.map _) (keyword?_append "rue" rest)
  | bool false, fuel + 1, rest, _, _ => by
    rw [value?, skipBlanks_compact]
    exact congrArg (Option.map _) (keyword?_append "alse" rest)
  | num n, fuel + 1, rest, _, hrest => value?_printInt n fuel hrest
  | str text, fuel + 1, rest, _, _ => value?_quote text fuel rest
  | arr [], fuel + 1, rest, hfuel, hrest => by
    rw [value?, skipBlanks_compact]
    rfl
  | arr (item :: items), fuel + 1, rest, hfuel, hrest => by
    have hitems := items?_compact item items fuel rest (by simpa [compact] using hfuel)
    obtain ⟨b, tail, hstart, hblank, hne⟩ := exists_compactItems_cons item items
    rw [compact, List.cons_append]
    rw [hstart] at hitems ⊢
    rw [List.cons_append, value?_array fuel hblank hne, ← List.cons_append, hitems]
    rfl
  | obj [], fuel + 1, rest, hfuel, hrest => by
    rw [value?, skipBlanks_compact]
    rfl
  | obj ((key, value) :: members), fuel + 1, rest, hfuel, hrest => by
    have hmembers := members?_compact key value members fuel rest (by simpa [compact] using hfuel)
    obtain ⟨tail, hstart⟩ := exists_compactMembers_cons key value members
    rw [compact, List.cons_append]
    rw [hstart] at hmembers ⊢
    rw [List.cons_append, value?_object fuel (by decide) (by decide), ← List.cons_append,
      hmembers]
    rfl

theorem items?_compact : ∀ (item : Json) (items : List Json) (fuel : Nat) (rest : Bytes),
    (compactItems (item :: items)).length ≤ fuel →
      items? fuel (compactItems (item :: items) ++ rest) = some (itemSources (item :: items), rest)
  | item, items, 0, rest, hfuel => by
    obtain ⟨b, tail, hstart, -⟩ := exists_compactItems_cons item items
    simp [hstart] at hfuel
  | item, [], fuel + 1, rest, hfuel => by
    have hvalue := value?_compact item fuel (closeBracket :: rest)
      (by simpa [compactItems] using hfuel) (endsNumber_cons (by decide) rest)
    rw [compactItems, List.append_assoc]
    exact items?_last hvalue
  | item, next :: items, fuel + 1, rest, hfuel => by
    simp only [compactItems, List.length_append, List.length_cons] at hfuel
    have hvalue := value?_compact item fuel (comma :: (compactItems (next :: items) ++ rest))
      (by omega) (endsNumber_cons (by decide) _)
    have hitems := items?_compact next items fuel rest (by omega)
    rw [compactItems_cons_cons, List.append_assoc]
    exact items?_comma hvalue hitems

theorem members?_compact : ∀ (key : String) (value : Json) (members : List (String × Json))
    (fuel : Nat) (rest : Bytes), (compactMembers ((key, value) :: members)).length ≤ fuel →
      members? fuel (compactMembers ((key, value) :: members) ++ rest) =
        some (memberSources ((key, value) :: members), rest)
  | key, value, members, 0, rest, hfuel => by
    obtain ⟨tail, hstart⟩ := exists_compactMembers_cons key value members
    simp [hstart] at hfuel
  | key, value, [], fuel + 1, rest, hfuel => by
    simp only [compactMembers, List.length_append, List.length_cons] at hfuel
    have hvalue := value?_compact value fuel (closeBrace :: rest) (by omega)
      (endsNumber_cons (by decide) rest)
    simp only [compactMembers, List.append_assoc, List.cons_append, List.nil_append]
    exact members?_last hvalue
  | key, value, (key', value') :: members, fuel + 1, rest, hfuel => by
    simp only [compactMembers, List.length_append, List.length_cons] at hfuel
    have hvalue := value?_compact value fuel
      (comma :: (compactMembers ((key', value') :: members) ++ rest)) (by omega)
      (endsNumber_cons (by decide) _)
    have hmembers := members?_compact key' value' members fuel rest (by omega)
    simp only [compactMembers, List.append_assoc, List.cons_append]
    exact members?_comma hvalue hmembers

end

theorem parse?_compact (json : Json) : parse? (compact json) = some (source json) := by
  have h := value?_compact json ((compact json).length + 1) [] (Nat.le_succ _)
    (by simp [EndsNumber])
  rw [List.append_nil] at h
  rw [parse?, h]
  rfl

end CatalogSync.Json
