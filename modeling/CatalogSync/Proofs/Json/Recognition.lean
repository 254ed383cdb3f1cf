import CatalogSync.Proofs.Json.Grammar

namespace CatalogSync.Json

section Soundness

theorem exists_writtenAs_cons {source : Source} {bytes : Bytes} (h : source.WrittenAs bytes) :
    ∃ b tail, bytes = b :: tail ∧ isBlankByte b = false ∧ b ≠ ']'.toUInt8 := by
  cases h with
  | null => exact ⟨_, _, rfl, by decide, by decide⟩
  | true => exact ⟨_, _, rfl, by decide, by decide⟩
  | false => exact ⟨_, _, rfl, by decide, by decide⟩
  | text h => exact ⟨_, _, rfl, by decide, by decide⟩
  | emptyArray h => exact ⟨_, _, rfl, by decide, by decide⟩
  | array h => exact ⟨_, _, rfl, by decide, by decide⟩
  | emptyObject h => exact ⟨_, _, rfl, by decide, by decide⟩
  | object h => exact ⟨_, _, rfl, by decide, by decide⟩
  | number h =>
    obtain ⟨b, tail, rfl, hstart⟩ := exists_numeral_cons h
    refine ⟨b, tail, rfl, ?_⟩
    rcases hstart with hdigit | rfl
    · constructor
      · cases hblank : isBlankByte b with
        | false => rfl
        | true =>
          simp only [isBlankByte, Bool.or_eq_true, beq_iff_eq] at hblank
          rcases hblank with ((rfl | rfl) | rfl) | rfl <;> exact absurd hdigit (by decide)
      · rintro rfl
        exact absurd hdigit (by decide)
    · decide

theorem exists_keyword {spelling : String} {tail rest : Bytes} {value source : Source}
    (h : (keyword? spelling tail).map (value, ·) = some (source, rest)) :
    source = value ∧ tail = Bytes.ofText spelling ++ rest := by
  obtain ⟨after, hkeyword, hsame⟩ := Option.map_eq_some_iff.mp h
  cases hsame
  rw [keyword?] at hkeyword
  split at hkeyword
  · rename_i hstart
    obtain ⟨more, rfl⟩ := List.isPrefixOf_iff_prefix.mp hstart
    cases hkeyword
    exact ⟨rfl, by simp⟩
  · cases hkeyword

theorem AllBlank.append {first second : Bytes} (hfirst : AllBlank first)
    (hsecond : AllBlank second) :
    AllBlank (first ++ second) := by
  intro b hb
  rcases List.mem_append.mp hb with hb | hb
  · exact hfirst b hb
  · exact hsecond b hb

theorem ItemsWrittenAs.behind {items : List Source} {bytes : Bytes} (h : ItemsWrittenAs items bytes)
    {blanks : Bytes} (hblanks : AllBlank blanks) : ItemsWrittenAs items (blanks ++ bytes) := by
  cases h with
  | last hbefore hitem hafter =>
    rw [← List.append_assoc]
    exact .last (hblanks.append hbefore) hitem hafter
  | comma hbefore hitem hafter hrest =>
    rw [← List.append_assoc]
    exact .comma (hblanks.append hbefore) hitem hafter hrest

theorem MembersWrittenAs.behind {members : List (Literal × Source)} {bytes : Bytes}
    (h : MembersWrittenAs members bytes) {blanks : Bytes} (hblanks : AllBlank blanks) :
    MembersWrittenAs members (blanks ++ bytes) := by
  cases h with
  | last hbefore hkey hbetween hinner hvalue hafter =>
    rw [← List.append_assoc]
    exact .last (hblanks.append hbefore) hkey hbetween hinner hvalue hafter
  | comma hbefore hkey hbetween hinner hvalue hafter hrest =>
    rw [← List.append_assoc]
    exact .comma (hblanks.append hbefore) hkey hbetween hinner hvalue hafter hrest

/-- What is read is written there, behind some blanks. -/
def ReadsValue (fuel : Nat) : Prop :=
  ∀ input source rest, value? fuel input = some (source, rest) →
    ∃ before bytes, AllBlank before ∧ source.WrittenAs bytes ∧ input = before ++ (bytes ++ rest)

def ReadsItems (fuel : Nat) : Prop :=
  ∀ input items rest, items? fuel input = some (items, rest) →
    ∃ bytes, ItemsWrittenAs items bytes ∧ input = bytes ++ rest

def ReadsMembers (fuel : Nat) : Prop :=
  ∀ input members rest, members? fuel input = some (members, rest) →
    ∃ bytes, MembersWrittenAs members bytes ∧ input = bytes ++ rest

theorem exists_enclosed {α : Type} {close : UInt8} {nothing : Source} {enclose : α → Source}
    {read : Bytes → Option (α × Bytes)} {tail rest : Bytes} {source : Source}
    (h : (match skipBlanks tail with
      | [] => none
      | b :: inner =>
        if b = close then some (nothing, inner)
        else (read (b :: inner)).map fun (enclosed, rest) => (enclose enclosed, rest)) =
      some (source, rest)) :
    ∃ blanks inner, AllBlank blanks ∧ tail = blanks ++ inner ∧
      (source = nothing ∧ inner = close :: rest ∨
        ∃ enclosed, source = enclose enclosed ∧ read inner = some (enclosed, rest)) := by
  obtain ⟨blanks, hblanks, htail⟩ := exists_blanks tail
  refine ⟨blanks, skipBlanks tail, hblanks, htail, ?_⟩
  split at h
  · cases h
  rename_i b inner hinner
  rw [hinner]
  split at h
  · rename_i hclosing
    cases h
    exact Or.inl ⟨rfl, by rw [hclosing]⟩
  · obtain ⟨⟨enclosed, after⟩, hread, hsame⟩ := Option.map_eq_some_iff.mp h
    cases hsame
    exact Or.inr ⟨enclosed, rfl, hread⟩

theorem readsValue_succ {fuel : Nat} (hitems : ReadsItems fuel) (hmembers : ReadsMembers fuel) :
    ReadsValue (fuel + 1) := by
  intro input source rest h
  obtain ⟨before, hbefore, hinput⟩ := exists_blanks input
  suffices hvalue : ∃ bytes, source.WrittenAs bytes ∧ skipBlanks input = bytes ++ rest by
    obtain ⟨bytes, hwrites, hrest⟩ := hvalue
    exact ⟨before, bytes, hbefore, hwrites, by rw [← hrest]; exact hinput⟩
  rw [value?] at h
  split at h
  · cases h
  rename_i b tail hskip
  rw [hskip]
  split at h
  · rename_i hletter
    obtain ⟨rfl, htail⟩ := exists_keyword h
    rw [hletter, htail]
    exact ⟨_, .null, rfl⟩
  split at h
  · rename_i hletter
    obtain ⟨rfl, htail⟩ := exists_keyword h
    rw [hletter, htail]
    exact ⟨_, .true, rfl⟩
  split at h
  · rename_i hletter
    obtain ⟨rfl, htail⟩ := exists_keyword h
    rw [hletter, htail]
    exact ⟨_, .false, rfl⟩
  split at h
  · rename_i hquote
    obtain ⟨⟨literal, after⟩, hliteral, hsame⟩ := Option.map_eq_some_iff.mp h
    cases hsame
    obtain ⟨bytes, hwrites, rfl⟩ := exists_literal hliteral
    exact ⟨_, .text hwrites, by simp [quoted, hquote]⟩
  split at h
  · rename_i hbracket
    rw [hbracket]
    obtain ⟨blanks, inner, hblanks, rfl, ⟨rfl, rfl⟩ | ⟨items, rfl, hread⟩⟩ := exists_enclosed h
    · refine ⟨_, .emptyArray hblanks, ?_⟩
      rw [List.cons_append, List.append_assoc]
      rfl
    · obtain ⟨bytes, hwrites, rfl⟩ := hitems _ _ _ hread
      refine ⟨_, .array (hwrites.behind hblanks), ?_⟩
      rw [List.cons_append, List.append_assoc]
      rfl
  split at h
  · rename_i hbrace
    rw [hbrace]
    obtain ⟨blanks, inner, hblanks, rfl, ⟨rfl, rfl⟩ | ⟨members, rfl, hread⟩⟩ := exists_enclosed h
    · refine ⟨_, .emptyObject hblanks, ?_⟩
      rw [List.cons_append, List.append_assoc]
      rfl
    · obtain ⟨bytes, hwrites, rfl⟩ := hmembers _ _ _ hread
      refine ⟨_, .object (hwrites.behind hblanks), ?_⟩
      rw [List.cons_append, List.append_assoc]
      rfl
  · obtain ⟨⟨numeral, after⟩, hread, hsame⟩ := Option.map_eq_some_iff.mp h
    cases hsame
    obtain ⟨bytes, hwrites, hbytes⟩ := exists_numeral hread
    exact ⟨bytes, .number hwrites, hbytes⟩

theorem readsItems_succ {fuel : Nat} (hvalue : ReadsValue fuel) (hitems : ReadsItems fuel) :
    ReadsItems (fuel + 1) := by
  intro input items rest h
  simp only [items?, Option.bind_eq_bind, Option.bind_eq_some_iff, Prod.exists] at h
  obtain ⟨item, tail, hread, h⟩ := h
  obtain ⟨before, bytes, hbefore, hwrites, rfl⟩ := hvalue _ _ _ hread
  obtain ⟨after, hafter, htail⟩ := exists_blanks tail
  split at h
  · cases h
  rename_i b inner hinner
  rw [htail, hinner]
  split at h
  · rename_i hclosing
    cases h
    refine ⟨_, .last hbefore hwrites hafter, ?_⟩
    rw [hclosing, show ']'.toUInt8 = closeBracket from rfl]
    simp
  split at h
  · rename_i hcomma
    simp only [Option.bind_eq_some_iff, Prod.exists] at h
    obtain ⟨others, tail', hread', hsame⟩ := h
    cases hsame
    obtain ⟨bytes', hwrites', rfl⟩ := hitems _ _ _ hread'
    refine ⟨_, .comma hbefore hwrites hafter hwrites', ?_⟩
    rw [hcomma, show ','.toUInt8 = comma from rfl]
    simp
  · cases h

theorem readsMembers_succ {fuel : Nat} (hvalue : ReadsValue fuel) (hmembers : ReadsMembers fuel) :
    ReadsMembers (fuel + 1) := by
  intro input members rest h
  obtain ⟨before, hbefore, hinput⟩ := exists_blanks input
  rw [members?] at h
  split at h
  · cases h
  rename_i b tail hskip
  rw [hinput, hskip]
  split at h
  · rename_i hquote
    simp only [Option.bind_eq_bind, Option.bind_eq_some_iff, Prod.exists] at h
    obtain ⟨key, tail', hkey, h⟩ := h
    obtain ⟨name, hname, rfl⟩ := exists_literal hkey
    obtain ⟨between, hbetween, htail'⟩ := exists_blanks tail'
    split at h
    · cases h
    rename_i c tail hskip'
    rw [htail', hskip']
    split at h
    · rename_i hcolon
      simp only [Option.bind_eq_some_iff, Prod.exists] at h
      obtain ⟨value, tail'', hread, h⟩ := h
      obtain ⟨inner, bytes, hinner, hwrites, rfl⟩ := hvalue _ _ _ hread
      obtain ⟨after, hafter, htail''⟩ := exists_blanks tail''
      split at h
      · cases h
      rename_i d tail hskip''
      rw [htail'', hskip'', hquote, hcolon, show ':'.toUInt8 = colon from rfl]
      split at h
      · rename_i hclosing
        cases h
        refine ⟨_, .last hbefore hname hbetween hinner hwrites hafter, ?_⟩
        rw [hclosing, show (0x7D : UInt8) = closeBrace from rfl]
        simp [quoted]
      split at h
      · rename_i hcomma
        simp only [Option.bind_eq_some_iff, Prod.exists] at h
        obtain ⟨others, tail', hread', hsame⟩ := h
        cases hsame
        obtain ⟨bytes', hwrites', rfl⟩ := hmembers _ _ _ hread'
        refine ⟨_, .comma hbefore hname hbetween hinner hwrites hafter hwrites', ?_⟩
        rw [hcomma, show ','.toUInt8 = comma from rfl]
        simp [quoted]
      · cases h
    · cases h
  · cases h

theorem reads (fuel : Nat) : ReadsValue fuel ∧ ReadsItems fuel ∧ ReadsMembers fuel := by
  induction fuel with
  | zero => exact ⟨nofun, nofun, nofun⟩
  | succ fuel ih =>
    exact ⟨readsValue_succ ih.2.1 ih.2.2, readsItems_succ ih.1 ih.2.1,
      readsMembers_succ ih.1 ih.2.2⟩

end Soundness

section Completeness

theorem value?_blanks (fuel : Nat) {blanks : Bytes} (h : AllBlank blanks) (input : Bytes) :
    value? fuel (blanks ++ input) = value? fuel input := by
  cases fuel with
  | zero => rfl
  | succ fuel => rw [value?, value?, skipBlanks_append h]

theorem members?_blanks (fuel : Nat) {blanks : Bytes} (h : AllBlank blanks) (input : Bytes) :
    members? fuel (blanks ++ input) = members? fuel input := by
  cases fuel with
  | zero => rfl
  | succ fuel => rw [members?, members?, skipBlanks_append h]

theorem endsNumber_after {after : Bytes} (h : AllBlank after) {b : UInt8}
    (hb : b = comma ∨ b = closeBracket ∨ b = closeBrace) (rest : Bytes) :
    EndsNumber (after ++ b :: rest) :=
  endsNumber_blanks h (endsNumber_cons hb rest)

theorem value?_quoted {literal : Literal} {bytes : Bytes} (h : literal.WrittenAs bytes) (fuel : Nat)
    (rest : Bytes) : value? (fuel + 1) (quoted bytes ++ rest) = some (.text literal, rest) := by
  have hlength : bytes.length < (bytes ++ '"'.toUInt8 :: rest).length + 1 := by
    rw [List.length_append]
    omega
  have hliteral := literal?_append h rest hlength
  simp only [quoted, List.cons_append, List.append_assoc, List.nil_append]
  rw [value?, skipBlanks_cons (by decide)]
  exact congrArg (Option.map _) hliteral

theorem value?_number {numeral : Numeral} {bytes : Bytes} (h : numeral.WrittenAs bytes) (fuel : Nat)
    {rest : Bytes} (hrest : EndsNumber rest) :
    value? (fuel + 1) (bytes ++ rest) = some (.number numeral, rest) := by
  have hnumeral := numeral?_append h hrest
  obtain ⟨b, tail, hbytes, hblank, -⟩ := exists_writtenAs_cons (.number h)
  obtain ⟨b', tail', hbytes', hstart⟩ := exists_numeral_cons h
  obtain ⟨rfl, -⟩ := List.cons.inj (hbytes.symm.trans hbytes')
  have hother : b ∉ ['n'.toUInt8, 't'.toUInt8, 'f'.toUInt8, '"'.toUInt8, '['.toUInt8, 0x7B] := by
    rcases hstart with hdigit | rfl
    · intro hmem
      simp only [List.mem_cons, List.not_mem_nil, or_false] at hmem
      rcases hmem with rfl | rfl | rfl | rfl | rfl | rfl <;> exact absurd hdigit (by decide)
    · decide
  simp only [List.mem_cons, List.not_mem_nil, or_false, not_or] at hother
  rw [hbytes, List.cons_append] at hnumeral ⊢
  rw [value?, skipBlanks_cons hblank]
  simp only [hother, if_false]
  rw [hnumeral]
  rfl

theorem members?_member {key : Literal} {name : Bytes} (hkey : key.WrittenAs name) {between : Bytes}
    (hbetween : AllBlank between) {fuel : Nat} {input rest after : Bytes} {value : Source}
    {b : UInt8}
    (hvalue : value? fuel input = some (value, after ++ b :: rest)) (hafter : AllBlank after)
    (hb : isBlankByte b = false) :
    members? (fuel + 1) (quoted name ++ (between ++ colon :: input)) =
      if b = 0x7D then some ([(key, value)], rest)
      else if b = ','.toUInt8 then
        (members? fuel rest).map fun (members, rest) => ((key, value) :: members, rest)
      else none := by
  have hlength : name.length < (name ++ '"'.toUInt8 :: (between ++ colon :: input)).length + 1 := by
    rw [List.length_append]
    omega
  have hliteral := literal?_append hkey (between ++ colon :: input) hlength
  simp only [quoted, List.cons_append, List.append_assoc, List.nil_append]
  rw [members?, skipBlanks_cons (by decide)]
  simp only [if_true, hliteral, Option.bind_eq_bind, Option.bind_some]
  rw [skipBlanks_append_cons hbetween (by decide)]
  simp only [show colon = ':'.toUInt8 by decide, if_true, hvalue, Option.bind_some]
  rw [skipBlanks_append_cons hafter hb]
  dsimp only
  split
  · rfl
  split
  · cases members? fuel rest <;> rfl
  · rfl

theorem value?_openBracket (fuel : Nat) {input tail : Bytes} {b : UInt8}
    (hskip : skipBlanks input = b :: tail) (hne : b ≠ ']'.toUInt8) :
    value? (fuel + 1) (openBracket :: input) =
      (items? fuel input).map fun (items, rest) => (Source.array items, rest) := by
  have hblank : items? fuel (b :: tail) = items? fuel input := by
    obtain ⟨before, hbefore, hinput⟩ := exists_blanks input
    rw [hinput, hskip]
    cases fuel with
    | zero => rfl
    | succ fuel => rw [items?, items?, value?_blanks fuel hbefore]
  rw [value?, skipBlanks_cons (by decide)]
  simp only [hskip, hne, if_false, hblank]
  rfl

theorem value?_openBrace (fuel : Nat) {input tail : Bytes} {b : UInt8}
    (hskip : skipBlanks input = b :: tail) (hne : b ≠ closeBrace) :
    value? (fuel + 1) (openBrace :: input) =
      (members? fuel input).map fun (members, rest) => (Source.object members, rest) := by
  have hblank : members? fuel (b :: tail) = members? fuel input := by
    obtain ⟨before, hbefore, hinput⟩ := exists_blanks input
    rw [hinput, hskip, members?_blanks fuel hbefore]
  rw [closeBrace] at hne
  rw [value?, skipBlanks_cons (by decide)]
  simp only [hskip, hne, if_false, hblank]
  rfl

theorem skipBlanks_items {items : List Source} {bytes : Bytes} (h : ItemsWrittenAs items bytes)
    (rest : Bytes) : ∃ b tail, skipBlanks (bytes ++ rest) = b :: tail ∧ b ≠ ']'.toUInt8 := by
  cases h with
  | last hbefore hitem hafter =>
    obtain ⟨b, tail, rfl, hblank, hne⟩ := exists_writtenAs_cons hitem
    rw [List.append_assoc, skipBlanks_append hbefore]
    exact ⟨b, _, skipBlanks_cons hblank _, hne⟩
  | comma hbefore hitem hafter hrest =>
    obtain ⟨b, tail, rfl, hblank, hne⟩ := exists_writtenAs_cons hitem
    rw [List.append_assoc, skipBlanks_append hbefore]
    exact ⟨b, _, skipBlanks_cons hblank _, hne⟩

theorem skipBlanks_members {members : List (Literal × Source)} {bytes : Bytes}
    (h : MembersWrittenAs members bytes) (rest : Bytes) :
    ∃ tail, skipBlanks (bytes ++ rest) = '"'.toUInt8 :: tail := by
  cases h with
  | last hbefore hkey hbetween hinner hvalue hafter =>
    rw [List.append_assoc, skipBlanks_append hbefore]
    exact ⟨_, skipBlanks_cons (by decide) _⟩
  | comma hbefore hkey hbetween hinner hvalue hafter hrest =>
    rw [List.append_assoc, skipBlanks_append hbefore]
    exact ⟨_, skipBlanks_cons (by decide) _⟩

/-- What is written is read, if there is fuel for every byte. -/
def AcceptsValue (fuel : Nat) : Prop :=
  ∀ source bytes rest, Source.WrittenAs source bytes → bytes.length ≤ fuel → EndsNumber rest →
    value? fuel (bytes ++ rest) = some (source, rest)

def AcceptsItems (fuel : Nat) : Prop :=
  ∀ items bytes rest, ItemsWrittenAs items bytes → bytes.length ≤ fuel →
    items? fuel (bytes ++ rest) = some (items, rest)

def AcceptsMembers (fuel : Nat) : Prop :=
  ∀ members bytes rest, MembersWrittenAs members bytes → bytes.length ≤ fuel →
    members? fuel (bytes ++ rest) = some (members, rest)

theorem acceptsValue_succ {fuel : Nat} (hitems : AcceptsItems fuel)
    (hmembers : AcceptsMembers fuel) :
    AcceptsValue (fuel + 1) := by
  intro source bytes rest h hfuel hrest
  cases h with
  | null => exact congrArg (Option.map _) (keyword?_append "ull" rest)
  | true => exact congrArg (Option.map _) (keyword?_append "rue" rest)
  | false => exact congrArg (Option.map _) (keyword?_append "alse" rest)
  | number h => exact value?_number h fuel hrest
  | text h => exact value?_quoted h fuel rest
  | emptyArray h =>
    rw [List.cons_append, List.append_assoc, value?, skipBlanks_cons (by decide)]
    simp only [List.singleton_append,
      skipBlanks_append_cons h (show isBlankByte closeBracket = false by decide)]
    rfl
  | array h =>
    obtain ⟨b, tail, hskip, hne⟩ := skipBlanks_items h rest
    rw [List.cons_append, value?_openBracket fuel hskip hne, hitems _ _ _ h (by simpa using hfuel)]
    rfl
  | emptyObject h =>
    rw [List.cons_append, List.append_assoc, value?, skipBlanks_cons (by decide)]
    simp only [List.singleton_append,
      skipBlanks_append_cons h (show isBlankByte closeBrace = false by decide)]
    rfl
  | object h =>
    obtain ⟨tail, hskip⟩ := skipBlanks_members h rest
    rw [List.cons_append, value?_openBrace fuel hskip (by decide),
      hmembers _ _ _ h (by simpa using hfuel)]
    rfl

theorem acceptsItems_succ {fuel : Nat} (hvalue : AcceptsValue fuel) (hitems : AcceptsItems fuel) :
    AcceptsItems (fuel + 1) := by
  intro items bytes rest h hfuel
  cases h with
  | last hbefore hitem hafter =>
    simp only [List.length_append, List.length_cons] at hfuel
    have hread := hvalue _ _ _ hitem (by omega) (endsNumber_after hafter (Or.inr (Or.inl rfl)) rest)
    simp only [List.append_assoc, List.singleton_append]
    rw [items?, value?_blanks fuel hbefore, hread]
    simp only [Option.bind_eq_bind, Option.bind_some]
    rw [skipBlanks_append_cons hafter (by decide)]
    rfl
  | @comma _ _ _ _ _ others hbefore hitem hafter hothers =>
    simp only [List.length_append, List.length_cons] at hfuel
    have hread := hvalue _ _ _ hitem (by omega)
      (endsNumber_after hafter (Or.inl rfl) (others ++ rest))
    have hread' := hitems _ _ rest hothers (by omega)
    simp only [List.append_assoc, List.cons_append]
    rw [items?, value?_blanks fuel hbefore, hread]
    simp only [Option.bind_eq_bind, Option.bind_some]
    rw [skipBlanks_append_cons hafter (by decide)]
    simp only [show comma = ','.toUInt8 by decide, if_true, hread', Option.bind_some]
    rfl

theorem acceptsMembers_succ {fuel : Nat} (hvalue : AcceptsValue fuel)
    (hmembers : AcceptsMembers fuel) :
    AcceptsMembers (fuel + 1) := by
  intro members bytes rest h hfuel
  cases h with
  | last hbefore hkey hbetween hinner hwrites hafter =>
    simp only [List.length_append, List.length_cons] at hfuel
    have hread := hvalue _ _ _ hwrites (by omega)
      (endsNumber_after hafter (Or.inr (Or.inr rfl)) rest)
    have hmember := members?_member hkey hbetween ((value?_blanks fuel hinner _).trans hread) hafter
      (by decide)
    simp only [List.append_assoc, List.cons_append, List.nil_append]
    rw [members?_blanks _ hbefore, hmember]
    rfl
  | @comma _ _ _ _ _ _ _ _ _ others hbefore hkey hbetween hinner hwrites hafter hothers =>
    simp only [List.length_append, List.length_cons] at hfuel
    have hread := hvalue _ _ _ hwrites (by omega)
      (endsNumber_after hafter (Or.inl rfl) (others ++ rest))
    have hread' := hmembers _ _ rest hothers (by omega)
    have hmember := members?_member hkey hbetween ((value?_blanks fuel hinner _).trans hread) hafter
      (by decide)
    simp only [List.append_assoc, List.cons_append]
    rw [members?_blanks _ hbefore, hmember, hread']
    rfl

theorem accepts (fuel : Nat) : AcceptsValue fuel ∧ AcceptsItems fuel ∧ AcceptsMembers fuel := by
  induction fuel with
  | zero =>
    refine ⟨?_, ?_, ?_⟩
    · intro source bytes rest h hfuel
      obtain ⟨b, tail, rfl, -⟩ := exists_writtenAs_cons h
      simp at hfuel
    · intro items bytes rest h hfuel
      cases h <;> simp at hfuel
    · intro members bytes rest h hfuel
      cases h <;> simp at hfuel
  | succ fuel ih =>
    exact ⟨acceptsValue_succ ih.2.1 ih.2.2, acceptsItems_succ ih.1 ih.2.1,
      acceptsMembers_succ ih.1 ih.2.2⟩

end Completeness

/-- The parser reads exactly the texts of the grammar, and each of them as what it writes. -/
theorem parse?_eq_some_iff {input : Bytes} {source : Source} :
    parse? input = some source ↔ Holds input source := by
  constructor
  · intro h
    rw [parse?] at h
    split at h
    · rename_i source' after hread
      obtain ⟨before, bytes, hbefore, hwrites, hinput⟩ := (reads _).1 _ _ _ hread
      split at h
      · rename_i hafter
        cases h
        refine ⟨before, bytes, after, hbefore, hwrites, ?_, hinput⟩
        exact skipBlanks_eq_nil_iff.mp (List.isEmpty_iff.mp hafter)
      · cases h
    · cases h
  · rintro ⟨before, bytes, after, hbefore, hwrites, hafter, rfl⟩
    have hends : EndsNumber after := by
      have hnil : EndsNumber [] := by simp [EndsNumber]
      have := endsNumber_blanks hafter hnil
      rwa [List.append_nil] at this
    have hread := (accepts ((before ++ (bytes ++ after)).length + 1)).1 _ _ after hwrites
      (by simp only [List.length_append]; omega) hends
    rw [parse?, value?_blanks _ hbefore, hread]
    simp only [skipBlanks_eq_nil_iff.mpr hafter]
    rfl

end CatalogSync.Json
