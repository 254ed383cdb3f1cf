import CatalogSync.Json.Decode
import CatalogSync.Proofs.Decimal
import CatalogSync.Proofs.Json.Grammar
import CatalogSync.Proofs.Lists

namespace CatalogSync

namespace Json

section Names

variable {members : List (Literal × Source)}

/-- The names of all members are texts: nowhere in them stands a half of a pair of units alone. -/
def NamesAreTexts (members : List (Literal × Source)) : Prop :=
  ∀ member ∈ members, ∃ name, member.1.text? = some name

/-- The values of the members with a given name. -/
def valuesNamed (name : String) (members : List (Literal × Source)) : List Source :=
  (members.filter fun member => member.1.text? = some name).map Prod.snd

/-- The one value of a field, if there is any. Of two, none can be meant. -/
def only? : List Source → Option (Option Source)
  | [] => some none
  | [value] => some (some value)
  | _ => none

theorem only?_eq_some_some_iff {values : List Source} {value : Source} :
    only? values = some (some value) ↔ values = [value] := by
  match values with
  | [] => simp [only?]
  | [other] => simp [only?]
  | _ :: _ :: _ => simp [only?]

theorem field?_eq_only? (name : String) (members : List (String × Source)) :
    Source.field? name members =
      only? ((members.filter fun member => member.1 = name).map Prod.snd) := by
  rw [Source.field?]
  generalize members.filter (fun member => member.1 = name) = found
  match found with
  | [] => rfl
  | [member] => rfl
  | _ :: _ :: _ => rfl

theorem members?_eq_some_iff {texts : List (String × Source)} :
    (Source.object members).members? = some texts ↔
      List.Forall₂ (fun member text => member.1.text? = some text.1 ∧ text.2 = member.2)
        members texts := by
  rw [Source.members?, mapM_eq_some_iff_forall₂]
  refine iff_of_eq (congrArg (fun R => List.Forall₂ R members texts) ?_)
  funext member text
  simp only [Option.bind_eq_bind, Option.bind_eq_some_iff, Option.pure_def, Option.some.injEq,
    Prod.ext_iff, eq_iff_iff]
  constructor
  · rintro ⟨name, hname, rfl, hvalue⟩
    exact ⟨hname, hvalue.symm⟩
  · rintro ⟨hname, hvalue⟩
    exact ⟨text.1, hname, rfl, hvalue.symm⟩

theorem exists_members?_iff :
    (∃ texts, (Source.object members).members? = some texts) ↔ NamesAreTexts members := by
  simp only [members?_eq_some_iff]
  constructor
  · rintro ⟨texts, hall⟩
    induction hall with
    | nil => simp [NamesAreTexts]
    | cons hfirst _ ih => exact List.forall_mem_cons.mpr ⟨⟨_, hfirst.1⟩, ih⟩
  · intro hnames
    induction members with
    | nil => exact ⟨[], .nil⟩
    | cons member members ih =>
      obtain ⟨⟨name, hname⟩, hrest⟩ := List.forall_mem_cons.mp hnames
      obtain ⟨texts, hall⟩ := ih hrest
      exact ⟨(name, member.2) :: texts, .cons ⟨hname, rfl⟩ hall⟩

theorem map_snd_filter_eq {texts : List (String × Source)}
    (h : (Source.object members).members? = some texts) (name : String) :
    (texts.filter fun text => text.1 = name).map Prod.snd = valuesNamed name members := by
  rw [members?_eq_some_iff] at h
  induction h with
  | nil => rfl
  | @cons member text members texts hfirst _ ih =>
    obtain ⟨hname, hvalue⟩ := hfirst
    rw [valuesNamed] at ih ⊢
    by_cases htext : text.1 = name
    · have hmember : member.1.text? = some name := hname.trans (congrArg some htext)
      simp only [List.filter_cons, htext, hmember, decide_true, if_true, List.map_cons, ih, hvalue]
    · have hmember : member.1.text? ≠ some name := by
        rw [hname]
        exact fun hsame => htext (Option.some.inj hsame)
      simp only [List.filter_cons, htext, hmember, decide_false, Bool.false_eq_true, if_false, ih]

theorem fields?_object (h : NamesAreTexts members) (names : List String) :
    (Source.object members).fields? names = names.mapM fun name =>
      only? (valuesNamed name members) := by
  obtain ⟨texts, htexts⟩ := exists_members?_iff.mpr h
  rw [Source.fields?, htexts]
  refine congrArg (fun f => names.mapM f) (funext fun name => ?_)
  rw [field?_eq_only?, map_snd_filter_eq htexts]

theorem fields?_object_of_not (h : ¬ NamesAreTexts members) (names : List String) :
    (Source.object members).fields? names = none := by
  have hnone : (Source.object members).members? = none := by
    rw [Option.eq_none_iff_forall_ne_some]
    exact fun texts htexts => h (exists_members?_iff.mp ⟨texts, htexts⟩)
  rw [Source.fields?, hnone]
  rfl

theorem fields?_object_singleton_iff (h : NamesAreTexts members) {name : String} {value : Source} :
    (Source.object members).fields? [name] = some [some value] ↔
      valuesNamed name members = [value] := by
  rw [fields?_object h, mapM_eq_some_iff_forall₂]
  simp [only?_eq_some_some_iff]

theorem fields?_object_pair_iff (h : NamesAreTexts members) {name other : String}
    {value value' : Source} :
    (Source.object members).fields? [name, other] = some [some value, some value'] ↔
      valuesNamed name members = [value] ∧ valuesNamed other members = [value'] := by
  rw [fields?_object h, mapM_eq_some_iff_forall₂]
  simp [only?_eq_some_some_iff]

theorem fields?_array_pair_iff {items : List Source} {name other : String} {value value' : Source} :
    (Source.array items).fields? [name, other] = some [some value, some value'] ↔
      items = [value, value'] := by
  rw [Source.fields?]
  match items with
  | [] => simp
  | [_] => simp
  | [_, _] => simp
  | _ :: _ :: _ :: _ => simp

theorem table?_eq_some_iff {α : Type} {value? : Source → Option α} {source : Source}
    {table : Table α} :
    source.table? value? = some table ↔
      ∃ members entries, source = .object members ∧
        List.Forall₂ (fun member entry => member.1.text? = some entry.1 ∧
          value? member.2 = some entry.2)
          members entries ∧
        table = Table.ofList entries := by
  cases source with
  | object members =>
    have hread : ∀ entries, (∃ texts, (Source.object members).members? = some texts ∧
        texts.mapM (fun text => do return (text.1, ← value? text.2)) = some entries) ↔
        List.Forall₂ (fun member entry => member.1.text? = some entry.1 ∧
          value? member.2 = some entry.2)
          members entries := by
      intro entries
      simp only [members?_eq_some_iff, mapM_eq_some_iff_forall₂, exists_forall₂_and_iff]
      refine iff_of_eq (congrArg (fun R => List.Forall₂ R members entries) ?_)
      funext member entry
      simp only [Option.bind_eq_bind, Option.bind_eq_some_iff, Option.pure_def, Option.some.injEq,
        Prod.ext_iff, eq_iff_iff, Prod.exists]
      constructor
      · rintro ⟨name, value, ⟨hname, rfl⟩, read, hread, rfl, rfl⟩
        exact ⟨hname, hread⟩
      · rintro ⟨hname, hread⟩
        exact ⟨entry.1, member.2, ⟨hname, rfl⟩, entry.2, hread, rfl, rfl⟩
    simp only [Source.table?, Option.bind_eq_bind, Option.bind_eq_some_iff, Option.pure_def,
      Option.some.injEq]
    constructor
    · rintro ⟨texts, htexts, entries, hentries, rfl⟩
      exact ⟨members, entries, rfl, (hread entries).mp ⟨texts, htexts, hentries⟩, rfl⟩
    · rintro ⟨_, entries, ⟨⟩, hentries, rfl⟩
      obtain ⟨texts, htexts, hread⟩ := (hread entries).mpr hentries
      exact ⟨texts, htexts, entries, hread, rfl⟩
  | _ => simp [Source.table?, Source.members?]

end Names

section Written

/-- A source that some text writes. -/
def Source.IsWritten (source : Source) : Prop :=
  ∃ bytes, source.WrittenAs bytes

theorem isWritten_of_mem_items {items : List Source} {bytes : Bytes}
    (h : ItemsWrittenAs items bytes) {item : Source} (hitem : item ∈ items) : item.IsWritten := by
  induction items generalizing bytes with
  | nil => cases hitem
  | cons first items ih =>
    cases h with
    | last _ hfirst _ =>
      obtain rfl := List.mem_singleton.mp hitem
      exact ⟨_, hfirst⟩
    | comma _ hfirst _ hrest =>
      rcases List.mem_cons.mp hitem with rfl | hitem
      · exact ⟨_, hfirst⟩
      · exact ih hrest hitem

theorem isWritten_of_mem_members {members : List (Literal × Source)} {bytes : Bytes}
    (h : MembersWrittenAs members bytes) {member : Literal × Source} (hmember : member ∈ members) :
    member.2.IsWritten := by
  induction members generalizing bytes with
  | nil => cases hmember
  | cons first members ih =>
    cases h with
    | last _ _ _ _ hfirst _ =>
      obtain rfl := List.mem_singleton.mp hmember
      exact ⟨_, hfirst⟩
    | comma _ _ _ _ hfirst _ hrest =>
      rcases List.mem_cons.mp hmember with rfl | hmember
      · exact ⟨_, hfirst⟩
      · exact ih hrest hmember

theorem Source.IsWritten.item {items : List Source} (h : (Source.array items).IsWritten)
    {item : Source} (hitem : item ∈ items) : item.IsWritten := by
  obtain ⟨bytes, h⟩ := h
  cases h with
  | emptyArray _ => cases hitem
  | array h => exact isWritten_of_mem_items h hitem

theorem Source.IsWritten.member {members : List (Literal × Source)}
    (h : (Source.object members).IsWritten) {member : Literal × Source}
    (hmember : member ∈ members) :
    member.2.IsWritten := by
  obtain ⟨bytes, h⟩ := h
  cases h with
  | emptyObject _ => cases hmember
  | object h => exact isWritten_of_mem_members h hmember

theorem Source.IsWritten.valueNamed {members : List (Literal × Source)}
    (h : (Source.object members).IsWritten) {name : String} {value : Source}
    (hvalue : value ∈ valuesNamed name members) : value.IsWritten := by
  obtain ⟨member, hmember, rfl⟩ := List.mem_map.mp hvalue
  exact h.member (List.mem_of_mem_filter hmember)

theorem Holds.isWritten {input : Bytes} {source : Source} (h : Holds input source) :
    source.IsWritten := by
  obtain ⟨_, bytes, _, _, hwritten, _⟩ := h
  exact ⟨bytes, hwritten⟩

theorem digitOf_of_isDigit {b : UInt8} (h : isDigit b = true) :
    digitOf b < 10 ∧ (digitOf b = 0 → b = '0'.toUInt8) := by
  simp only [isDigit, Bool.and_eq_true, decide_eq_true_eq, UInt8.le_iff_toNat_le] at h
  rw [digitOf, ← UInt8.toNat_inj]
  have hzero : '0'.toUInt8.toNat = 48 := rfl
  have hnine : '9'.toUInt8.toNat = 57 := rfl
  have hchar : '0'.toNat = 48 := rfl
  omega

theorem WritesIntegral.eq_digits {ds : List Nat} {bytes : Bytes} (h : WritesIntegral ds bytes) :
    ds = Decimal.digits (Decimal.value ds) := by
  cases h with
  | zero => simp [Decimal.value, Decimal.digits]
  | row hrow hhead =>
    obtain ⟨b, tail, rfl⟩ := List.exists_cons_of_ne_nil hrow.1
    have hfirst := digitOf_of_isDigit (hrow.2 b List.mem_cons_self)
    refine (Decimal.digits_value (by simp) ?_ ?_).symm
    · intro d hd
      obtain ⟨c, hc, rfl⟩ := List.mem_map.mp hd
      exact (digitOf_of_isDigit (hrow.2 c hc)).1
    · intro hzero
      exact hhead (congrArg some (hfirst.2 (Option.some.inj hzero)))

/-- A number is a whole one exactly if it is written in plain digits. -/
theorem Numeral.WrittenAs.int?_eq_some_iff {numeral : Numeral} {bytes : Bytes}
    (h : numeral.WrittenAs bytes) {n : Int} : numeral.int? = some n ↔ numeral = numeralOf n := by
  constructor
  · intro hn
    cases h with
    | @parts negative noFraction noExponent ds _ _ _ hintegral _ _ =>
      have hds := hintegral.eq_digits
      simp only [Numeral.int?] at hn
      split at hn
      · cases hn
      rename_i hwhole
      have hwhole : (noFraction && noExponent) = true := by simpa using hwhole
      rw [hwhole, numeralOf]
      split at hn
      · rename_i hnegative
        split at hn
        · cases hn
        obtain rfl := Option.some.inj hn
        have hlt : -(Decimal.value ds : Int) < 0 := by omega
        rw [hnegative, Int.natAbs_neg, Int.natAbs_natCast, ← hds, decide_eq_true hlt]
      · rename_i hnegative
        obtain rfl := Option.some.inj hn
        have hle : ¬ (Decimal.value ds : Int) < 0 := by omega
        rw [Bool.eq_false_iff.mpr hnegative, Int.natAbs_natCast, ← hds, decide_eq_false hle]
  · rintro rfl
    exact int?_numeralOf n

section Numbers

variable {source : Source} (h : source.IsWritten)
include h

theorem int?_eq_some_iff {n : Int} : source.int? = some n ↔ source = .number (numeralOf n) := by
  obtain ⟨bytes, h⟩ := h
  cases h with
  | number h => rw [Source.int?, h.int?_eq_some_iff, Source.number.injEq]
  | _ => simp [Source.int?]

theorem below?_eq_some_iff {bound n : Nat} :
    source.below? bound = some n ↔ source = .number (numeralOf n) ∧ n < bound := by
  simp only [Source.below?, Option.bind_eq_bind, Option.bind_eq_some_iff, int?_eq_some_iff h]
  constructor
  · rintro ⟨m, hsource, hread⟩
    split at hread
    · rename_i hbounds
      obtain rfl := Option.some.inj hread
      refine ⟨?_, by omega⟩
      rw [hsource, Int.toNat_of_nonneg hbounds.1]
    · cases hread
  · rintro ⟨hsource, hlt⟩
    exact ⟨n, hsource, by simp [hlt]⟩

theorem int64?_eq_some_iff {n : Int} :
    source.int64? = some n ↔
      source = .number (numeralOf n) ∧ -0x8000_0000_0000_0000 ≤ n ∧ n < 0x8000_0000_0000_0000 := by
  simp only [Source.int64?, Option.bind_eq_bind, Option.bind_eq_some_iff, int?_eq_some_iff h]
  constructor
  · rintro ⟨m, hsource, hread⟩
    split at hread
    · rename_i hbounds
      obtain rfl := Option.some.inj hread
      exact ⟨hsource, hbounds⟩
    · cases hread
  · rintro ⟨hsource, hbounds⟩
    exact ⟨n, hsource, by rw [if_pos hbounds]⟩

end Numbers

end Written

end Json

end CatalogSync
