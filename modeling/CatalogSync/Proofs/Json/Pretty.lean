import CatalogSync.Proofs.Json.Members
import CatalogSync.Proofs.Json.Recognition
import CatalogSync.Proofs.Json.Fields
import CatalogSync.Record.Codec

namespace CatalogSync.Json

section Layout

theorem allBlank_nil : AllBlank [] :=
  fun _ hb => absurd hb List.not_mem_nil

theorem allBlank_newLine (level : Nat) : AllBlank (newLine level) := by
  intro b hb
  obtain rfl | hb := List.mem_cons.mp hb
  · decide
  · rw [List.eq_of_mem_replicate hb]
    decide

theorem allBlank_blank : AllBlank [0x20] := by
  intro b hb
  rw [List.mem_singleton.mp hb]
  decide

theorem writtenAs_printInt (n : Int) : (numeralOf n).WrittenAs (printInt n) := by
  have hends : EndsNumber [] := by simp [EndsNumber]
  have hread := numeral?_printInt n hends
  obtain ⟨bytes, hwritten, hprinted⟩ := exists_numeral hread
  rw [List.append_nil, List.append_nil] at hprinted
  rwa [hprinted]

theorem writtenAs_escaped (text : String) :
    (literalOf text).WrittenAs ((Bytes.ofText text).flatMap escapeByte) := by
  have hread := literal?_quoted (Bytes.ofText text) [] (Nat.lt_succ_self _)
  obtain ⟨bytes, hwritten, hprinted⟩ := exists_literal hread
  rwa [List.append_cancel_right hprinted]

mutual

theorem writtenAs_pretty :
    ∀ (level : Nat) (json : Json), (source json).WrittenAs (pretty level json)
  | _, null => .null
  | _, bool true => .true
  | _, bool false => .false
  | _, num n => .number (writtenAs_printInt n)
  | _, str text => .text (writtenAs_escaped text)
  | _, arr [] => .emptyArray allBlank_nil
  | level, arr (item :: items) => by
    have hitems := writtenAs_prettyItems level item items
    rw [pretty, List.cons_append, List.cons_append, List.append_assoc]
    exact .array hitems
  | _, obj [] => .emptyObject allBlank_nil
  | level, obj ((key, value) :: members) => by
    have hmembers := writtenAs_prettyMembers level key value members
    simp only [pretty, List.cons_append, List.append_assoc]
    exact .object hmembers
termination_by _ json => sizeOf json

theorem writtenAs_prettyItems : ∀ (level : Nat) (item : Json) (items : List Json),
    ItemsWrittenAs (itemSources (item :: items))
      (newLine (level + 1) ++ (pretty (level + 1) item ++ prettyItems level items))
  | level, item, [] =>
    .last (allBlank_newLine _) (writtenAs_pretty (level + 1) item) (allBlank_newLine _)
  | level, item, next :: items => by
    have hitem := writtenAs_pretty (level + 1) item
    have hrest := writtenAs_prettyItems level next items
    rw [prettyItems, List.cons_append, List.cons_append, List.append_assoc]
    exact .comma (allBlank_newLine _) hitem allBlank_nil hrest
termination_by _ item items => sizeOf (item :: items)

theorem writtenAs_prettyMembers : ∀ (level : Nat) (key : String) (value : Json)
    (members : List (String × Json)),
    MembersWrittenAs (memberSources ((key, value) :: members))
      (newLine (level + 1) ++ (quote key ++ (ascii ": " ++ (pretty (level + 1) value ++
        prettyMembers level members))))
  | level, key, value, [] => by
    have hvalue := writtenAs_pretty (level + 1) value
    exact .last (allBlank_newLine _) (writtenAs_escaped key) allBlank_nil allBlank_blank hvalue
      (allBlank_newLine _)
  | level, key, value, (key', value') :: members => by
    have hvalue := writtenAs_pretty (level + 1) value
    have hrest := writtenAs_prettyMembers level key' value' members
    simp only [prettyMembers, List.cons_append, List.append_assoc]
    exact .comma (allBlank_newLine _) (writtenAs_escaped key) allBlank_nil allBlank_blank hvalue
      allBlank_nil hrest
termination_by _ key value members => sizeOf ((key, value) :: members)

end

theorem parse?_pretty (json : Json) : parse? (pretty 0 json) = some (source json) := by
  rw [parse?_eq_some_iff]
  exact ⟨[], _, [], allBlank_nil, writtenAs_pretty 0 json, allBlank_nil, (List.append_nil _).symm⟩

end Layout

section Decoding

/-- A value nested at most `depth` deep whose numbers fit 64 bits, with or without sign, and whose
objects are tables. -/
inductive Fits : Nat → Json → Prop where
  | null {depth : Nat} : Fits depth .null
  | bool {depth : Nat} (value : Bool) : Fits depth (.bool value)
  | num {depth : Nat} {n : Int} (h : -0x8000_0000_0000_0000 ≤ n ∧ n < UInt64.size) :
      Fits depth (.num n)
  | str {depth : Nat} (text : String) : Fits depth (.str text)
  | arr {depth : Nat} {items : List Json} (h : ∀ item ∈ items, Fits depth item) :
      Fits (depth + 1) (.arr items)
  | obj {depth : Nat} {table : Table Json} (h : ∀ entry ∈ table.entries, Fits depth entry.2) :
      Fits (depth + 1) (.ofTable table)

theorem toItems?_itemSources {depth : Nat} {items : List Json}
    (h : ∀ item ∈ items, Source.toJson? depth (source item) = some item) :
    Source.toItems? depth (itemSources items) = some items := by
  induction items with
  | nil => rfl
  | cons item items ih =>
    obtain ⟨hitem, hitems⟩ := List.forall_mem_cons.mp h
    rw [itemSources, Source.toItems?, hitem, ih hitems]
    rfl

theorem toMembers?_memberSources {depth : Nat} {members : List (String × Json)}
    (h : ∀ member ∈ members, Source.toJson? depth (source member.2) = some member.2) :
    Source.toMembers? depth (memberSources members) = some members := by
  induction members with
  | nil => rfl
  | cons member members ih =>
    obtain ⟨hmember, hmembers⟩ := List.forall_mem_cons.mp h
    rw [memberSources, Source.toMembers?, text?_literalOf, hmember, ih hmembers]
    rfl

theorem toJson?_source {depth : Nat} {json : Json} (h : Fits depth json) :
    Source.toJson? depth (source json) = some json := by
  induction h with
  | null => simp [source, Source.toJson?]
  | bool value => simp [source, Source.toJson?]
  | num h =>
    rw [source, Source.toJson?, int?_numeralOf]
    exact if_pos h
  | str text => simp [source, Source.toJson?]
  | arr _ ih => rw [source, Source.toJson?, toItems?_itemSources ih]; rfl
  | @obj _ table _ ih =>
    rw [ofTable, source, Source.toJson?, toMembers?_memberSources ih, Option.map_some,
      Table.ofList_entries, ofTable]

theorem table?_source_of_fits {depth : Nat} {table : Table Json}
    (h : ∀ entry ∈ table.entries, Fits depth entry.2) :
    (source (.ofTable table)).table? (Source.toJson? depth) = some table := by
  rw [table?_eq_some_iff]
  refine ⟨memberSources table.entries, table.entries, rfl, ?_, (Table.ofList_entries table).symm⟩
  rw [memberSources_eq_map, List.forall₂_map_left_iff, List.forall₂_same]
  exact fun entry hentry => ⟨text?_literalOf _, toJson?_source (h entry hentry)⟩

end Decoding

end CatalogSync.Json

namespace CatalogSync.Record

/-- A record that the catalog can read again: its attributes are nested no deeper than it
follows. -/
def IsStorable (record : Record) : Prop :=
  ∀ entry ∈ record.attributes.entries, Json.Fits valueDepth entry.2

theorem id?_source (id : Option String) :
    id? (some (Json.source ((id.map Json.str).getD .null))) = some id := by
  cases id with
  | none => rfl
  | some id => simp [id?, Json.source, Json.Source.isNull, Json.Source.text?]

theorem decode?_encodePretty {record : Record} (h : record.IsStorable) :
    decode? record.encodePretty = some record := by
  have hfields : (Json.source record.toJson).fields? ["id", "attributes"] =
      some [some (Json.source ((record.id.map Json.str).getD .null)),
        some (Json.source (.ofTable record.attributes))] := by
    rw [toJson, Json.fields?_source_obj]
    rfl
  rw [decode?, encodePretty, Json.parse?_pretty, Option.bind_some, ofSource?, hfields]
  simp [id?_source, Json.table?_source_of_fits h]

end CatalogSync.Record
