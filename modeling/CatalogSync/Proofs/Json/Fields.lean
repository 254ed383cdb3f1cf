import CatalogSync.Json.Decode
import CatalogSync.Proofs.Json.RoundTrip
import CatalogSync.Proofs.Lists
import CatalogSync.Proofs.Table

namespace CatalogSync.Json

theorem memberSources_eq_map (members : List (String × Json)) :
    memberSources members =
      members.map fun member => (literalOf member.1, source member.2) := by
  induction members with
  | nil => rfl
  | cons member members ih => rw [memberSources, ih, List.map_cons]

theorem text?_source_str (text : String) : (source (.str text)).text? = some text :=
  text?_literalOf text

theorem below?_source_num {n bound : Nat} (h : n < bound) :
    (source (.num n)).below? bound = some n := by
  simp [source, Source.below?, Source.int?, h]

theorem int64?_source_num {n : Int}
    (h : -0x8000_0000_0000_0000 ≤ n ∧ n < 0x8000_0000_0000_0000) :
    (source (.num n)).int64? = some n := by
  simp [source, Source.int64?, Source.int?, h]

theorem members?_source_obj (members : List (String × Json)) :
    (source (.obj members)).members? =
      some (members.map fun member => (member.1, source member.2)) := by
  rw [source, Source.members?, memberSources_eq_map]
  exact mapM_map_eq_some (fun member => by simp) members

theorem fields?_source_obj (names : List String) (members : List (String × Json)) :
    (source (.obj members)).fields? names =
      names.mapM fun name =>
        Source.field? name (members.map fun member => (member.1, source member.2)) := by
  have h := members?_source_obj members
  simp only [source] at h ⊢
  rw [Source.fields?, h]
  rfl

theorem table?_source_ofTable {α : Type} {toJson : α → Json} {value? : Source → Option α}
    (h : ∀ value, value? (source (toJson value)) = some value) (table : Table α) :
    (source (.ofTable (table.map toJson))).table? value? = some table := by
  have hmembers := members?_source_obj (table.map toJson).entries
  rw [Table.map, List.map_map] at hmembers
  rw [ofTable, Source.table?, Table.map, hmembers]
  have hentries : (table.entries.map fun entry => (entry.1, source (toJson entry.2))).mapM
      (fun member => do return (member.1, ← value? member.2)) = some (table.entries.map id) :=
    mapM_map_eq_some (fun entry => by simp [h]) table.entries
  rw [List.map_id] at hentries
  refine (congrArg (fun read => read.bind fun entries => some (Table.ofList entries))
    hentries).trans ?_
  exact congrArg some (Table.ofList_entries table)

end CatalogSync.Json
