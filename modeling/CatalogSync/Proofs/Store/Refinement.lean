import CatalogSync.Proofs.Table
import CatalogSync.Store.Memory
import CatalogSync.Store.Database
import Mathlib.Logic.Function.Basic

namespace CatalogSync

namespace BlobTable

variable (table : BlobTable) (namespaceName key : String)

theorem isRow_iff (row : BlobRow) :
    isRow namespaceName key row = true ↔ row.namespaceName = namespaceName ∧ row.key = key := by
  simp [isRow]

theorem mem_others_iff (row : BlobRow) :
    row ∈ table.others namespaceName key ↔
      row ∈ table.rows ∧ ¬(row.namespaceName = namespaceName ∧ row.key = key) := by
  rw [others, List.mem_filter, Bool.not_eq_true', ← Bool.not_eq_true, isRow_iff]

theorem mem_replace_iff (new row : BlobRow) :
    row ∈ (table.replace new).rows ↔
      row = new ∨
        row ∈ table.rows ∧ ¬(row.namespaceName = new.namespaceName ∧ row.key = new.key) := by
  rw [replace, List.mem_append, List.mem_singleton, mem_others_iff, or_comm]

theorem mem_remove_iff (row : BlobRow) :
    row ∈ (table.remove namespaceName key).2.rows ↔
      row ∈ table.rows ∧ ¬(row.namespaceName = namespaceName ∧ row.key = key) :=
  table.mem_others_iff namespaceName key row

theorem value?_eq_some_iff (value : Bytes) :
    table.value? namespaceName key = some value ↔ ⟨namespaceName, key, value⟩ ∈ table.rows := by
  constructor
  · intro hfound
    obtain ⟨row, hrow, rfl⟩ := Option.map_eq_some_iff.mp hfound
    obtain ⟨rfl, rfl⟩ := (isRow_iff _ _ row).mp (List.find?_some hrow)
    exact List.mem_of_find?_eq_some hrow
  · intro hmem
    have hsome : (table.rows.find? (isRow namespaceName key)).isSome := by
      rw [List.find?_isSome]
      exact ⟨_, hmem, (isRow_iff _ _ _).mpr ⟨rfl, rfl⟩⟩
    obtain ⟨row, hrow⟩ := Option.isSome_iff_exists.mp hsome
    obtain ⟨hspace, hkey⟩ := (isRow_iff _ _ row).mp (List.find?_some hrow)
    have hsame : row = ⟨namespaceName, key, value⟩ := List.inj_on_of_nodup_map table.unique
      (List.mem_of_find?_eq_some hrow) hmem (by simp [hspace, hkey])
    rw [value?, hrow, hsame]
    rfl

theorem value?_replace (new : BlobRow) :
    (table.replace new).value? namespaceName key =
      if namespaceName = new.namespaceName ∧ key = new.key then some new.value
      else table.value? namespaceName key := by
  ext value
  rw [value?_eq_some_iff, mem_replace_iff]
  split
  · rename_i hrow
    obtain ⟨rfl, rfl⟩ := hrow
    cases new
    simp [eq_comm]
  · rename_i hrow
    rw [value?_eq_some_iff]
    constructor
    · rintro (rfl | hold)
      · exact absurd ⟨rfl, rfl⟩ hrow
      · exact hold.1
    · exact fun hold => Or.inr ⟨hold, hrow⟩

theorem value?_remove (namespaceName' key' : String) :
    (table.remove namespaceName key).2.value? namespaceName' key' =
      if namespaceName' = namespaceName ∧ key' = key then none
      else table.value? namespaceName' key' := by
  ext value
  rw [value?_eq_some_iff, mem_remove_iff]
  split
  · rename_i hrow
    simp [hrow]
  · rename_i hrow
    rw [value?_eq_some_iff, and_iff_left hrow]

theorem value?_isSome_iff :
    (table.value? namespaceName key).isSome ↔
      ∃ row ∈ table.rows, row.namespaceName = namespaceName ∧ row.key = key := by
  simp only [value?, Option.isSome_map, List.find?_isSome, isRow_iff]

theorem remove_fst_pos_iff :
    0 < (table.remove namespaceName key).1 ↔ (table.value? namespaceName key).isSome := by
  rw [value?_isSome_iff, remove, List.countP_pos_iff]
  simp only [isRow_iff]

theorem mem_keysIn_iff : key ∈ table.keysIn namespaceName ↔
    (table.value? namespaceName key).isSome := by
  simp [value?_isSome_iff, keysIn, and_assoc]

end BlobTable

/-- What can be asked of a store. -/
inductive StoreCall where
  | store (key : String) (blob : Bytes)
  | load (key : String)
  | delete (key : String)
  | keys

inductive StoreReply where
  | stored (result : Except StoreError Unit)
  | loaded (result : Except StoreError (Option Bytes))
  | deleted (result : Except StoreError Bool)
  | listed (result : Except StoreError (List String))

def BlobStore.serve {σ : Type} (store : BlobStore σ) : StoreCall → StateM σ StoreReply
  | .store key blob => StoreReply.stored <$> store.store key blob
  | .load key => StoreReply.loaded <$> store.load key
  | .delete key => StoreReply.deleted <$> store.delete key
  | .keys => StoreReply.listed <$> store.keys

theorem BlobStore.serve_over {σ s : Type} (part : Part σ s) (store : BlobStore s)
    (call : StoreCall) : (store.over part).serve call = part.lift (store.serve call) := by
  cases call <;> rfl

namespace Database

/-- What a database holds in a namespace, as a store in memory. -/
def memoryIn (database : Database) (namespaceName : String) : MemoryStore where
  blobs := Table.ofList
    ((database.blobs.rows.filter fun row => row.namespaceName = namespaceName).map fun row =>
      (row.key, row.value))
  failsWrites := false

variable (database : Database) (namespaceName : String)

theorem nodup_keysIn : (database.blobs.keysIn namespaceName).Nodup := by
  have hpairs : (database.blobs.keysIn namespaceName).map (fun key => (namespaceName, key)) =
      (database.blobs.rows.filter fun row => row.namespaceName = namespaceName).map
        fun row => (row.namespaceName, row.key) := by
    rw [BlobTable.keysIn, List.map_map]
    refine List.map_congr_left fun row hrow => ?_
    rw [Function.comp_apply, of_decide_eq_true (List.mem_filter.mp hrow).2]
  refine List.Nodup.of_map (fun key => (namespaceName, key)) ?_
  rw [hpairs]
  exact database.blobs.unique.sublist (List.filter_sublist.map _)

theorem get?_memoryIn (key : String) :
    (database.memoryIn namespaceName).blobs.get? key =
      database.blobs.value? namespaceName key := by
  have hnodup : (((database.blobs.rows.filter fun row => row.namespaceName = namespaceName).map
      fun row => (row.key, row.value)).map Prod.fst).Nodup := by
    rw [List.map_map]
    exact database.nodup_keysIn namespaceName
  ext value
  rw [memoryIn, Table.get?_ofList_eq_some_iff hnodup, BlobTable.value?_eq_some_iff]
  constructor
  · intro hmem
    obtain ⟨row, hrow, hentry⟩ := List.mem_map.mp hmem
    obtain ⟨rfl, rfl⟩ := Prod.mk.inj hentry
    obtain ⟨hrow, hspace⟩ := List.mem_filter.mp hrow
    rw [← of_decide_eq_true hspace]
    exact hrow
  · intro hrow
    exact List.mem_map.mpr ⟨_, List.mem_filter.mpr ⟨hrow, by simp⟩, rfl⟩

theorem memoryIn_eq_iff (store : MemoryStore) :
    database.memoryIn namespaceName = store ↔
      store.failsWrites = false ∧
        ∀ key, database.blobs.value? namespaceName key = store.blobs.get? key := by
  constructor
  · rintro rfl
    exact ⟨rfl, fun key => (database.get?_memoryIn namespaceName key).symm⟩
  · rintro ⟨hwrites, hvalues⟩
    have hblobs : (database.memoryIn namespaceName).blobs = store.blobs := by
      refine Table.ext_get? fun key => ?_
      rw [get?_memoryIn, hvalues]
    cases store
    cases hblobs
    cases hwrites
    rfl

theorem keys_memoryIn :
    (database.memoryIn namespaceName).blobs.keys =
      (Table.ofList ((database.blobs.keysIn namespaceName).map fun key => (key, ()))).keys := by
  have hsame : (database.memoryIn namespaceName).blobs.map (fun _ => ()) =
      Table.ofList ((database.blobs.keysIn namespaceName).map fun key => (key, ())) := by
    refine Table.ext_get? fun key => Option.ext fun _ => ?_
    rw [Table.get?_ofList_eq_some_iff
      (by simpa [Function.comp_def] using database.nodup_keysIn namespaceName)]
    simp [Table.get?_map, get?_memoryIn, BlobTable.mem_keysIn_iff, Option.isSome_iff_exists]
  rw [← hsame]
  simp [Table.keys, Table.map, Function.comp_def]

theorem memoryIn_eq_update {changed : Database} {blobs : Table Bytes}
    (hhere : ∀ key, changed.blobs.value? namespaceName key = blobs.get? key)
    (hothers : ∀ other key, other ≠ namespaceName →
      changed.blobs.value? other key = database.blobs.value? other key) :
    changed.memoryIn = Function.update database.memoryIn namespaceName ⟨blobs, false⟩ := by
  funext other
  rw [memoryIn_eq_iff]
  by_cases hother : other = namespaceName
  · subst hother
    rw [Function.update_self]
    exact ⟨rfl, hhere⟩
  · rw [Function.update_of_ne hother]
    exact ⟨rfl, fun key => by rw [hothers other key hother, get?_memoryIn]⟩

theorem memoryIn_replace (key : String) (blob : Bytes) :
    memoryIn { database with blobs := database.blobs.replace ⟨namespaceName, key, blob⟩ } =
      Function.update database.memoryIn namespaceName
        ⟨(database.memoryIn namespaceName).blobs.insert key blob, false⟩ := by
  apply memoryIn_eq_update
  · intro key'
    simp only [BlobTable.value?_replace, Table.get?_insert, get?_memoryIn, true_and]
  · intro other key' hother
    simp only [BlobTable.value?_replace, hother, false_and, if_false]

theorem memoryIn_remove (key : String) :
    memoryIn { database with blobs := (database.blobs.remove namespaceName key).2 } =
      Function.update database.memoryIn namespaceName
        ⟨(database.memoryIn namespaceName).blobs.erase key, false⟩ := by
  apply memoryIn_eq_update
  · intro key'
    simp only [BlobTable.value?_remove, Table.get?_erase, get?_memoryIn, true_and]
  · intro other key' hother
    simp only [BlobTable.value?_remove, hother, false_and, if_false]

/-- A call of the store confined to a namespace is a call of the store in memory that stands for the
namespace, and no other namespace takes part in it. -/
theorem serve_blobStore (call : StoreCall) :
    ((blobStore namespaceName).serve call database).1 =
        (MemoryStore.blobStore.serve call (database.memoryIn namespaceName)).1 ∧
      ((blobStore namespaceName).serve call database).2.memoryIn =
        Function.update database.memoryIn namespaceName
          (MemoryStore.blobStore.serve call (database.memoryIn namespaceName)).2 := by
  cases call with
  | store key blob => exact ⟨rfl, database.memoryIn_replace namespaceName key blob⟩
  | load key =>
    refine ⟨?_, (Function.update_eq_self namespaceName _).symm⟩
    exact congrArg (StoreReply.loaded ∘ Except.ok) (database.get?_memoryIn namespaceName key).symm
  | delete key =>
    refine ⟨?_, database.memoryIn_remove namespaceName key⟩
    have hcount : decide (0 < (database.blobs.remove namespaceName key).1) =
        (database.memoryIn namespaceName).blobs.contains key := by
      rw [Table.contains, get?_memoryIn, Bool.eq_iff_iff, decide_eq_true_eq,
        BlobTable.remove_fst_pos_iff]
    exact congrArg (StoreReply.deleted ∘ Except.ok) hcount
  | keys =>
    refine ⟨?_, (Function.update_eq_self namespaceName _).symm⟩
    exact congrArg (StoreReply.listed ∘ Except.ok) (database.keys_memoryIn namespaceName).symm

end Database

end CatalogSync
