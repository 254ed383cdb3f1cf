import CatalogSync.Bytes
import CatalogSync.Table

namespace CatalogSync

structure BlobRow where
  namespaceName : String
  key : String
  value : Bytes
  deriving DecidableEq

/-- The rows in the order in which they were put in. -/
structure BlobTable where
  rows : List BlobRow
  /-- The namespace and the key of a row are its primary key. -/
  unique : (rows.map fun row => (row.namespaceName, row.key)).Nodup

namespace BlobTable

def empty : BlobTable := ⟨[], List.nodup_nil⟩

instance : Inhabited BlobTable := ⟨empty⟩

/-- Whether a row is the one with a primary key. -/
def isRow (namespaceName key : String) (row : BlobRow) : Bool :=
  row.namespaceName = namespaceName ∧ row.key = key

/-- The rows that are left when the one with a primary key is taken out. -/
def others (table : BlobTable) (namespaceName key : String) : List BlobRow :=
  table.rows.filter fun row => !isRow namespaceName key row

theorem nodup_others (table : BlobTable) (namespaceName key : String) :
    ((table.others namespaceName key).map fun row => (row.namespaceName, row.key)).Nodup :=
  table.unique.sublist (List.filter_sublist.map _)

theorem notMem_others (table : BlobTable) (namespaceName key : String) :
    (namespaceName, key) ∉
      (table.others namespaceName key).map fun row => (row.namespaceName, row.key) := by
  intro hmem
  obtain ⟨row, hrow, hkey⟩ := List.mem_map.mp hmem
  have hother : isRow namespaceName key row = false := by
    simpa using (List.mem_filter.mp hrow).2
  simp [isRow, Prod.mk.inj hkey] at hother

/-- Puts a row in; one that has its primary key makes room for it. -/
def replace (row : BlobRow) (table : BlobTable) : BlobTable where
  rows := table.others row.namespaceName row.key ++ [row]
  unique := by
    rw [List.map_append, List.nodup_append]
    refine ⟨nodup_others table _ _, by simp, ?_⟩
    rintro _ hold _ hnew rfl
    rw [List.mem_singleton.mp hnew] at hold
    exact notMem_others table _ _ hold

/-- The value of the row with a primary key. -/
def value? (table : BlobTable) (namespaceName key : String) : Option Bytes :=
  (table.rows.find? (isRow namespaceName key)).map BlobRow.value

/-- Takes the row with a primary key out; the answer is how many rows that were. -/
def remove (namespaceName key : String) (table : BlobTable) : Nat × BlobTable :=
  (table.rows.countP (isRow namespaceName key),
    ⟨table.others namespaceName key, nodup_others table namespaceName key⟩)

/-- The keys in a namespace, in the order of the rows. -/
def keysIn (table : BlobTable) (namespaceName : String) : List String :=
  (table.rows.filter fun row => row.namespaceName = namespaceName).map BlobRow.key

end BlobTable

end CatalogSync
