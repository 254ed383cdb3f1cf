import CatalogSync.Table
import Mathlib.Data.List.Nodup
import Mathlib.Data.List.Perm.Basic

namespace CatalogSync.Table

variable {α β : Type}

theorem lookupEntry_eq_some_iff {entries : List (String × α)} (h : Ascending entries) (key : String)
    (value : α) : lookupEntry key entries = some value ↔ (key, value) ∈ entries := by
  induction entries with
  | nil => simp [lookupEntry]
  | cons first rest ih =>
    obtain ⟨hfirst, hrest⟩ := List.pairwise_cons.mp h
    by_cases hkey : first.1 = key
    · subst hkey
      simp only [lookupEntry, if_true, List.mem_cons, Option.some.injEq]
      constructor
      · rintro rfl
        exact Or.inl rfl
      · rintro (hentry | hentry)
        · rw [← hentry]
        · have hbefore := hfirst _ hentry
          rw [Text.before_irrefl] at hbefore
          cases hbefore
    · simp only [lookupEntry, hkey, if_false, ih hrest, List.mem_cons]
      constructor
      · exact Or.inr
      · rintro (hentry | hentry)
        · exact absurd (congrArg Prod.fst hentry).symm hkey
        · exact hentry

theorem get?_eq_some_iff (table : Table α) (key : String) (value : α) :
    table.get? key = some value ↔ (key, value) ∈ table.entries :=
  lookupEntry_eq_some_iff table.ascending key value

theorem mem_keys_iff (table : Table α) (key : String) :
    key ∈ table.keys ↔ ∃ value, table.get? key = some value := by
  simp only [keys, List.mem_map, get?_eq_some_iff]
  constructor
  · rintro ⟨entry, hentry, rfl⟩
    exact ⟨entry.2, hentry⟩
  · rintro ⟨value, hentry⟩
    exact ⟨(key, value), hentry, rfl⟩

theorem contains_eq_true_iff (table : Table α) (key : String) :
    table.contains key = true ↔ key ∈ table.keys := by
  rw [contains, Option.isSome_iff_exists, mem_keys_iff]

theorem keys_pairwise (table : Table α) :
    table.keys.Pairwise fun a b => Text.before a b = true :=
  List.pairwise_map.mpr table.ascending

theorem nodup_keys (table : Table α) : table.keys.Nodup := by
  refine table.keys_pairwise.imp ?_
  rintro a b hbefore rfl
  rw [Text.before_irrefl] at hbefore
  cases hbefore

theorem length_keys (table : Table α) : table.keys.length = table.size :=
  List.length_map ..

theorem ext_get? {a b : Table α} (h : ∀ key, a.get? key = b.get? key) : a = b := by
  have hmem : ∀ entry, entry ∈ a.entries ↔ entry ∈ b.entries := by
    rintro ⟨key, value⟩
    rw [← get?_eq_some_iff, ← get?_eq_some_iff, h]
  have hperm : a.entries.Perm b.entries :=
    (List.perm_ext_iff_of_nodup (List.Nodup.of_map Prod.fst a.nodup_keys)
      (List.Nodup.of_map Prod.fst b.nodup_keys)).mpr hmem
  refine ext_entries (hperm.eq_of_pairwise ?_ a.ascending b.ascending)
  intro x y _ _ hxy hyx
  rw [Text.before_asymm hxy] at hyx
  cases hyx

theorem insertEntry_of_last {entries : List (String × α)} {key : String} (value : α)
    (h : ∀ entry ∈ entries, Text.before entry.1 key = true) :
    insertEntry key value entries = entries ++ [(key, value)] := by
  induction entries with
  | nil => rfl
  | cons first rest ih =>
    have hfirst := h first (by simp)
    have hne : first.1 ≠ key := by
      rintro rfl
      rw [Text.before_irrefl] at hfirst
      cases hfirst
    simp only [insertEntry, hne, if_false, Text.before_asymm hfirst, Bool.false_eq_true]
    rw [ih fun entry hentry => h entry (by simp [hentry])]
    rfl

theorem entries_foldl_insert (table : Table α) (entries : List (String × α))
    (h : Ascending (table.entries ++ entries)) :
    (entries.foldl (fun table entry => table.insert entry.1 entry.2) table).entries =
      table.entries ++ entries := by
  induction entries generalizing table with
  | nil => simp
  | cons first rest ih =>
    have hlast : ∀ entry ∈ table.entries, Text.before entry.1 first.1 = true := by
      intro entry hentry
      exact (List.pairwise_append.mp h).2.2 entry hentry first (by simp)
    have hinsert : (table.insert first.1 first.2).entries = table.entries ++ [first] :=
      insertEntry_of_last first.2 hlast
    have happend : table.entries ++ first :: rest = table.entries ++ [first] ++ rest := by simp
    rw [List.foldl_cons, ih _ (by rw [hinsert, ← happend]; exact h), hinsert, ← happend]

theorem ofList_entries (table : Table α) : ofList table.entries = table :=
  ext_entries (entries_foldl_insert empty table.entries table.ascending)

theorem contains_foldl_insert (table : Table α) (entries : List (String × α)) (key : String) :
    (entries.foldl (fun table entry => table.insert entry.1 entry.2) table).contains key = true ↔
      table.contains key = true ∨ ∃ entry ∈ entries, entry.1 = key := by
  induction entries generalizing table with
  | nil => simp
  | cons first rest ih =>
    rw [List.foldl_cons, ih]
    simp only [contains, get?_insert, List.exists_mem_cons_iff]
    by_cases hkey : key = first.1
    · simp [hkey]
    · simp [hkey, Ne.symm hkey]

theorem contains_ofList (entries : List (String × α)) (key : String) :
    (ofList entries).contains key = true ↔ ∃ entry ∈ entries, entry.1 = key := by
  rw [ofList, contains_foldl_insert]
  simp [contains]

theorem get?_foldl_insert (table : Table α) (entries : List (String × α)) (key : String) :
    (entries.foldl (fun table entry => table.insert entry.1 entry.2) table).get? key =
      ((entries.reverse.find? fun entry => entry.1 = key).map Prod.snd).or (table.get? key) := by
  induction entries generalizing table with
  | nil => simp
  | cons first rest ih =>
    rw [List.foldl_cons, ih, get?_insert, List.reverse_cons, List.find?_append]
    cases rest.reverse.find? fun entry => entry.1 = key with
    | some entry => simp
    | none =>
      by_cases hkey : key = first.1
      · simp [hkey]
      · simp [hkey, Ne.symm hkey]

theorem get?_ofList (entries : List (String × α)) (key : String) :
    (ofList entries).get? key =
      (entries.reverse.find? fun entry => entry.1 = key).map Prod.snd := by
  rw [ofList, get?_foldl_insert, get?_empty, Option.or_none]

theorem get?_map (f : α → β) (table : Table α) (key : String) :
    (table.map f).get? key = (table.get? key).map f := by
  simp only [get?, map]
  induction table.entries with
  | nil => rfl
  | cons first rest ih =>
    by_cases hkey : first.1 = key
    · simp [lookupEntry, hkey]
    · simp [lookupEntry, hkey, ih]

theorem get?_ofList_eq_some_iff {entries : List (String × α)} (h : (entries.map Prod.fst).Nodup)
    (key : String) (value : α) :
    (ofList entries).get? key = some value ↔ (key, value) ∈ entries := by
  rw [get?_ofList]
  constructor
  · intro hfound
    obtain ⟨entry, hentry, rfl⟩ := Option.map_eq_some_iff.mp hfound
    have hkey : entry.1 = key := by simpa using List.find?_some hentry
    rw [← hkey]
    exact List.mem_reverse.mp (List.mem_of_find?_eq_some hentry)
  · intro hmem
    have hsome : (entries.reverse.find? fun entry => entry.1 = key).isSome := by
      rw [List.find?_isSome]
      exact ⟨(key, value), List.mem_reverse.mpr hmem, by simp⟩
    obtain ⟨entry, hentry⟩ := Option.isSome_iff_exists.mp hsome
    have hkey : entry.1 = key := by simpa using List.find?_some hentry
    have hsame : entry = (key, value) := List.inj_on_of_nodup_map h
      (List.mem_reverse.mp (List.mem_of_find?_eq_some hentry)) hmem hkey
    rw [hentry, hsame]
    rfl

end CatalogSync.Table
