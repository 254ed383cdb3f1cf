import CatalogSync.Text.Order

namespace CatalogSync

/-- Keys of a list of entries ascend strictly. -/
def Ascending {α : Type} (entries : List (String × α)) : Prop :=
  entries.Pairwise fun a b => Text.before a.1 b.1 = true

/-- A finite map with its entries in ascending order of the keys. -/
structure Table (α : Type) where
  entries : List (String × α)
  ascending : Ascending entries

namespace Table

variable {α β : Type}

theorem ext_entries {a b : Table α} (h : a.entries = b.entries) : a = b := by
  cases a
  cases b
  cases h
  rfl

instance [DecidableEq α] : DecidableEq (Table α) := fun a b =>
  if h : a.entries = b.entries then isTrue (ext_entries h)
  else isFalse fun hab => h (congrArg entries hab)

def empty : Table α :=
  ⟨[], List.Pairwise.nil⟩

instance : Inhabited (Table α) := ⟨empty⟩

/-- The value of the first entry with the given key. -/
def lookupEntry (key : String) : List (String × α) → Option α
  | [] => none
  | entry :: rest => if entry.1 = key then some entry.2 else lookupEntry key rest

def get? (table : Table α) (key : String) : Option α :=
  lookupEntry key table.entries

def contains (table : Table α) (key : String) : Bool :=
  (table.get? key).isSome

/-- The keys in ascending order. -/
def keys (table : Table α) : List String :=
  table.entries.map Prod.fst

def size (table : Table α) : Nat :=
  table.entries.length

def isEmpty (table : Table α) : Bool :=
  table.entries.isEmpty

/-- Puts an entry at its place among ascending entries, in the place of one with the same key. -/
def insertEntry (key : String) (value : α) : List (String × α) → List (String × α)
  | [] => [(key, value)]
  | entry :: rest =>
    if entry.1 = key then (key, value) :: rest
    else if Text.before key entry.1 then (key, value) :: entry :: rest
    else entry :: insertEntry key value rest

theorem mem_insertEntry {key : String} {value : α} {entries : List (String × α)}
    {entry : String × α} (h : entry ∈ insertEntry key value entries) :
    entry = (key, value) ∨ entry ∈ entries := by
  induction entries with
  | nil => simpa [insertEntry] using h
  | cons first rest ih =>
    simp only [insertEntry] at h
    split at h
    · rcases List.mem_cons.mp h with h | h
      · exact Or.inl h
      · exact Or.inr (List.mem_cons_of_mem _ h)
    · split at h
      · rcases List.mem_cons.mp h with h | h
        · exact Or.inl h
        · exact Or.inr h
      · rcases List.mem_cons.mp h with h | h
        · exact Or.inr (h ▸ List.mem_cons_self)
        · rcases ih h with h | h
          · exact Or.inl h
          · exact Or.inr (List.mem_cons_of_mem _ h)

theorem ascending_insertEntry (key : String) (value : α) {entries : List (String × α)}
    (h : Ascending entries) : Ascending (insertEntry key value entries) := by
  induction entries with
  | nil => exact List.pairwise_singleton _ _
  | cons first rest ih =>
    have hfirst := (List.pairwise_cons.mp h).1
    have hrest := (List.pairwise_cons.mp h).2
    simp only [insertEntry]
    split
    · rename_i hkey
      subst hkey
      exact List.pairwise_cons.mpr ⟨hfirst, hrest⟩
    · split
      · rename_i hbefore
        refine List.pairwise_cons.mpr ⟨?_, h⟩
        intro entry hentry
        rcases List.mem_cons.mp hentry with rfl | hentry
        · exact hbefore
        · exact Text.before_trans hbefore (hfirst entry hentry)
      · rename_i hne hbefore
        refine List.pairwise_cons.mpr ⟨?_, ih hrest⟩
        intro entry hentry
        rcases mem_insertEntry hentry with rfl | hentry
        · cases hlt : Text.before first.1 key with
          | true => rfl
          | false =>
            exact absurd (Text.eq_of_not_before hlt (by simpa using hbefore)) hne
        · exact hfirst entry hentry

def insert (table : Table α) (key : String) (value : α) : Table α :=
  ⟨insertEntry key value table.entries, ascending_insertEntry key value table.ascending⟩

def erase (table : Table α) (key : String) : Table α :=
  ⟨table.entries.filter fun entry => entry.1 ≠ key, table.ascending.filter _⟩

/-- The table of a list of entries; of several entries with one key the last counts. -/
def ofList (entries : List (String × α)) : Table α :=
  entries.foldl (fun table entry => table.insert entry.1 entry.2) empty

/-- The same keys with every value changed by `f`. -/
def map (f : α → β) (table : Table α) : Table β :=
  ⟨table.entries.map fun entry => (entry.1, f entry.2), by
    unfold Ascending
    rw [List.pairwise_map]
    exact table.ascending⟩

@[simp] theorem get?_empty (key : String) : (empty : Table α).get? key = none := rfl

theorem lookupEntry_insertEntry (key key' : String) (value : α) (entries : List (String × α)) :
    lookupEntry key' (insertEntry key value entries) =
      if key' = key then some value else lookupEntry key' entries := by
  induction entries with
  | nil => simp [insertEntry, lookupEntry, eq_comm]
  | cons first rest ih =>
    simp only [insertEntry]
    split
    · rename_i hk
      subst hk
      by_cases h : first.1 = key'
      · simp [lookupEntry, h]
      · simp [lookupEntry, h, Ne.symm h]
    · split
      · by_cases h : key = key'
        · simp [lookupEntry, h]
        · simp [lookupEntry, h, Ne.symm h]
      · by_cases h : first.1 = key'
        · simp_all [lookupEntry]
        · simp_all [lookupEntry]

theorem get?_insert (table : Table α) (key key' : String) (value : α) :
    (table.insert key value).get? key' = if key' = key then some value else table.get? key' :=
  lookupEntry_insertEntry key key' value table.entries

theorem get?_erase (table : Table α) (key key' : String) :
    (table.erase key).get? key' = if key' = key then none else table.get? key' := by
  simp only [get?, erase]
  induction table.entries with
  | nil => simp [lookupEntry]
  | cons first rest ih =>
    by_cases hk : first.1 = key
    · subst hk
      simp only [ne_eq, not_true_eq_false, decide_false, Bool.false_eq_true, not_false_eq_true,
        List.filter_cons_of_neg, lookupEntry]
      rw [ih]
      by_cases h : key' = first.1
      · simp [h]
      · simp [h, Ne.symm h]
    · rw [List.filter_cons_of_pos (by simpa using hk)]
      simp only [lookupEntry]
      rw [ih]
      by_cases h : first.1 = key'
      · subst h
        simp [hk]
      · simp [h]

end Table

end CatalogSync
