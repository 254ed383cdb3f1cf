import CatalogSync.Changes
import CatalogSync.Proofs.Table

namespace CatalogSync

namespace Snapshot

theorem ext_table {a b : Snapshot} (h : a.table = b.table) : a = b := by
  cases a
  cases b
  cases h
  rfl

theorem ext_get? {a b : Snapshot} (h : ∀ path, a.get? path = b.get? path) : a = b :=
  ext_table (Table.ext_get? h)

theorem mem_paths_iff (snapshot : Snapshot) (path : String) :
    path ∈ snapshot.paths ↔ ∃ fingerprint, snapshot.get? path = some fingerprint :=
  Table.mem_keys_iff snapshot.table path

theorem contains_eq_true_iff (snapshot : Snapshot) (path : String) :
    snapshot.contains path = true ↔ path ∈ snapshot.paths :=
  Table.contains_eq_true_iff snapshot.table path

theorem mem_paths_ofListing (listing : List ListingEntry) (path : String) :
    path ∈ (ofListing listing).paths ↔ ∃ entry ∈ listing, entry.path = path := by
  rw [← contains_eq_true_iff]
  refine (Table.contains_ofList _ path).trans ?_
  simp

end Snapshot

@[simp] theorem next_diff (previous : Option Snapshot) (listing : List ListingEntry) :
    (diff previous listing).next = Snapshot.ofListing listing := by
  cases previous <;> rfl

/-- The change of a path from one view to the next, each of which may hold a fingerprint of it. -/
def changeKind? : Option Fingerprint → Option Fingerprint → Option ChangeKind
  | none, none => none
  | none, some _ => some .created
  | some _, none => some .deleted
  | some before, some after => if after = before then none else some .modified

section ChangeKind

variable {before after : Option Fingerprint}

theorem changeKind?_eq_none_iff : changeKind? before after = none ↔ before = after := by
  cases before with
  | none => cases after <;> simp [changeKind?]
  | some before =>
    cases after with
    | none => simp [changeKind?]
    | some after => simp [changeKind?, eq_comm]

theorem changeKind?_eq_created_iff :
    changeKind? before after = some .created ↔ before = none ∧ after ≠ none := by
  cases before <;> cases after <;> simp [changeKind?]

theorem changeKind?_eq_deleted_iff :
    changeKind? before after = some .deleted ↔ before ≠ none ∧ after = none := by
  cases before <;> cases after <;> simp [changeKind?]

theorem changeKind?_eq_modified_iff :
    changeKind? before after = some .modified ↔
      before ≠ none ∧ after ≠ none ∧ before ≠ after := by
  cases before with
  | none => cases after <;> simp [changeKind?]
  | some before =>
    cases after with
    | none => simp [changeKind?]
    | some after => simp [changeKind?, eq_comm]

end ChangeKind

theorem seen_of_changeKind? {before after : Option Fingerprint} {kind : ChangeKind}
    (h : changeKind? before after = some kind) :
    (before ≠ none ∨ after ≠ none) ∧
      (kind ≠ .deleted → ∃ fingerprint, after = some fingerprint) := by
  cases before with
  | none =>
    cases after with
    | none => cases h
    | some after => exact ⟨Or.inr (Option.some_ne_none after), fun _ => ⟨after, rfl⟩⟩
  | some before =>
    refine ⟨Or.inl (Option.some_ne_none before), fun hkind => ?_⟩
    cases after with
    | none =>
      cases h
      exact absurd rfl hkind
    | some after => exact ⟨after, rfl⟩

/-- What is known of a path before a first poll is nothing. -/
def fingerprint? (previous : Option Snapshot) (path : String) : Option Fingerprint :=
  previous.bind fun snapshot => snapshot.get? path

theorem fst_eq_of_changeOf?_eq_some {previous next : Snapshot} {path : String} {change : Change}
    (h : changeOf? previous next path = some change) : change.path = path := by
  unfold changeOf? at h
  split at h
  · cases h
    rfl
  · split at h
    · cases h
    · cases h
      rfl

theorem changeOf?_eq_some_iff {previous next : Snapshot} {path : String} {kind : ChangeKind}
    (hpath : path ∈ next.paths) :
    changeOf? previous next path = some ⟨kind, path⟩ ↔
      changeKind? (previous.get? path) (next.get? path) = some kind := by
  obtain ⟨after, hafter⟩ := (Snapshot.mem_paths_iff next path).mp hpath
  cases hbefore : previous.get? path with
  | none => simp [changeOf?, hbefore, hafter, changeKind?]
  | some before =>
    by_cases heq : after = before
    · simp [changeOf?, hbefore, hafter, changeKind?, heq]
    · simp [changeOf?, hbefore, hafter, changeKind?, heq]

theorem get?_eq_none_of_not_mem {snapshot : Snapshot} {path : String}
    (h : path ∉ snapshot.paths) : snapshot.get? path = none := by
  cases hget : snapshot.get? path with
  | none => rfl
  | some fingerprint => exact absurd ((Snapshot.mem_paths_iff snapshot path).mpr ⟨_, hget⟩) h

theorem mem_deleted_iff (previous next : Snapshot) (change : Change) :
    change ∈ ((previous.paths.filter fun path => !next.contains path).map
        fun path => (⟨.deleted, path⟩ : Change)) ↔
      change.kind = .deleted ∧ change.path ∈ previous.paths ∧ change.path ∉ next.paths := by
  obtain ⟨kind, path⟩ := change
  simp only [List.mem_map, List.mem_filter, Bool.not_eq_true', Change.mk.injEq,
    ← Snapshot.contains_eq_true_iff next, Bool.not_eq_true]
  constructor
  · rintro ⟨_, ⟨hprevious, hnext⟩, rfl, rfl⟩
    exact ⟨rfl, hprevious, hnext⟩
  · rintro ⟨rfl, hprevious, hnext⟩
    exact ⟨path, ⟨hprevious, hnext⟩, rfl, rfl⟩

theorem mem_filterMap_changeOf?_iff (previous next : Snapshot) (change : Change) :
    change ∈ next.paths.filterMap (changeOf? previous next) ↔
      change.path ∈ next.paths ∧
        changeKind? (previous.get? change.path) (next.get? change.path) = some change.kind := by
  rw [List.mem_filterMap]
  constructor
  · rintro ⟨path, hpath, hchange⟩
    obtain rfl := fst_eq_of_changeOf?_eq_some hchange
    exact ⟨hpath, (changeOf?_eq_some_iff hpath).mp hchange⟩
  · rintro ⟨hpath, hkind⟩
    exact ⟨change.path, hpath, (changeOf?_eq_some_iff hpath).mpr hkind⟩

theorem mem_diff_iff (previous : Option Snapshot) (listing : List ListingEntry) (change : Change) :
    change ∈ (diff previous listing).changes ↔
      changeKind? (fingerprint? previous change.path)
        ((Snapshot.ofListing listing).get? change.path) = some change.kind := by
  cases previous with
  | none =>
    obtain ⟨kind, path⟩ := change
    simp only [diff, fingerprint?, Option.bind_none, List.mem_map, Change.mk.injEq,
      Snapshot.mem_paths_iff]
    constructor
    · rintro ⟨_, ⟨after, hafter⟩, rfl, rfl⟩
      rw [hafter]
      rfl
    · intro h
      cases hafter : (Snapshot.ofListing listing).get? path with
      | none => simp [hafter, changeKind?] at h
      | some after =>
        rw [hafter] at h
        cases h
        exact ⟨path, ⟨after, hafter⟩, rfl, rfl⟩
  | some previous =>
    simp only [diff, List.mem_append, mem_deleted_iff, mem_filterMap_changeOf?_iff, fingerprint?,
      Option.bind_some]
    by_cases hpath : change.path ∈ (Snapshot.ofListing listing).paths
    · simp [hpath]
    · rw [get?_eq_none_of_not_mem hpath, Snapshot.mem_paths_iff]
      cases previous.get? change.path with
      | none => simp [changeKind?]
      | some before => simp [hpath, changeKind?, eq_comm]

theorem map_path_filterMap_changeOf? (previous next : Snapshot) (paths : List String) :
    (paths.filterMap (changeOf? previous next)).map Change.path =
      paths.filter fun path => (changeOf? previous next path).isSome := by
  induction paths with
  | nil => rfl
  | cons path paths ih =>
    cases hchange : changeOf? previous next path with
    | none => simpa [hchange] using ih
    | some change => simp [hchange, ih, fst_eq_of_changeOf?_eq_some hchange]

theorem map_path_map_mk (kind : ChangeKind) (paths : List String) :
    (paths.map fun path => (⟨kind, path⟩ : Change)).map Change.path = paths := by
  rw [List.map_map]
  exact List.map_id paths

theorem nodup_paths_diff (previous : Option Snapshot) (listing : List ListingEntry) :
    ((diff previous listing).changes.map Change.path).Nodup := by
  cases previous with
  | none =>
    rw [diff, map_path_map_mk]
    exact Table.nodup_keys _
  | some previous =>
    simp only [diff, List.map_append, map_path_filterMap_changeOf?, map_path_map_mk]
    refine List.nodup_append.mpr ⟨(Table.nodup_keys _).filter _, (Table.nodup_keys _).filter _, ?_⟩
    rintro path hpath _ hother rfl
    have hgone := (List.mem_filter.mp hpath).2
    have hthere := (Snapshot.contains_eq_true_iff _ _).mpr (List.mem_filter.mp hother).1
    simp [hthere] at hgone

theorem Diff.count_add_count_add_count (diff : Diff) :
    diff.count .created + diff.count .modified + diff.count .deleted = diff.changes.length := by
  unfold Diff.count
  induction diff.changes with
  | nil => rfl
  | cons change changes ih =>
    obtain ⟨kind, path⟩ := change
    cases kind <;> simp <;> omega

theorem changes_diff_self (listing : List ListingEntry) :
    (diff (some (.ofListing listing)) listing).changes = [] := by
  refine List.eq_nil_iff_forall_not_mem.mpr fun change hchange => ?_
  rw [mem_diff_iff, fingerprint?, Option.bind_some, changeKind?_eq_none_iff.mpr rfl] at hchange
  cases hchange

theorem ofListing_eq_of_diff_eq_nil {previous : Snapshot} {listing : List ListingEntry}
    (h : (diff (some previous) listing).changes = []) : Snapshot.ofListing listing = previous := by
  refine Snapshot.ext_get? fun path => ?_
  have hnone : ∀ kind, changeKind? (previous.get? path)
      ((Snapshot.ofListing listing).get? path) ≠ some kind := by
    intro kind hkind
    have hmem := (mem_diff_iff (some previous) listing ⟨kind, path⟩).mpr hkind
    rw [h] at hmem
    cases hmem
  exact (changeKind?_eq_none_iff.mp (Option.eq_none_iff_forall_ne_some.mpr hnone)).symm

end CatalogSync
