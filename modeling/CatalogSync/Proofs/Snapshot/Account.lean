import CatalogSync.Proofs.Snapshot.Codec
import CatalogSync.Proofs.Snapshot.News

namespace CatalogSync

/-- In ascending byte order of the paths, no path twice. -/
def Ascends (changes : List Change) : Prop :=
  changes.Pairwise fun a b => Text.before a.path b.path = true

/-- What became of a path that is there now. -/
def IsNews (before? after? : Option Fingerprint) (kind : ChangeKind) : Prop :=
  kind = .created ∧ before? = none ∧ after?.isSome ∨
    kind = .modified ∧ ∃ before after, before? = some before ∧ after? = some after ∧
      (before.size ≠ after.size ∨ before.modified ≠ after.modified)

/-- A diff from a view, if there is one, to a listing: its view has the last fingerprint of every
path, and its changes are first what is gone and then what is new or different. -/
structure Accounts (previous : Option Snapshot) (listing : List ListingEntry) (found : Diff) :
    Prop where
  next : ∀ path, found.next.get? path = Snapshot.lastFingerprint? listing path
  changes : ∃ gone rest, found.changes = gone ++ rest ∧ Ascends gone ∧ Ascends rest ∧
    (∀ change, change ∈ gone ↔ (fingerprint? previous change.path).isSome ∧
      Snapshot.lastFingerprint? listing change.path = none ∧ change.kind = .deleted) ∧
    ∀ change, change ∈ rest ↔ IsNews (fingerprint? previous change.path)
      (Snapshot.lastFingerprint? listing change.path) change.kind

theorem Ascends.eq {changes others : List Change} (h : Ascends changes) (hothers : Ascends others)
    (hmem : ∀ change, change ∈ changes ↔ change ∈ others) : changes = others := by
  have hnodup : ∀ {changes}, Ascends changes → changes.Nodup := by
    refine fun h => h.imp ?_
    rintro a _ hbefore rfl
    rw [Text.before_irrefl] at hbefore
    cases hbefore
  have hperm := (List.perm_ext_iff_of_nodup (hnodup h) (hnodup hothers)).mpr hmem
  refine hperm.eq_of_pairwise ?_ h hothers
  intro a b _ _ hab hba
  rw [Text.before_asymm hab] at hba
  cases hba

theorem Accounts.eq {previous : Option Snapshot} {listing : List ListingEntry} {found other : Diff}
    (h : Accounts previous listing found) (hother : Accounts previous listing other) :
    found = other := by
  obtain ⟨changes, next⟩ := found
  obtain ⟨changes', next'⟩ := other
  obtain ⟨hnext, gone, rest, rfl, hgone, hrest, hmemGone, hmemRest⟩ := h
  obtain ⟨hnext', gone', rest', rfl, hgone', hrest', hmemGone', hmemRest'⟩ := hother
  have hsame : next = next' := Snapshot.ext_get? fun path => (hnext path).trans (hnext' path).symm
  have hfirst : gone = gone' := hgone.eq hgone' fun change =>
    (hmemGone change).trans (hmemGone' change).symm
  have hsecond : rest = rest' := hrest.eq hrest' fun change =>
    (hmemRest change).trans (hmemRest' change).symm
  rw [hsame, hfirst, hsecond]

theorem ascends_map_filter (snapshot : Snapshot) (p : String → Bool) (kind : String → ChangeKind) :
    Ascends ((snapshot.paths.filter p).map fun path => ⟨kind path, path⟩) :=
  List.pairwise_map.mpr (snapshot.table.keys_pairwise.filter p)

theorem mem_map_filter_iff {paths : List String} {p : String → Bool} {kind : String → ChangeKind}
    {change : Change} :
    (change ∈ (paths.filter p).map fun path => ⟨kind path, path⟩) ↔
      change.path ∈ paths ∧ p change.path = true ∧ change.kind = kind change.path := by
  obtain ⟨what, path⟩ := change
  simp only [List.mem_map, List.mem_filter, Change.mk.injEq]
  constructor
  · rintro ⟨_, ⟨hpath, hp⟩, rfl, rfl⟩
    exact ⟨hpath, hp, rfl⟩
  · rintro ⟨hpath, hp, rfl⟩
    exact ⟨path, ⟨hpath, hp⟩, rfl, rfl⟩

theorem fingerprint?_eq_get? (previous : Option Snapshot) (path : String) :
    fingerprint? previous path = (previous.getD .empty).get? path := by
  cases previous <;> rfl

theorem Snapshot.mem_paths_iff_isSome (snapshot : Snapshot) (path : String) :
    path ∈ snapshot.paths ↔ (snapshot.get? path).isSome := by
  rw [mem_paths_iff, Option.isSome_iff_exists]

theorem isNews_iff (before now : Snapshot) (change : Change) :
    IsNews (before.get? change.path) (now.get? change.path) change.kind ↔
      change.path ∈ now.paths ∧ before.get? change.path ≠ now.get? change.path ∧
        change.kind = if before.contains change.path then .modified else .created := by
  rw [IsNews, Snapshot.mem_paths_iff_isSome, Snapshot.contains]
  cases before.get? change.path with
  | none => cases now.get? change.path <;> simp
  | some known =>
    cases now.get? change.path with
    | none => simp
    | some after =>
      obtain ⟨size, modified⟩ := known
      obtain ⟨size', modified'⟩ := after
      simp only [reduceCtorEq, Option.isSome_some, Option.some.injEq]
      grind

theorem accounts_diff (previous : Option Snapshot) (listing : List ListingEntry) :
    Accounts previous listing (diff previous listing) := by
  have hnow : ∀ path, (Snapshot.ofListing listing).get? path =
      Snapshot.lastFingerprint? listing path := Snapshot.get?_ofListing listing
  refine ⟨fun path => ?_, _, _, changes_diff_eq_news previous listing,
    ascends_map_filter _ _ _, ascends_map_filter _ _ _, fun change => ?_, fun change => ?_⟩
  · rw [next_diff, hnow]
  · rw [mem_map_filter_iff, fingerprint?_eq_get?, ← hnow, Snapshot.mem_paths_iff_isSome,
      Snapshot.contains]
    simp
  · rw [mem_map_filter_iff, fingerprint?_eq_get?, ← hnow, isNews_iff, decide_eq_true_iff]

/-- The diff of a listing is the only one that accounts for it. -/
theorem accounts_iff {previous : Option Snapshot} {listing : List ListingEntry} {found : Diff} :
    Accounts previous listing found ↔ found = diff previous listing := by
  constructor
  · exact fun h => h.eq (accounts_diff previous listing)
  · rintro rfl
    exact accounts_diff previous listing

theorem changes_diff_eq_nil_iff (previous : Snapshot) (listing : List ListingEntry) :
    (diff (some previous) listing).changes = [] ↔ Snapshot.ofListing listing = previous := by
  constructor
  · exact ofListing_eq_of_diff_eq_nil
  · rintro rfl
    exact changes_diff_self listing

end CatalogSync
