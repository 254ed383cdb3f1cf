import CatalogSync.Harvest.Poll
import CatalogSync.Lister.Directory
import CatalogSync.Proofs.Snapshot.Changes
import CatalogSync.Store.Memory

/-!
Scans of a directory. A walk may show anything, in any order; a scan of it lists every file that is
there, each once, or else it fails. What cannot be read is never taken for something that is gone.
-/

namespace CatalogSync

namespace Bytes

theorem utf8EncodeChar_of_mem {c : Char} {byte : UInt8} (hbyte : byte.toNat < 128)
    (h : byte ∈ String.utf8EncodeChar c) : String.utf8EncodeChar c = [byte] := by
  -- The bytes of a character that takes more than one are all from 128 on.
  have hlong : ∀ n, 128 ≤ n → n < 256 → byte ≠ UInt8.ofNat n := by
    rintro n hlow hhigh rfl
    rw [UInt8.toNat_ofNat', Nat.mod_eq_of_lt hhigh] at hbyte
    omega
  simp only [String.utf8EncodeChar] at h ⊢
  split_ifs at h ⊢
  · rw [List.mem_singleton.mp h]
  all_goals
    simp only [List.mem_cons, List.not_mem_nil, or_false] at h
    exfalso
  · rcases h with h | h <;> exact hlong _ (by omega) (by omega) h
  · rcases h with h | h | h <;> exact hlong _ (by omega) (by omega) h
  · rcases h with h | h | h | h <;> exact hlong _ (by omega) (by omega) h

theorem exists_cut {cs : List Char} {front back : Bytes} {byte : UInt8} (hbyte : byte.toNat < 128)
    (h : cs.flatMap String.utf8EncodeChar = front ++ byte :: back) :
    ∃ before after : String, ofText before = front ∧ ofText after = back := by
  induction cs generalizing front with
  | nil => simp at h
  | cons c cs ih =>
    rw [List.flatMap_cons, List.append_eq_append_iff] at h
    rcases h with ⟨middle, rfl, hrest⟩ | ⟨middle, hc, hrest⟩
    · obtain ⟨before, after, rfl, rfl⟩ := ih hrest
      refine ⟨String.ofList [c] ++ before, after, ?_, rfl⟩
      rw [ofText_append, ofText_ofList]
      simp
    · cases middle with
      | nil =>
        obtain ⟨before, after, hbefore, rfl⟩ := @ih [] hrest.symm
        exact ⟨String.ofList [c], after, by rw [ofText_ofList]; simpa using hc, rfl⟩
      | cons first middle =>
        obtain ⟨rfl, rfl⟩ := List.cons.inj hrest
        have hsingle := utf8EncodeChar_of_mem hbyte (c := c) (by simp [hc])
        rw [hsingle, eq_comm, List.append_eq_singleton_iff] at hc
        simp only [List.cons.injEq, List.cons_ne_nil, and_false, or_false, true_and] at hc
        obtain ⟨rfl, rfl⟩ := hc
        exact ⟨"", String.ofList cs, rfl, ofText_ofList cs⟩

theorem toText?_eq_some_iff {bytes : Bytes} {text : String} :
    toText? bytes = some text ↔ ofText text = bytes := by
  constructor
  · exact ofText_of_toText?
  · rintro rfl
    exact toText?_ofText text

end Bytes

/-- The path of an entry below the root, as bytes. -/
def WalkItem.pathOf (names : List Bytes) : Bytes :=
  [Path.slash].intercalate names

/-- An entry of a listing tells of a file by its path, its size and its time, which is zero if there
is none. -/
structure ListingEntry.TellsOf (entry : ListingEntry) (names : List Bytes) (metadata : Metadata) :
    Prop where
  path : Bytes.ofText entry.path = WalkItem.pathOf names
  size : entry.fingerprint.size = UInt64.ofNat metadata.size
  modified : entry.fingerprint.modified.toInt = (metadata.modified.map FileTime.millis).getD 0

/-- A listing shows some items of a walk: in their order, one entry for each regular file that is
there and has a path that is text, and nothing else. -/
inductive Shows : List WalkItem → List ListingEntry → Prop where
  | nil : Shows [] []
  | shown {names : List Bytes} {metadata : Metadata} {entry : ListingEntry} {items : List WalkItem}
      {listing : List ListingEntry} (htells : entry.TellsOf names metadata)
      (hrest : Shows items listing) :
      Shows (.entry names true (.ok metadata) :: items) (entry :: listing)
  | passed {item : WalkItem} {items : List WalkItem} {listing : List ListingEntry}
      (hitem : ∀ names metadata, item = .entry names true (.ok metadata) →
        ∀ path, Bytes.ofText path ≠ WalkItem.pathOf names)
      (hrest : Shows items listing) : Shows (item :: items) listing

theorem Shows.exists_mem {items : List WalkItem} {listing : List ListingEntry}
    (h : Shows items listing) {names : List Bytes} {metadata : Metadata} {path : String}
    (hitem : .entry names true (.ok metadata) ∈ items)
    (hpath : Bytes.ofText path = WalkItem.pathOf names) : ∃ entry ∈ listing, entry.path = path := by
  induction h with
  | nil => cases hitem
  | shown htells hrest ih =>
    rcases List.mem_cons.mp hitem with hfirst | hlater
    · cases hfirst
      exact ⟨_, List.mem_cons_self, Bytes.ofText_inj.mp (htells.path.trans hpath.symm)⟩
    · obtain ⟨entry, hentry, hthere⟩ := ih hlater
      exact ⟨entry, List.mem_cons_of_mem _ hentry, hthere⟩
  | passed hpassed hrest ih =>
    rcases List.mem_cons.mp hitem with rfl | hlater
    · exact absurd hpath (hpassed names metadata rfl path)
    · exact ih hlater

theorem Shows.exists_item {items : List WalkItem} {listing : List ListingEntry}
    (h : Shows items listing) {entry : ListingEntry} (hentry : entry ∈ listing) :
    ∃ names metadata, .entry names true (.ok metadata) ∈ items ∧ entry.TellsOf names metadata := by
  induction h with
  | nil => cases hentry
  | shown htells hrest ih =>
    rcases List.mem_cons.mp hentry with rfl | hlater
    · exact ⟨_, _, List.mem_cons_self, htells⟩
    · obtain ⟨names, metadata, hitem, htells⟩ := ih hlater
      exact ⟨names, metadata, List.mem_cons_of_mem _ hitem, htells⟩
  | passed hpassed hrest ih =>
    obtain ⟨names, metadata, hitem, htells⟩ := ih hentry
    exact ⟨names, metadata, List.mem_cons_of_mem _ hitem, htells⟩

theorem Shows.of_deleted {items : List WalkItem} {listing : List ListingEntry}
    (h : Shows items listing) {previous : Option Snapshot} {path : String}
    (hdeleted : ⟨.deleted, path⟩ ∈ (diff previous listing).changes) :
    (∃ before, fingerprint? previous path = some before) ∧
      ∀ names metadata, .entry names true (.ok metadata) ∈ items →
        WalkItem.pathOf names ≠ Bytes.ofText path := by
  obtain ⟨hbefore, hgone⟩ :=
    changeKind?_eq_deleted_iff.mp ((mem_diff_iff previous listing _).mp hdeleted)
  refine ⟨Option.ne_none_iff_exists'.mp hbefore, fun names metadata hitem hpath => ?_⟩
  obtain ⟨entry, hentry, hthere⟩ := h.exists_mem hitem hpath.symm
  obtain ⟨fingerprint, hfingerprint⟩ := (Snapshot.mem_paths_iff _ path).mp
    ((Snapshot.mem_paths_ofListing listing path).mpr ⟨entry, hentry, hthere⟩)
  exact Option.some_ne_none _ (hfingerprint.symm.trans hgone)

namespace WalkItem

/-- What does not keep a listing from being complete: whatever is there, and what has vanished below
the root. -/
def IsBearable : WalkItem → Prop
  | .failure depth e => 0 < depth ∧ e.vanished = true
  | .entry _ true (.error e) => e.vanished = true
  | .entry _ _ _ => True

/-- A regular file that is to be listed has a date if it has a time. -/
def IsDated : WalkItem → Prop
  | .entry names true (.ok metadata) => (∃ path, Bytes.ofText path = pathOf names) →
    ∀ time ∈ metadata.modified, DirectoryLister.isDated time = true
  | _ => True

def IsFine (item : WalkItem) : Prop :=
  item.IsBearable ∧ item.IsDated

/-- The first item of a walk that is not fine, with everything before it and behind it. -/
structure FirstFlaw (items : List WalkItem) (item : WalkItem) : Prop where
  splits : ∃ front back, items = front ++ item :: back ∧ ∀ before ∈ front, before.IsFine
  flawed : ¬item.IsFine

theorem FirstFlaw.head {item : WalkItem} (items : List WalkItem) (h : ¬item.IsFine) :
    FirstFlaw (item :: items) item :=
  ⟨⟨[], items, rfl, List.forall_mem_nil _⟩, h⟩

theorem FirstFlaw.cons {items : List WalkItem} {item first : WalkItem} (h : FirstFlaw items item)
    (hfirst : first.IsFine) : FirstFlaw (first :: items) item := by
  obtain ⟨⟨front, back, rfl, hfront⟩, hflawed⟩ := h
  exact ⟨⟨first :: front, back, rfl, List.forall_mem_cons.mpr ⟨hfirst, hfront⟩⟩, hflawed⟩

theorem FirstFlaw.mem {items : List WalkItem} {item : WalkItem} (h : FirstFlaw items item) :
    item ∈ items := by
  obtain ⟨⟨front, back, rfl, -⟩, -⟩ := h
  exact List.mem_append_right front List.mem_cons_self

theorem FirstFlaw.unique {items : List WalkItem} {item item' : WalkItem} (h : FirstFlaw items item)
    (h' : FirstFlaw items item') : item = item' := by
  obtain ⟨⟨front, back, rfl, hfront⟩, hflawed⟩ := h
  obtain ⟨⟨front', back', hsplits, hfront'⟩, hflawed'⟩ := h'
  rcases List.append_eq_append_iff.mp hsplits with ⟨between, rfl, hback⟩ | ⟨between, rfl, hback⟩
  · cases between with
    | nil => exact (List.cons.inj hback).1
    | cons first between =>
      obtain ⟨rfl, -⟩ := List.cons.inj hback
      exact absurd (hfront' item (by simp)) hflawed
  · cases between with
    | nil => exact (List.cons.inj hback).1.symm
    | cons first between =>
      obtain ⟨rfl, -⟩ := List.cons.inj hback
      exact absurd (hfront item' (by simp)) hflawed'

theorem isDated_of_not_isBearable {item : WalkItem} (h : ¬item.IsBearable) : item.IsDated := by
  cases item with
  | failure depth e => trivial
  | entry names isFile metadata =>
    cases isFile with
    | false => trivial
    | true =>
      cases metadata with
      | error e => trivial
      | ok metadata => exact absurd trivial h

end WalkItem

namespace DirectoryLister

theorem relativePath?_cons_cons (name second : Bytes) (rest : List Bytes) :
    relativePath? (name :: second :: rest) =
      (Bytes.toText? name).bind fun text =>
        (relativePath? (second :: rest)).map fun path => text ++ "/" ++ path := by
  simp only [relativePath?, List.mapM_cons, Option.bind_eq_bind, Option.pure_def]
  cases Bytes.toText? name with
  | none => rfl
  | some text =>
    cases Bytes.toText? second with
    | none => rfl
    | some text' =>
      cases rest.mapM Bytes.toText? with
      | none => rfl
      | some texts => exact congrArg some String.intercalate_cons_cons

theorem relativePath?_eq_some_iff {names : List Bytes} {path : String} :
    relativePath? names = some path ↔ Bytes.ofText path = WalkItem.pathOf names := by
  induction names generalizing path with
  | nil =>
    rw [show relativePath? [] = some "" from rfl,
      show WalkItem.pathOf [] = Bytes.ofText "" from rfl, Bytes.ofText_inj, Option.some_inj,
      eq_comm]
  | cons name names ih =>
    cases names with
    | nil =>
      have hname : relativePath? [name] = Bytes.toText? name := by
        simp only [relativePath?, List.mapM_cons, List.mapM_nil]
        cases Bytes.toText? name <;> simp
      rw [hname, Bytes.toText?_eq_some_iff, WalkItem.pathOf, List.intercalate_singleton]
    | cons second rest =>
      rw [relativePath?_cons_cons, WalkItem.pathOf, List.intercalate_cons_cons, List.append_assoc]
      constructor
      · intro h
        obtain ⟨text, hname, hrest⟩ := Option.bind_eq_some_iff.mp h
        obtain ⟨below, hbelow, rfl⟩ := Option.map_eq_some_iff.mp hrest
        rw [Bytes.ofText_append, Bytes.ofText_append, Bytes.toText?_eq_some_iff.mp hname,
          ih.mp hbelow, List.append_assoc]
        rfl
      · intro h
        have hcut : path.toList.flatMap String.utf8EncodeChar =
            name ++ Path.slash :: WalkItem.pathOf (second :: rest) := by
          rw [← Bytes.ofText_ofList, String.ofList_toList]
          exact h
        obtain ⟨text, below, hname, hbelow⟩ := Bytes.exists_cut (by decide) hcut
        rw [Bytes.toText?_eq_some_iff.mpr hname, ih.mpr hbelow]
        refine congrArg some (Bytes.ofText_inj.mp ?_)
        rw [h, Bytes.ofText_append, Bytes.ofText_append, hname, hbelow, List.append_assoc]
        rfl

theorem toInt_of_modifiedMillis? {metadata : Metadata} {modified : Int64}
    (h : modifiedMillis? metadata = some modified) :
    modified.toInt = (metadata.modified.map FileTime.millis).getD 0 := by
  rw [modifiedMillis?] at h
  split at h
  · rename_i hnone
    obtain rfl := Option.some.inj h
    rw [hnone]
    rfl
  · rename_i time htime
    split at h
    · rename_i hdated
      obtain rfl := Option.some.inj h
      have hfirst : Time.Date.first.toDays = -96465292 := by decide
      have hlast : Time.Date.last.toDays = 95026236 := by decide
      rw [isDated, hfirst, hlast, Bool.and_eq_true, decide_eq_true_iff, decide_eq_true_iff,
        FileTime.day] at hdated
      rw [htime]
      refine Int64.toInt_ofInt_of_le ?_ ?_ <;>
        · rw [FileTime.millis]
          omega
    · cases h

theorem modifiedMillis?_eq_none_iff {metadata : Metadata} :
    modifiedMillis? metadata = none ↔ ∃ time ∈ metadata.modified, isDated time = false := by
  rw [modifiedMillis?]
  cases metadata.modified with
  | none => simp
  | some time => simp

/-- What can become of the items of a walk: a listing that shows them all, or an end at the first
one that is not fine. -/
inductive Gathering (items : List WalkItem) : Outcome ListerError (List ListingEntry) → Prop where
  | complete {listing : List ListingEntry} (hshows : Shows items listing)
      (hfine : ∀ item ∈ items, item.IsFine) : Gathering items (.ok listing)
  | failed {item : WalkItem} (hfirst : WalkItem.FirstFlaw items item) (hitem : ¬item.IsBearable)
      (reason : String) : Gathering items (.error (.unreachable reason))
  | brokenDown {item : WalkItem} (hfirst : WalkItem.FirstFlaw items item) (hitem : ¬item.IsDated) :
      Gathering items .panicked

section Gathering

variable {item : WalkItem} {items : List WalkItem} {names : List Bytes} {metadata : Metadata}

theorem Gathering.failed_first (hitem : ¬item.IsBearable) (reason : String) :
    Gathering (item :: items) (.error (.unreachable reason)) :=
  .failed (.head items fun hfine => hitem hfine.1) hitem reason

theorem Gathering.passed {result : Outcome ListerError (List ListingEntry)}
    (h : Gathering items result) (hitem : item.IsFine)
    (hnothing : ∀ names metadata, item = .entry names true (.ok metadata) →
      ∀ path, Bytes.ofText path ≠ WalkItem.pathOf names) : Gathering (item :: items) result := by
  cases h with
  | complete hshows hfine =>
    exact .complete (.passed hnothing hshows) (List.forall_mem_cons.mpr ⟨hitem, hfine⟩)
  | failed hfirst hflaw reason => exact .failed (hfirst.cons hitem) hflaw reason
  | brokenDown hfirst hflaw => exact .brokenDown (hfirst.cons hitem) hflaw

theorem isFine_of_modifiedMillis? {modified : Int64}
    (h : modifiedMillis? metadata = some modified) :
    (WalkItem.entry names true (.ok metadata)).IsFine := by
  refine ⟨trivial, fun _ time htime => ?_⟩
  by_contra hundated
  have hnone := modifiedMillis?_eq_none_iff.mpr ⟨time, htime, by simpa using hundated⟩
  rw [h] at hnone
  cases hnone

/-- One item after the other is listed, passed over or the end of it all. -/
theorem gathering_collect (items : List WalkItem) : Gathering items (collect items) := by
  fun_induction collect items with
  | case1 => exact .complete .nil (List.forall_mem_nil _)
  | case2 depth e rest hgone ih => exact ih.passed ⟨hgone, trivial⟩ nofun
  | case3 depth e rest hthere =>
    exact .failed_first (show ¬(WalkItem.failure depth e).IsBearable from hthere) _
  | case4 names metadata rest ih => exact ih.passed ⟨trivial, trivial⟩ nofun
  | case5 names e rest hgone ih => exact ih.passed ⟨hgone, trivial⟩ nofun
  | case6 names e rest hthere =>
    exact .failed_first (show ¬(WalkItem.entry names true (.error e)).IsBearable from hthere) _
  | case7 names metadata rest hnone ih =>
    have hpathless : ∀ path, Bytes.ofText path ≠ WalkItem.pathOf names := by
      intro path hpath
      rw [relativePath?_eq_some_iff.mpr hpath] at hnone
      cases hnone
    refine ih.passed ⟨trivial, fun ⟨path, hpath⟩ => absurd hpath (hpathless path)⟩ ?_
    rintro _ _ ⟨⟩
    exact hpathless
  | case8 names metadata rest path hpath hundated =>
    obtain ⟨time, htime, hbeyond⟩ := modifiedMillis?_eq_none_iff.mp hundated
    have hitem : ¬(WalkItem.entry names true (.ok metadata)).IsDated := fun hdated =>
      Bool.false_ne_true
        (hbeyond.symm.trans (hdated ⟨path, relativePath?_eq_some_iff.mp hpath⟩ time htime))
    exact .brokenDown (.head rest fun hfine => hitem hfine.2) hitem
  | case9 names metadata rest path hpath modified hmodified listing hrest ih =>
    rw [hrest] at ih
    cases ih with
    | complete hshows hfine =>
      exact .complete (.shown ⟨relativePath?_eq_some_iff.mp hpath, rfl,
        toInt_of_modifiedMillis? hmodified⟩
        hshows) (List.forall_mem_cons.mpr ⟨isFine_of_modifiedMillis? hmodified, hfine⟩)
  | case10 names metadata rest path hpath modified hmodified e hrest ih =>
    rw [hrest] at ih
    cases ih with
    | failed hfirst hflaw reason =>
      exact .failed (hfirst.cons (isFine_of_modifiedMillis? hmodified)) hflaw reason
  | case11 names metadata rest path hpath modified hmodified hrest ih =>
    rw [hrest] at ih
    cases ih with
    | brokenDown hfirst hflaw =>
      exact .brokenDown (hfirst.cons (isFine_of_modifiedMillis? hmodified)) hflaw

end Gathering

/-- How a scan ends: with a listing, with a failure, or in a breakdown. -/
inductive Ends (isDirectory : Bool) (items : List WalkItem) :
    Outcome ListerError (List ListingEntry) → Prop where
  | listed {listing : List ListingEntry} (hdirectory : isDirectory = true)
      (hfine : ∀ item ∈ items, item.IsFine) (hshows : Shows items listing) :
      Ends isDirectory items (.ok listing)
  | failed (hflaw : isDirectory = false ∨
      ∃ item, WalkItem.FirstFlaw items item ∧ ¬item.IsBearable) (reason : String) :
      Ends isDirectory items (.error (.unreachable reason))
  | brokenDown {item : WalkItem} (hdirectory : isDirectory = true)
      (hfirst : WalkItem.FirstFlaw items item) (hitem : ¬item.IsDated) :
      Ends isDirectory items .panicked

theorem ends_scan (root : String) (isDirectory : Bool) (items : List WalkItem) :
    Ends isDirectory items (scan root isDirectory items) := by
  cases isDirectory with
  | false => exact .failed (.inl rfl) _
  | true =>
    have hgathering := gathering_collect items
    rw [scan, if_pos rfl]
    generalize collect items = result at hgathering ⊢
    cases hgathering with
    | complete hshows hfine => exact .listed rfl hfine hshows
    | failed hfirst hitem reason => exact .failed (.inr ⟨_, hfirst, hitem⟩) reason
    | brokenDown hfirst hitem => exact .brokenDown rfl hfirst hitem

theorem joined_eq_ok_iff {result : Outcome ListerError (List ListingEntry)}
    {listing : List ListingEntry} :
    joined result = .ok listing ↔ result = .ok listing := by
  cases result <;> simp [joined]

theorem Ends.shows {isDirectory : Bool} {items : List WalkItem} {listing : List ListingEntry}
    (h : Ends isDirectory items (.ok listing)) : isDirectory = true ∧ Shows items listing := by
  cases h with
  | listed hdirectory _ hshows => exact ⟨hdirectory, hshows⟩

theorem poll_of_unreachable {σ : Type} {lister : Lister σ} {h : Harvester} {world after : σ}
    {members : List ListenerId} {e : ListerError}
    (hbegin : h.beginPoll = .listing h.config.root members)
    (hlist : lister.list h.config.root world = (.error e, after)) (store : BlobStore σ)
    (listenerOf : ListenerId → Listener σ) :
    h.poll lister store listenerOf world = ((.error (.lister e), h), after) := by
  simp only [Harvester.poll, hbegin, bind, StateT.bind, hlist]
  rfl

/-- A scan lists every regular file, each once, or else there is no listing and no change to tell
of: it fails if the first item that is not fine cannot be read, and it breaks down if that item is a
file without a date. -/
theorem scan_is_complete_or_fails (root : String) (isDirectory : Bool) (items : List WalkItem) :
    ((∃ listing, scan root isDirectory items = .ok listing) ↔
      isDirectory = true ∧ ∀ item ∈ items, item.IsFine) ∧
    (scan root isDirectory items = .panicked ↔
      isDirectory = true ∧ ∃ item, WalkItem.FirstFlaw items item ∧ ¬item.IsDated) ∧
    (∀ listing, scan root isDirectory items = .ok listing →
      Shows items listing ∧
      ∀ previous path, ⟨.deleted, path⟩ ∈ (diff previous listing).changes →
        (∃ before, fingerprint? previous path = some before) ∧
        ∀ names metadata, .entry names true (.ok metadata) ∈ items →
          WalkItem.pathOf names ≠ Bytes.ofText path) ∧
    (¬(isDirectory = true ∧ ∀ item ∈ items, item.IsFine) →
      ∃ reason, joined (scan root isDirectory items) = .error (.unreachable reason) ∧
        ∀ (σ : Type) (lister : Lister σ) (store : BlobStore σ)
          (listenerOf : ListenerId → Listener σ) (h : Harvester) (world after : σ)
          (members : List ListenerId),
          h.beginPoll = .listing h.config.root members →
          lister.list h.config.root world = (joined (scan root isDirectory items), after) →
          h.poll lister store listenerOf world =
            ((.error (.lister (.unreachable reason)), h), after)) := by
  have hends := ends_scan root isDirectory items
  generalize scan root isDirectory items = result at hends ⊢
  cases hends with
  | listed hdirectory hfine hshows =>
    refine ⟨iff_of_true ⟨_, rfl⟩ ⟨hdirectory, hfine⟩, iff_of_false nofun ?_, ?_,
      fun hflawed => absurd ⟨hdirectory, hfine⟩ hflawed⟩
    · rintro ⟨-, item, hfirst, -⟩
      exact hfirst.flawed (hfine item hfirst.mem)
    · rintro _ ⟨⟩
      exact ⟨hshows, fun _ _ => hshows.of_deleted⟩
  | failed hflaw reason =>
    refine ⟨iff_of_false nofun ?_, iff_of_false nofun ?_, nofun, fun _ => ⟨reason, rfl, ?_⟩⟩
    · rintro ⟨rfl, hfine⟩
      rcases hflaw with hflaw | ⟨item, hfirst, -⟩
      · cases hflaw
      · exact hfirst.flawed (hfine item hfirst.mem)
    · rintro ⟨rfl, item, hfirst, hitem⟩
      rcases hflaw with hflaw | ⟨other, hother, hunbearable⟩
      · cases hflaw
      · obtain rfl := hfirst.unique hother
        exact hitem (WalkItem.isDated_of_not_isBearable hunbearable)
    · intro σ lister store listenerOf h world after members hbegin hlist
      exact poll_of_unreachable hbegin hlist store listenerOf
  | @brokenDown item hdirectory hfirst hitem =>
    refine ⟨iff_of_false nofun ?_, iff_of_true rfl ⟨hdirectory, item, hfirst, hitem⟩, nofun,
      fun _ => ⟨breakdown, rfl, ?_⟩⟩
    · rintro ⟨-, hfine⟩
      exact hfirst.flawed (hfine item hfirst.mem)
    · intro σ lister store listenerOf h world after members hbegin hlist
      exact poll_of_unreachable hbegin hlist store listenerOf

/-- A file that is there, one that is there no more and a directory that cannot be opened. -/
def lockedFolder : List WalkItem :=
  [.entry [] false (.ok ⟨0, none⟩), .entry [[97]] true (.ok ⟨1, some ⟨1, 500000000⟩⟩),
    .entry [[98]] true (.error ⟨true, "No such file"⟩), .failure 1 ⟨false, "Permission denied"⟩]

/-- The lister that sees these items everywhere. -/
def listerOf (items : List WalkItem) : Lister MemoryStore where
  checkRoot := fun _ => pure (.ok ())
  list := fun root => pure (joined (scan root true items))
  locate := locate "/"
  fetch := fun location => pure (.error (.unavailable location))

def silent : Listener MemoryStore where
  name := "silent"
  onCreate := fun _ => pure (.ok ())
  onUpdate := fun _ => pure (.ok ())
  onDelete := fun _ => pure (.ok ())

def watchman : Harvester :=
  { Harvester.ofConfig (.ofRoot "h" "/d") with status := .polling, members := [0] }

theorem locked_folder_fails_poll :
    (scan "/d" true (lockedFolder.take 3) = .ok [⟨"a", ⟨1, 1500⟩⟩] ∧
      ⟨.deleted, "b"⟩ ∈ (diff (some (Snapshot.ofListing [⟨"a", ⟨1, 0⟩⟩, ⟨"b", ⟨2, 0⟩⟩]))
        [⟨"a", ⟨1, 1500⟩⟩]).changes ∧
      ∀ names metadata, .entry names true (.ok metadata) ∈ lockedFolder.take 3 →
        WalkItem.pathOf names ≠ Bytes.ofText "b") ∧
    ¬(true = true ∧ ∀ item ∈ lockedFolder, item.IsFine) ∧
    watchman.beginPoll = .listing watchman.config.root [0] ∧
    ∃ reason, joined (scan watchman.config.root true lockedFolder) = .error (.unreachable reason) ∧
      watchman.poll (listerOf lockedFolder) MemoryStore.blobStore (fun _ => silent) .empty =
        ((.error (.lister (.unreachable reason)), watchman), .empty) := by
  have hlocked : ¬(true = true ∧ ∀ item ∈ lockedFolder, item.IsFine) := by
    simp [lockedFolder, WalkItem.IsFine, WalkItem.IsBearable]
  have hlisted : scan "/d" true (lockedFolder.take 3) = .ok [⟨"a", ⟨1, 1500⟩⟩] := by decide
  have hdeleted : ⟨.deleted, "b"⟩ ∈ (diff (some (Snapshot.ofListing [⟨"a", ⟨1, 0⟩⟩, ⟨"b", ⟨2, 0⟩⟩]))
      [⟨"a", ⟨1, 1500⟩⟩]).changes := by decide
  obtain ⟨-, -, hgood, -⟩ := scan_is_complete_or_fails "/d" true (lockedFolder.take 3)
  obtain ⟨-, -, -, hbad⟩ := scan_is_complete_or_fails watchman.config.root true lockedFolder
  obtain ⟨reason, hscan, hpoll⟩ := hbad hlocked
  exact ⟨⟨hlisted, hdeleted, ((hgood _ hlisted).2 _ _ hdeleted).2⟩, hlocked, rfl, reason, hscan,
    hpoll _ (listerOf lockedFolder) MemoryStore.blobStore (fun _ => silent) watchman .empty .empty
      [0]
      rfl rfl⟩

/-- A file of today and one that is dated some two hundred and eighty thousand years ahead. -/
def timeCapsule : List WalkItem :=
  [.entry [] false (.ok ⟨0, none⟩), .entry [[97]] true (.ok ⟨1, some ⟨1700000000, 0⟩⟩),
    .entry [[98]] true (.ok ⟨1, some ⟨9000000000000, 0⟩⟩)]

/-- Everything there can be read, and yet there is no listing. -/
theorem time_capsule_is_not_listed :
    (∀ item ∈ timeCapsule, item.IsBearable) ∧
      (∀ listing, scan "/d" true timeCapsule ≠ .ok listing) ∧
      joined (scan "/d" true timeCapsule) = .error (.unreachable breakdown) := by
  have hscan : scan "/d" true timeCapsule = .panicked := by decide
  refine ⟨?_, ?_, ?_⟩
  · simp [timeCapsule, WalkItem.IsBearable]
  · intro listing hlisted
    rw [hscan] at hlisted
    cases hlisted
  · rw [hscan]
    rfl

end DirectoryLister

end CatalogSync
