import CatalogSync.Proofs.Disk.Opening
import CatalogSync.Proofs.Disk.Ways

namespace CatalogSync.Disk

open Node (Within)

/-- A disk with all that is on another one, at the same places, and with no links of its own. -/
structure Grows (disk disk' : Disk) : Prop where
  within : Within disk.root disk'.root
  links : ∀ place target, disk'.root.kindAt place = some (.link target) →
    disk.root.kindAt place = some (.link target)
  holds : ∀ names number, Holds names number disk → Holds names number disk'
  workingDir : disk'.workingDir = disk.workingDir

section Growing

variable {disk disk' disk'' : Disk}

theorem Grows.refl (disk : Disk) : Grows disk disk :=
  ⟨fun _ _ => id, fun _ _ => id, fun _ _ => id, rfl⟩

theorem Grows.trans (h : Grows disk disk') (h' : Grows disk' disk'') : Grows disk disk'' where
  within := fun place kind hkind => h'.within place kind (h.within place kind hkind)
  links := fun place target hlink => h.links place target (h'.links place target hlink)
  holds := fun names number hholds => h'.holds names number (h.holds names number hholds)
  workingDir := h'.workingDir.trans h.workingDir

theorem Grows.of_root_eq (hroot : disk'.root = disk.root)
    (hdir : disk'.workingDir = disk.workingDir) :
    Grows disk disk' where
  within := by rw [hroot]; exact fun _ _ => id
  links := by rw [hroot]; exact fun _ _ => id
  holds := fun names number hholds => ⟨hholds.isEntry, by rw [hroot]; exact hholds.holds⟩
  workingDir := hdir

theorem holds_iff {names : List Bytes} {number : Nat} : Holds names number disk ↔
    names ≠ [] ∧ (disk.root.at? names).map Node.databaseNumber? = some (some number) := by
  constructor
  · rintro ⟨hentry, hholds⟩
    exact ⟨hentry, Option.map_eq_some_iff.mpr (Option.bind_eq_some_iff.mp hholds)⟩
  · rintro ⟨hentry, hholds⟩
    exact ⟨hentry, Option.bind_eq_some_iff.mpr (Option.map_eq_some_iff.mp hholds)⟩

theorem kindAt_below_of_file_or_none {root : Node} {place rest : List Bytes}
    (hplace : ∀ kind, root.kindAt place = some kind → kind = .file) (hrest : rest ≠ []) :
    root.kindAt (place ++ rest) = none := by
  cases hkind : root.kindAt place with
  | none =>
    rw [Node.kindAt_append, Option.map_eq_none_iff.mp hkind]
    rfl
  | some kind =>
    rw [hplace kind hkind] at hkind
    exact Node.kindAt_below_file hkind hrest

/-- A new node without entries comes where there was nothing but perhaps a file that held no
database, and then it is a file itself. -/
theorem grows_setNode {directory : List Bytes} {name : Bytes} {new : Node}
    (hdirectory : disk.root.kindAt directory = some .directory)
    (hleaf : ∀ name, new.child? name = none) (hlink : ∀ target, new.kind ≠ .link target)
    (hplace : ∀ node, disk.root.at? (directory ++ [name]) = some node →
      node.kind = .file ∧ node.databaseNumber? = none ∧ new.kind = .file) :
    Grows disk (disk.setNode (directory ++ [name]) (some new)) := by
  have hnew : ∀ node ∈ some new, ∀ name, node.child? name = none := by
    rintro node ⟨⟩
    exact hleaf
  have hkind : ∀ kind, disk.root.kindAt (directory ++ [name]) = some kind →
      kind = .file ∧ new.kind = .file := by
    intro kind hkind
    obtain ⟨node, hnode, rfl⟩ := Option.map_eq_some_iff.mp hkind
    exact ⟨(hplace node hnode).1, (hplace node hnode).2.2⟩
  have hbelow : ∀ place, directory ++ [name] <+: place → place ≠ directory ++ [name] →
      disk.root.kindAt place = none := by
    rintro _ ⟨rest, rfl⟩ hne
    exact kindAt_below_of_file_or_none (fun kind hkind' => (hkind kind hkind').1)
      (by simpa using hne)
  refine ⟨fun place kind hplaced => ?_, fun place target hplaced => ?_, fun names number hholds =>
    ?_, rfl⟩
  · rw [setNode, Node.kindAt_setAt hdirectory name hnew]
    split_ifs with hsame hprefix
    · obtain ⟨rfl, hfile⟩ := hkind kind (hsame ▸ hplaced)
      exact congrArg some hfile
    · rw [hbelow place hprefix hsame] at hplaced
      cases hplaced
    · exact hplaced
  · rw [setNode, Node.kindAt_setAt hdirectory name hnew] at hplaced
    split_ifs at hplaced
    · exact absurd (Option.some.inj hplaced) (hlink target)
    · exact hplaced
  · rw [holds_iff] at hholds ⊢
    refine ⟨hholds.1, ?_⟩
    rw [setNode, Node.map_at?_setAt (fun _ _ => rfl) hdirectory name hnew]
    obtain ⟨node, hnode, hnumber⟩ := Option.map_eq_some_iff.mp hholds.2
    split_ifs with hsame hprefix
    · rw [(hplace node (hsame ▸ hnode)).2.1] at hnumber
      cases hnumber
    · have hnothing := hbelow names hprefix hsame
      rw [Node.kindAt, hnode] at hnothing
      cases hnothing
    · exact hholds.2

end Growing

section Making

variable {disk : Disk} {root : Node} {follow : Bool} {links : Nat} {here names place : List Bytes}

theorem isSome_at?_dropLast (h : (root.at? here).isSome) : (root.at? here.dropLast).isSome := by
  by_cases hhere : here = []
  · rw [hhere]
    rfl
  · rw [← List.dropLast_append_getLast hhere, Node.at?_concat] at h
    cases hnode : root.at? here.dropLast with
    | none =>
      rw [hnode] at h
      cases h
    | some node => rfl

/-- Where a path leads to nothing this is the place of an entry that a directory does not have. -/
theorem absent_of_resolveFrom (hstart : names ≠ [] ∨ (root.at? here).isSome)
    (h : resolveFrom root follow links here names = .ok (place, none)) :
    ∃ directory name, place = directory ++ [name] ∧ root.kindAt directory = some .directory ∧
      root.at? place = none := by
  induction links, here, names using travel_induction with
  | nil links here =>
    rw [resolveFrom_nil] at h
    obtain ⟨rfl, hnode⟩ := Prod.mk.inj (Except.ok.inj h)
    rw [hnode] at hstart
    exact absurd hstart (by simp)
  | cons links here name rest ih ihLinks =>
    have hstride := strides root follow here name rest.isEmpty
    generalize hgo : stride root follow here name rest.isEmpty = taken at hstride
    cases hstride with
    | fails e =>
      rw [resolveFrom_of_halt hgo] at h
      cases h
    | keep _ _ _ _ _ _ =>
      rw [resolveFrom_of_halt hgo] at h
      cases h
    | @absent there hhere hdirectory hchild =>
      rw [resolveFrom_of_halt hgo] at h
      obtain ⟨rfl, -⟩ := Prod.mk.inj (Except.ok.inj h)
      refine ⟨here, name, rfl, ?_, ?_⟩
      · rw [Node.kindAt, hhere, Option.map_some,
          (Node.isDirectory_iff there).mp (by simpa using hdirectory)]
      · rw [Node.at?_concat, hhere]
        exact hchild
    | stay hhere _ _ =>
      rw [resolveFrom_of_enter hgo] at h
      exact ih _ (.inr (by rw [hhere]; rfl)) h
    | up hhere _ _ =>
      rw [resolveFrom_of_enter hgo] at h
      exact ih _ (.inr (isSome_at?_dropLast (by rw [hhere]; rfl))) h
    | enter hhere _ _ _ hchild _ =>
      rw [resolveFrom_of_enter hgo] at h
      refine ih _ (.inr ?_) h
      rw [Node.at?_concat, hhere, Option.bind_some, hchild]
      rfl
    | follow hhere _ _ _ _ _ =>
      rw [resolveFrom_of_follow hgo] at h
      cases links with
      | zero => cases h
      | succ links =>
        refine ihLinks links _ _ rfl (.inr ?_) h
        split
        · rfl
        · rw [hhere]
          rfl

theorem grows_makeDirectory (path : Path) (disk : Disk) :
    Grows disk (makeDirectory path disk).2 := by
  simp only [makeDirectory]
  split
  · exact .refl disk
  · exact .refl disk
  · rename_i names hresolve
    obtain ⟨start, -, hfrom⟩ := resolve_eq_ok_iff.mp hresolve
    obtain ⟨directory, name, rfl, hdirectory, hnothing⟩ :=
      absent_of_resolveFrom (.inl (Text.splitOn_ne_nil _ _)) hfrom
    exact grows_setNode hdirectory (fun _ => rfl) (fun _ hlink => by cases hlink)
      (by simp [hnothing])

theorem grows_ensureDirectory (path : Path) (disk : Disk) :
    Grows disk (ensureDirectory path disk).2 :=
  makeDirectories_rel Grows.refl Grows.trans grows_makeDirectory _ path disk

theorem grows_databaseAt {mayCreate : Bool} {number : Nat} {found : Disk} (hnames : names ≠ [])
    (h : databaseAt names mayCreate disk = (.ok number, found)) : Grows disk found := by
  obtain ⟨-, rfl⟩ | ⟨hdirectory, hplace, content, modified, rfl⟩ := databaseAt_eq_ok hnames h
  · exact .refl found
  · have hadded : Grows disk (addDatabase Database.empty disk).2 := .of_root_eq rfl rfl
    refine hadded.trans ?_
    rw [← List.dropLast_append_getLast hnames] at hplace ⊢
    refine grows_setNode hdirectory (fun _ => rfl) (fun _ hlink => by cases hlink) fun node hnode =>
      ?_
    obtain ⟨hkind, hnumber⟩ := hplace node hnode
    exact ⟨hkind, hnumber, rfl⟩

theorem Holds.grows_addBeside {number : Nat} (h : Holds names number disk) {ending : String}
    (hfree : disk.isBlocked names ending = false) :
    Grows disk (Disk.addBeside names ending disk) := by
  rw [Disk.addBeside]
  split
  · exact .refl disk
  · rename_i hnone
    obtain ⟨directory, base, hnames, hbeside⟩ := exists_beside h.isEntry
    rw [hbeside]
    refine grows_setNode (h.kindAt_directory hnames) (fun _ => rfl) (fun _ hlink => by cases hlink)
      fun node hnode => ?_
    rw [hasBeside_iff, hbeside, Node.kindAt, hnode] at hnone
    rw [← Bool.not_eq_true, isBlocked_iff, hbeside, Node.kindAt, hnode] at hfree
    exact absurd ⟨node.kind, rfl, fun hkind => hnone (congrArg some hkind)⟩ hfree

end Making

end CatalogSync.Disk
