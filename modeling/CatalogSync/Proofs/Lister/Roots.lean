import CatalogSync.Proofs.Disk.Ways
import CatalogSync.Proofs.Lister.Scan
import CatalogSync.Proofs.Lister.Locate

namespace CatalogSync

theorem Text.trimEnd_concat {α : Type} [DecidableEq α] (c : α) (list : List α) :
    trimEnd c (list ++ [c]) = trimEnd c list := by
  simp [trimEnd]

namespace DirectoryLister

def slashes (count : Nat) : String :=
  String.ofList (List.replicate count '/')

/-- A spelling of a root: with slashes behind it, as a path or as a location. -/
inductive Spells (root : String) : String → Prop where
  | path (count : Nat) : Spells root (root ++ slashes count)
  | location (count : Nat) : Spells root (scheme ++ (root ++ slashes count))

theorem slashes_succ (count : Nat) : slashes (count + 1) = slashes count ++ "/" := by
  rw [← String.toList_inj, slashes, List.replicate_succ']
  simp [slashes]

section Spelling

variable {root spelling : String}

theorem Spells.self (root : String) : Spells root root := by
  have hself : Spells root (root ++ slashes 0) := .path 0
  rwa [show slashes 0 = "" from rfl, String.append_empty] at hself

theorem head?_append_slashes (hroot : root.toList.head? = some '/') (count : Nat) :
    (root ++ slashes count).toList.head? = some '/' := by
  rw [String.toList_append, List.head?_append, hroot, Option.some_or]

theorem rootPath_of_slash (h : root.toList.head? = some '/') : rootPath root = root := by
  have hnone : Text.stripStart? scheme root = none := by
    refine Option.eq_none_iff_forall_ne_some.mpr fun rest hrest => ?_
    rw [Text.stripStart?_eq_some.mp hrest, String.toList_append] at h
    exact absurd h (by simp [scheme])
  rw [rootPath, hnone, Option.getD_none]

theorem rootPath_scheme (root : String) : rootPath (scheme ++ root) = root := by
  rw [rootPath, Text.stripStart?_eq_some.mpr rfl, Option.getD_some]

theorem Spells.rootPath_eq (h : Spells root spelling) (hroot : root.toList.head? = some '/') :
    ∃ count, rootPath spelling = root ++ slashes count := by
  cases h with
  | path count => exact ⟨count, rootPath_of_slash (head?_append_slashes hroot count)⟩
  | location count => exact ⟨count, rootPath_scheme _⟩

end Spelling

section Locating

variable {cs : List Char}

theorem trimEnd_push_nil (base : List Char) :
    Text.trimEnd '/' (push base []) = Text.trimEnd '/' base := by
  rw [push]
  split
  · rw [List.append_nil]
  · exact Text.trimEnd_concat '/' base

theorem pathNames_concat (cs : List Char) : pathNames (cs ++ ['/']) = pathNames cs := by
  rw [pathNames, Text.splitOn_append, List.filter_append]
  exact List.append_nil _

theorem anchor_concat (workingDir : String) (h : cs.head? = some '/') :
    anchor workingDir (cs ++ ['/']) = anchor workingDir cs ∨ pathNames cs = [] := by
  match cs with
  | [] => cases h
  | [c] =>
    obtain rfl := Option.some.inj h
    exact .inr rfl
  | [c, d] =>
    obtain rfl := Option.some.inj h
    by_cases hd : d = '/'
    · subst hd
      exact .inr rfl
    · exact .inl (by simp [anchor, hd])
  | c :: d :: e :: rest => exact .inl rfl

theorem trimEnd_anchor (workingDir : String) (h : cs.head? = some '/') :
    Text.trimEnd '/' (anchor workingDir cs) = [] := by
  rw [anchor, if_neg (not_not.mpr h)]
  split <;> rfl

/-- What all spellings of a root come to. -/
def base (workingDir : String) (cs : List Char) : List Char :=
  Text.trimEnd '/' ((pathNames cs).foldl push (anchor workingDir cs))

theorem base_concat (workingDir : String) (h : cs.head? = some '/') :
    base workingDir (cs ++ ['/']) = base workingDir cs := by
  rw [base, base, pathNames_concat]
  rcases anchor_concat workingDir h with hanchor | hnames
  · rw [hanchor]
  · have hconcat : (cs ++ ['/']).head? = some '/' := by rw [List.head?_append, h, Option.some_or]
    rw [hnames, List.foldl_nil, List.foldl_nil, trimEnd_anchor workingDir h,
      trimEnd_anchor workingDir hconcat]

theorem base_append_slashes (workingDir : String) {root : String}
    (hroot : root.toList.head? = some '/') (count : Nat) :
    base workingDir (root ++ slashes count).toList = base workingDir root.toList := by
  induction count with
  | zero => rw [show slashes 0 = "" from rfl, String.append_empty]
  | succ count ih =>
    rw [slashes_succ, ← String.append_assoc, String.toList_append]
    exact (base_concat workingDir (head?_append_slashes hroot count)).trans ih

theorem trimEnd_absolute? (workingDir : String) {path : String} (h : path.toList.head? = some '/') :
    Text.trimEnd '/' ((absolute? workingDir path).getD []) = base workingDir path.toList := by
  have hempty : path.toList.isEmpty = false := by
    rw [List.isEmpty_eq_false_iff]
    intro hnil
    rw [hnil] at h
    cases h
  rw [absolute?, hempty, if_neg Bool.false_ne_true, Option.getD_some]
  split
  · exact trimEnd_push_nil _
  · rfl

theorem locate_of_spells {root spelling : String} (hroot : root.toList.head? = some '/')
    (h : Spells root spelling) (workingDir path : String) :
    locate workingDir spelling path =
      scheme ++ String.ofList (base workingDir root.toList) ++ "/" ++ path := by
  obtain ⟨count, hpath⟩ := h.rootPath_eq hroot
  rw [locate, hpath, trimEnd_absolute? workingDir (head?_append_slashes hroot count),
    base_append_slashes workingDir hroot count]

end Locating

end DirectoryLister

/-- The names that lead through a tree to a regular file, links not followed. -/
inductive Node.HasFile : Node → List Bytes → Prop where
  | here {data : FileData} {modified : FileTime} : HasFile (.file data modified) []
  | inside {entries : List (Bytes × Node)} {name : Bytes} {node : Node} {names : List Bytes}
      (hentry : (name, node) ∈ entries) (hfile : node.HasFile names) :
      HasFile (.directory entries) (name :: names)

mutual

theorem Node.hasFile_of_mem_walk {path : Path} {names shown : List Bytes}
    {metadata : Except WalkError Metadata} (node : Node)
    (h : .entry shown true metadata ∈ node.walk path names) :
    ∃ rest, shown = names ++ rest ∧ node.HasFile rest := by
  cases node with
  | file data modified =>
    rw [Node.walk, List.mem_singleton] at h
    cases h
    exact ⟨[], (List.append_nil names).symm, .here⟩
  | link target =>
    rw [Node.walk, List.mem_singleton] at h
    cases h
  | directory entries =>
    rw [Node.walk, List.mem_cons] at h
    rcases h with h | h
    · cases h
    · split at h
      · rw [List.mem_singleton] at h
        cases h
      · obtain ⟨name, node, rest, hentry, hshown, hfile⟩ :=
          Node.hasFile_of_mem_walkEntries entries h
        exact ⟨name :: rest, hshown, .inside hentry hfile⟩

theorem Node.hasFile_of_mem_walkEntries {path : Path} {names shown : List Bytes}
    {metadata : Except WalkError Metadata} (entries : List (Bytes × Node))
    (h : .entry shown true metadata ∈ Node.walkEntries path names entries) :
    ∃ name node rest, (name, node) ∈ entries ∧ shown = names ++ name :: rest ∧
      Node.HasFile node rest := by
  cases entries with
  | nil => cases h
  | cons entry entries =>
    obtain ⟨name, node⟩ := entry
    rw [Node.walkEntries, List.mem_append] at h
    rcases h with h | h
    · obtain ⟨rest, hshown, hfile⟩ := Node.hasFile_of_mem_walk node h
      exact ⟨name, node, rest, List.mem_cons_self, by rw [hshown, List.append_assoc]; rfl, hfile⟩
    · obtain ⟨other, node, rest, hentry, hshown, hfile⟩ := Node.hasFile_of_mem_walkEntries entries h
      exact ⟨other, node, rest, List.mem_cons_of_mem _ hentry, hshown, hfile⟩

end

namespace Disk

variable {disk : Disk} {node : Node} {path : Path}

theorem node?_eq_ok_iff :
    disk.node? path = .ok node ↔ ∃ place, disk.resolve true path = .ok (place, some node) := by
  rw [node?]
  split
  · rename_i place found hresolve
    simp [hresolve]
  · rename_i place hresolve
    simp [hresolve]
  · rename_i e hresolve
    simp [hresolve]

theorem Way.resolveFrom_eq {root : Node} {links left : Nat} {here names place : List Bytes}
    (h : Way root links here names left place) :
    resolveFrom root true links here names = .ok (place, root.at? place) := by
  induction h with
  | done => exact resolveFrom_nil
  | stay hhere hdirectory hname _ ih =>
    rw [resolveFrom_of_enter (stride_stay hhere hdirectory hname), ih]
  | up hhere hdirectory _ ih => rw [resolveFrom_of_enter (stride_up hhere hdirectory), ih]
  | follow hhere hname hdots hlong hchild _ ih =>
    rw [resolveFrom_of_follow ((stride_of_link hhere hname hdots hlong hchild).trans
      (if_neg fun hlast => by cases hlast.2))]
    exact ih
  | enter hhere hname hdots hlong hchild hlink _ ih =>
    rw [resolveFrom_of_enter (stride_of_no_link hhere hname hdots hlong hchild hlink), ih]

theorem node?_of_concat (habsolute : Path.isAbsolute path = true)
    (h : disk.node? (path ++ [Path.slash]) = .ok node) : disk.node? path = .ok node := by
  obtain ⟨place, hresolve⟩ := node?_eq_ok_iff.mp h
  obtain ⟨start, hstart, hfrom⟩ := resolve_eq_ok_iff.mp hresolve
  rw [rawNames_append] at hfrom
  obtain ⟨⟨left, hway⟩, hnode⟩ := exists_way hfrom
  refine node?_eq_ok_iff.mpr ⟨place, resolve_eq_ok_iff.mpr ⟨start, ?_, ?_⟩⟩
  · obtain ⟨-, hnull, hlength, rfl⟩ := startOf_eq_ok_iff.mp hstart
    rw [List.mem_append, not_or] at hnull
    rw [List.length_append] at hlength
    obtain ⟨c, rest, rfl⟩ : ∃ c rest, path = c :: rest := by
      cases path with
      | nil => cases habsolute
      | cons c rest => exact ⟨c, rest, rfl⟩
    exact startOf_eq_ok_iff.mpr ⟨List.cons_ne_nil _ _, hnull.1, Nat.le_of_add_right_le hlength, rfl⟩
  · rw [hway.of_slash.resolveFrom_eq, hnode]

end Disk

namespace DirectoryLister

variable {root spelling : String} {disk : Disk} {listing : List ListingEntry}

theorem node?_append_slashes {node : Node} (hroot : root.toList.head? = some '/') (count : Nat)
    (h : disk.node? (Bytes.ofText (root ++ slashes count)) = .ok node) :
    disk.node? (Bytes.ofText root) = .ok node := by
  induction count with
  | zero => rwa [show slashes 0 = "" from rfl, String.append_empty] at h
  | succ count ih =>
    rw [slashes_succ, ← String.append_assoc, Bytes.ofText_append] at h
    refine ih (Disk.node?_of_concat ?_ h)
    obtain ⟨rest, hrest⟩ : ∃ rest, (root ++ slashes count).toList = '/' :: rest := by
      have hhead := head?_append_slashes hroot count
      cases hcs : (root ++ slashes count).toList with
      | nil => rw [hcs] at hhead; cases hhead
      | cons c rest => rw [hcs] at hhead; cases hhead; exact ⟨rest, rfl⟩
    rw [← String.ofList_toList (s := root ++ slashes count), hrest, Bytes.ofText_ofList]
    rfl

/-- Under whatever spelling a root is listed, what is listed are files of the tree that is there. -/
theorem exists_file_of_list (hroot : root.toList.head? = some '/') (hspells : Spells root spelling)
    (h : (list spelling disk).1 = .ok listing) {entry : ListingEntry} (hentry : entry ∈ listing) :
    ∃ node names, disk.node? (Bytes.ofText root) = .ok node ∧ node.HasFile names ∧
      Bytes.ofText entry.path = WalkItem.pathOf names := by
  obtain ⟨count, hpath⟩ := hspells.rootPath_eq hroot
  rw [list, hpath] at h
  have hends := ends_scan (root ++ slashes count)
    (disk.isDirectory (Bytes.ofText (root ++ slashes count)))
    (disk.walk (Bytes.ofText (root ++ slashes count)))
  rw [joined_eq_ok_iff.mp h] at hends
  obtain ⟨hdirectory, hshows⟩ := hends.shows
  obtain ⟨names, metadata, hitem, htells⟩ := hshows.exists_item hentry
  cases hnode : disk.node? (Bytes.ofText (root ++ slashes count)) with
  | error e =>
    rw [Disk.isDirectory, hnode] at hdirectory
    cases hdirectory
  | ok node =>
    rw [Disk.walk, hnode] at hitem
    obtain ⟨rest, rfl, hfile⟩ := Node.hasFile_of_mem_walk node hitem
    exact ⟨node, _, node?_append_slashes hroot count hnode, hfile, htells.path⟩

end DirectoryLister

end CatalogSync
