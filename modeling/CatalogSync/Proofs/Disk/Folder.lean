import CatalogSync.Disk.Step
import CatalogSync.Proofs.Disk.Ways
import Mathlib.Logic.Function.Basic

namespace CatalogSync

namespace Node

/-- What a file holds. -/
def content? : Node → Option Bytes
  | file data _ => some data.content
  | _ => none

/-- A directory of nothing but files, each with a name of its own. -/
structure IsFolder (files : Bytes → Option Bytes) (node : Node) : Prop where
  names_nodup : ∃ entries, node = directory entries ∧ (entries.map Prod.fst).Nodup
  contents : ∀ name, (node.child? name).map content? = (files name).map some

theorem eq_file_of_content? {child : Option Node} {content : Option Bytes}
    (h : child.map content? = content.map some) {node : Node} (hnode : child = some node) :
    ∃ data modified, node = file data modified := by
  subst hnode
  obtain ⟨bytes, -, hbytes⟩ := Option.map_eq_some_iff.mp h.symm
  cases node with
  | file data modified => exact ⟨data, modified, rfl⟩
  | _ => cases hbytes

theorem isFolder_empty : IsFolder (fun _ => none) (directory []) :=
  ⟨⟨[], rfl, List.nodup_nil⟩, fun _ => rfl⟩

variable {files : Bytes → Option Bytes} {node : Node}

theorem setChild_nodup {entries : List (Bytes × Node)} (h : (entries.map Prod.fst).Nodup)
    (name : Bytes) (new : Option Node) :
    ∃ entries', (directory entries).setChild name new = directory entries' ∧
      (entries'.map Prod.fst).Nodup := by
  cases new with
  | none =>
    refine ⟨_, rfl, ?_⟩
    exact h.sublist (List.filter_sublist.map _)
  | some node =>
    simp only [setChild]
    split
    · rename_i hlength
      have hnew : ∀ entry ∈ entries, entry.1 ≠ name := by
        simpa using hlength
      refine ⟨_, rfl, ?_⟩
      rw [List.map_append, List.map_singleton, List.nodup_append]
      refine ⟨h, List.nodup_singleton _, ?_⟩
      simpa using hnew
    · refine ⟨_, rfl, ?_⟩
      have hnames : (entries.map fun entry => if entry.1 = name then (name, node) else entry).map
          Prod.fst = entries.map Prod.fst := by
        rw [List.map_map]
        refine List.map_congr_left fun entry _ => ?_
        by_cases hentry : entry.1 = name <;> simp [hentry]
      rwa [hnames]

theorem IsFolder.setChild (h : IsFolder files node) (name : Bytes) {new : Option Node}
    {content : Option Bytes} (hnew : new.map content? = content.map some) :
    IsFolder (Function.update files name content) (node.setChild name new) := by
  obtain ⟨⟨entries, rfl, hnodup⟩, hcontents⟩ := h
  refine ⟨setChild_nodup hnodup name new, fun other => ?_⟩
  rw [child?_setChild, Function.update_apply]
  split
  · exact hnew
  · exact hcontents other

theorem IsFolder.mem_names_iff {entries : List (Bytes × Node)}
    (h : IsFolder files (directory entries))
    (name : Bytes) : name ∈ entries.map Prod.fst ↔ (files name).isSome := by
  have hcontent := congrArg Option.isSome (h.contents name)
  rw [Option.isSome_map, Option.isSome_map, child?, Option.isSome_map] at hcontent
  rw [← hcontent, List.find?_isSome]
  simp

theorem at?_setAt_directory {place : List Bytes} {root : Node} (h : root.at? place = some node)
    (name : Bytes) (new : Option Node) :
    (root.setAt (place ++ [name]) new).at? place = some (node.setChild name new) := by
  induction place generalizing root with
  | nil =>
    obtain rfl := Option.some.inj h
    rfl
  | cons first rest ih =>
    obtain ⟨child, hchild, hrest⟩ := Option.bind_eq_some_iff.mp h
    obtain ⟨entries, rfl⟩ := eq_directory_of_child? hchild
    rw [List.cons_append, setAt_cons first (by simp), hchild]
    simp only [at?, child?_setChild, if_true, Option.bind_some]
    exact ih hrest

end Node

namespace Disk

/-- At a place that is the same as in `start` there are these files, and beside it nothing has
changed that a path could show. -/
structure IsFiled (start : Disk) (place : List Bytes) (files : Bytes → Option Bytes) (disk : Disk) :
    Prop where
  sparser : Node.Sparser start.root disk.root
  workingDir : disk.workingDir = start.workingDir
  folder : ∃ node, disk.root.at? place = some node ∧ node.IsFolder files

theorem writeFile_of_resolve {disk : Disk} {path : Path} {names : List Bytes} {there : Option Node}
    (hresolve : disk.resolve true path = .ok (names, there))
    (hplain : ∀ entries, there ≠ some (.directory entries)) (content : Bytes)
    (modified : Option FileTime) :
    writeFile path content modified disk =
      (.ok (), overwriteDatabase content (there.bind Node.databaseNumber?)
        { disk.setNode names (some (.file ⟨content, there.bind Node.databaseNumber?⟩
            (modified.getD disk.now))) with writes := disk.writes + 1 }) := by
  rw [writeFile, hresolve]
  cases there with
  | none => rfl
  | some node =>
    cases node with
    | directory entries => exact absurd rfl (hplain entries)
    | _ => rfl

theorem writeFile_of_long {path : Path} (hlong : Path.maxLength < path.length) (content : Bytes)
    (modified : Option FileTime) (disk : Disk) :
    ∃ e, writeFile path content modified disk = (.error e, disk) := by
  cases hresolve : disk.resolve true path with
  | error e => exact ⟨e, by rw [writeFile, hresolve]⟩
  | ok found =>
    obtain ⟨_, hstart, -⟩ := resolve_eq_ok_iff.mp hresolve
    exact absurd (startOf_eq_ok_iff.mp hstart).2.2.1 (Nat.not_le.mpr hlong)

namespace IsFiled

variable {start disk disk' : Disk} {directory name path : Bytes} {place : List Bytes}
  {files : Bytes → Option Bytes}

theorem congr (h : IsFiled start place files disk) (hroot : disk'.root = disk.root)
    (hworkingDir : disk'.workingDir = disk.workingDir) : IsFiled start place files disk' :=
  ⟨hroot ▸ h.sparser, hworkingDir.trans h.workingDir, hroot ▸ h.folder⟩

section Place

variable (hstart : start.resolve true directory = .ok (place, some (.directory [])))
include hstart

theorem of_start : IsFiled start place (fun _ => none) start := by
  obtain ⟨_, _, hresolve⟩ := resolve_eq_ok_iff.mp hstart
  exact ⟨.refl _, rfl, .directory [], (exists_way hresolve).2, Node.isFolder_empty⟩

theorem resolve_directory (h : IsFiled start place files disk) :
    ∃ entries, disk.resolve true directory = .ok (place, some (.directory entries)) ∧
      (Node.directory entries).IsFolder files := by
  obtain ⟨from_, hfrom, hresolve⟩ := resolve_eq_ok_iff.mp hstart
  obtain ⟨node, hnode, -⟩ := resolveFrom_of_within h.sparser.within hresolve
  obtain ⟨node', hplace, hfolder⟩ := h.folder
  obtain rfl : node = node' := Option.some.inj ((exists_way hnode).2.symm.trans hplace)
  obtain ⟨entries, rfl, -⟩ := hfolder.names_nodup
  refine ⟨entries, resolve_eq_ok_iff.mpr ⟨from_, ?_, hnode⟩, hfolder⟩
  rw [startOf_eq_ok_iff] at hfrom ⊢
  rwa [h.workingDir]

theorem kindAt_entry_start (name : Bytes) : start.root.kindAt (place ++ [name]) = none := by
  obtain ⟨_, _, hresolve⟩ := resolve_eq_ok_iff.mp hstart
  rw [Node.kindAt, Node.at?_concat, (exists_way hresolve).2]
  rfl

theorem setNode (h : IsFiled start place files disk) (name : Bytes) (new : Option Node)
    (content : Option Bytes) (hnew : new.map Node.content? = content.map some) :
    IsFiled start place (Function.update files name content)
      (disk.setNode (place ++ [name]) new) := by
  obtain ⟨node, hplace, hfolder⟩ := h.folder
  obtain ⟨entries, rfl, -⟩ := hfolder.names_nodup
  have hdirectory : disk.root.kindAt place = some .directory := by
    rw [Node.kindAt, hplace]
    rfl
  have hkind : ∀ node ∈ new, node.kind = .file := by
    intro node hnode
    obtain ⟨data, modified, rfl⟩ := Node.eq_file_of_content? hnew hnode
    rfl
  have hnothing := kindAt_entry_start hstart name
  refine ⟨?_, h.workingDir, _, Node.at?_setAt_directory hplace name new, hfolder.setChild name hnew⟩
  -- Nothing was at the place of the entry or below it, so whatever is put there leaves the old
  -- kinds alone.
  intro other
  rw [Disk.setNode, Node.kindAt_setAt hdirectory name fun node hnode =>
    Node.child?_of_kind (by simp [hkind node hnode])]
  split
  · rename_i hother
    subst hother
    cases new with
    | none => exact .inl hnothing
    | some node => exact .inr ⟨congrArg some (hkind node rfl), hnothing⟩
  · split
    · rename_i hbelow
      obtain ⟨rest, rfl⟩ := hbelow
      left
      rw [Node.kindAt_append, Option.map_eq_none_iff.mp hnothing]
      rfl
    · exact h.sparser other

theorem readDirectory (h : IsFiled start place files disk) :
    ∃ names, disk.readDirectory directory = .ok names ∧ names.Nodup ∧
      ∀ name, name ∈ names ↔ (files name).isSome := by
  obtain ⟨entries, hresolve, hfolder⟩ := h.resolve_directory hstart
  refine ⟨entries.map Prod.fst, ?_, ?_, hfolder.mem_names_iff⟩
  · rw [Disk.readDirectory, Disk.node?, hresolve]
  · obtain ⟨_, heq, hnodup⟩ := hfolder.names_nodup
    obtain rfl := Node.directory.inj heq
    exact hnodup

end Place

section Entry

variable (hstart : start.resolve true directory = .ok (place, some (.directory [])))
  (h : IsFiled start place files disk) (hentry : IsEntry directory name path)
include hstart h hentry

theorem resolve_entry (follow : Bool) :
    ∃ child, disk.resolve follow path = .ok (place ++ [name], child) ∧
    disk.entryAt path = .ok (place ++ [name], child) ∧
      child.map Node.content? = (files name).map some := by
  obtain ⟨entries, hresolve, hfolder⟩ := h.resolve_directory hstart
  have hcontent := hfolder.contents name
  have hlink : ∀ target, (Node.directory entries).child? name ≠ some (.link target) := by
    intro target htarget
    obtain ⟨_, _, hfile⟩ := Node.eq_file_of_content? hcontent htarget
    cases hfile
  exact ⟨_, Disk.resolve_entry hentry hresolve hlink,
    entryAt_entry hentry hresolve, hcontent⟩

theorem contentOf_eq_ok {content : Bytes} (hfile : files name = some content) :
    disk.contentOf path = .ok content := by
  obtain ⟨child, hresolve, -, hcontent⟩ := h.resolve_entry hstart hentry true
  rw [hfile] at hcontent
  obtain ⟨node, rfl, hnode⟩ := Option.map_eq_some_iff.mp hcontent
  rw [contentOf, node?, hresolve]
  cases node with
  | file data modified => exact congrArg Except.ok (Option.some.inj hnode)
  | _ => cases hnode

theorem node?_eq_error (hfile : files name = none) : disk.node? path = .error .notFound := by
  obtain ⟨child, hresolve, -, hcontent⟩ := h.resolve_entry hstart hentry true
  rw [hfile] at hcontent
  obtain rfl := Option.map_eq_none_iff.mp hcontent
  rw [node?, hresolve]

theorem exists_node? (hfile : (files name).isSome) : ∃ node, disk.node? path = .ok node := by
  obtain ⟨child, hresolve, -, hcontent⟩ := h.resolve_entry hstart hentry true
  obtain ⟨content, hcontent'⟩ := Option.isSome_iff_exists.mp hfile
  rw [hcontent'] at hcontent
  obtain ⟨node, rfl, -⟩ := Option.map_eq_some_iff.mp hcontent
  exact ⟨node, by rw [node?, hresolve]⟩

theorem contentOf_eq_error (hfile : files name = none) :
    disk.contentOf path = .error .notFound := by
  rw [contentOf, h.node?_eq_error hstart hentry hfile]

theorem writeFile (content : Bytes) (modified : Option FileTime) :
    ∃ disk', Disk.writeFile path content modified disk = (.ok (), disk') ∧
      IsFiled start place (Function.update files name (some content)) disk' := by
  obtain ⟨child, hresolve, -, hcontent⟩ := h.resolve_entry hstart hentry true
  have hplain : ∀ entries, child ≠ some (.directory entries) := by
    intro entries hentries
    obtain ⟨_, _, hfile⟩ := Node.eq_file_of_content? hcontent hentries
    cases hfile
  have hfiled := h.setNode hstart name (some (.file ⟨content, child.bind Node.databaseNumber?⟩
    (modified.getD disk.now))) (some content) rfl
  refine ⟨_, writeFile_of_resolve hresolve hplain content modified, hfiled.congr ?_ ?_⟩
  · cases child.bind Node.databaseNumber? <;> rfl
  · cases child.bind Node.databaseNumber? <;> rfl

theorem removeFile {content : Bytes} (hfile : files name = some content) :
    ∃ disk', Disk.removeFile path disk = (.ok (), disk') ∧
      IsFiled start place (Function.update files name none) disk' := by
  obtain ⟨child, hresolve, -, hcontent⟩ := h.resolve_entry hstart hentry false
  rw [hfile] at hcontent
  obtain ⟨node, rfl, hnode⟩ := Option.map_eq_some_iff.mp hcontent
  cases node with
  | file data modified =>
    rw [Disk.removeFile, hresolve]
    exact ⟨_, rfl, h.setNode hstart name none none rfl⟩
  | _ => cases hnode

theorem removeFile_of_none (hfile : files name = none) :
    Disk.removeFile path disk = (.error .notFound, disk) := by
  obtain ⟨child, hresolve, -, hcontent⟩ := h.resolve_entry hstart hentry false
  rw [hfile] at hcontent
  obtain rfl := Option.map_eq_none_iff.mp hcontent
  rw [Disk.removeFile, hresolve]

end Entry

section Renaming

variable {sourceName targetName content : Bytes} {source target : Path}

theorem rename (hstart : start.resolve true directory = .ok (place, some (.directory [])))
    (h : IsFiled start place files disk) (hsource : IsEntry directory sourceName source)
    (htarget : IsEntry directory targetName target) (hne : sourceName ≠ targetName)
    (hfile : files sourceName = some content) :
    ∃ disk', Disk.rename source target disk = (.ok (), disk') ∧
      IsFiled start place
        (Function.update (Function.update files sourceName none) targetName (some content))
          disk' := by
  obtain ⟨child, -, hentry, hcontent⟩ := h.resolve_entry hstart hsource true
  obtain ⟨there, -, hgoal, hthere⟩ := h.resolve_entry hstart htarget true
  rw [hfile] at hcontent
  obtain ⟨node, rfl, hnode⟩ := Option.map_eq_some_iff.mp hcontent
  obtain ⟨data, modified, rfl⟩ := Node.eq_file_of_content? hcontent rfl
  have hslash := hsource.endsInSlash_eq_false
  have hslash' := htarget.endsInSlash_eq_false
  have hplaces : place ++ [sourceName] ≠ place ++ [targetName] := by simpa using hne
  have hfault : renameFault? (place ++ [sourceName]) (place ++ [targetName])
      (.file data modified) there = none := by
    cases there with
    | none => rfl
    | some node =>
      obtain ⟨_, _, rfl⟩ := Node.eq_file_of_content? hthere rfl
      rfl
  have hremoved := h.setNode hstart sourceName none none rfl
  have hmoved := hremoved.setNode hstart targetName (some (.file data modified)) (some content)
    (congrArg some hnode)
  exact ⟨_, by simp [Disk.rename, hentry, hgoal, hslash, hslash', hplaces, hfault], hmoved⟩

end Renaming

end IsFiled

end Disk

end CatalogSync
