import CatalogSync.Proofs.Disk.Paths

namespace CatalogSync.Disk

open Node (Sparser)

theorem get_databaseFile_set (number other : Nat) (file : DatabaseFile) (disk : Disk) :
    (databaseFile other).get ((databaseFile number).set file disk) =
      if other = number ∧ number < disk.databases.length then file
      else (databaseFile other).get disk := by
  simp only [databaseFile, Part.item, List.getElem?_set]
  split
  · rename_i h
    subst h
    by_cases hlt : number < disk.databases.length <;> simp [hlt]
  · rename_i h
    simp [Ne.symm h]

@[simp] theorem length_set_databaseFile (number : Nat) (file : DatabaseFile) (disk : Disk) :
    ((databaseFile number).set file disk).databases.length = disk.databases.length :=
  List.length_set

/-- A disk with the same directories and links as a full one, and no other files. -/
structure SparserThan (full disk : Disk) : Prop where
  root : Sparser disk.root full.root
  workingDir : disk.workingDir = full.workingDir

theorem SparserThan.databaseNames? {full disk : Disk} (h : SparserThan full disk) {path : Path}
    {names : List Bytes} (hfull : full.databaseNames? path = some names) :
    disk.databaseNames? path = some names := by
  rw [Disk.databaseNames?, Option.filter_eq_some_iff] at hfull ⊢
  rw [h.workingDir]
  exact ⟨plainNames?_of_sparser h.root hfull.1, hfull.2⟩

theorem isBlocked_iff (disk : Disk) (names : List Bytes) (ending : String) :
    disk.isBlocked names ending = true ↔
      ∃ kind, disk.root.kindAt (beside names ending) = some kind ∧ kind ≠ .file := by
  rw [isBlocked, Node.kindAt]
  cases disk.root.at? (beside names ending) with
  | none => simp
  | some node => cases node <;> simp [Node.kind]

theorem SparserThan.isBlocked {full disk : Disk} (h : SparserThan full disk) {names : List Bytes}
    {ending : String} (hfull : full.isBlocked names ending = false) :
    disk.isBlocked names ending = false := by
  rw [← Bool.not_eq_true, isBlocked_iff] at hfull ⊢
  rintro ⟨kind, hkind, hfile⟩
  exact hfull ⟨kind, h.root.within _ _ hkind, hfile⟩

theorem hasBeside_iff (disk : Disk) (names : List Bytes) (ending : String) :
    disk.hasBeside names ending = true ↔ disk.root.kindAt (beside names ending) = some .file := by
  rw [hasBeside, Node.kindAt]
  cases disk.root.at? (beside names ending) with
  | none => simp
  | some node => cases node <;> simp [Node.kind]

theorem ofText_ne_nil {text : String} (h : text ≠ "") : Bytes.ofText text ≠ [] :=
  fun hnil => h (Bytes.ofText_inj.mp hnil)

theorem databases_addBeside (names : List Bytes) (ending : String) (disk : Disk) :
    (addBeside names ending disk).databases = disk.databases := by
  rw [addBeside]
  split <;> rfl

theorem databases_removeBeside (names : List Bytes) (ending : String) (disk : Disk) :
    (removeBeside names ending disk).databases = disk.databases := by
  rw [removeBeside]
  split <;> rfl

@[simp] theorem get_databaseFile_addBeside (number : Nat) (names : List Bytes) (ending : String)
    (disk : Disk) :
    (databaseFile number).get (addBeside names ending disk) = (databaseFile number).get disk := by
  simp only [databaseFile, Part.item, databases_addBeside]

@[simp] theorem get_databaseFile_removeBeside (number : Nat) (names : List Bytes)
    (ending : String) (disk : Disk) :
    (databaseFile number).get (removeBeside names ending disk) =
      (databaseFile number).get disk := by
  simp only [databaseFile, Part.item, databases_removeBeside]

theorem get_database (number : Nat) (disk : Disk) :
    (database number).get disk = ((databaseFile number).get disk).tables := rfl

theorem exists_beside {names : List Bytes} (h : names ≠ []) :
    ∃ directory base, names = directory ++ [base] ∧
      ∀ ending, beside names ending = directory ++ [base ++ Bytes.ofText ending] := by
  refine ⟨names.dropLast, names.getLast h, (List.dropLast_append_getLast h).symm, fun ending => ?_⟩
  rw [beside, List.getLast?_eq_some_getLast h]

/-- A disk with a database in the file at some names. -/
structure Holds (names : List Bytes) (number : Nat) (disk : Disk) : Prop where
  isEntry : names ≠ []
  holds : (disk.root.at? names).bind Node.databaseNumber? = some number

namespace Holds

variable {disk : Disk} {names : List Bytes} {number : Nat} (h : Holds names number disk)
include h

theorem exists_file :
    ∃ content modified, disk.root.at? names = some (.file ⟨content, some number⟩ modified) := by
  obtain ⟨node, hnode, hnumber⟩ := Option.bind_eq_some_iff.mp h.holds
  cases node with
  | file data modified =>
    obtain ⟨content, database⟩ := data
    cases hnumber
    exact ⟨content, modified, hnode⟩
  | _ => cases hnumber

theorem databaseAt (mayCreate : Bool) : databaseAt names mayCreate disk = (.ok number, disk) := by
  obtain ⟨content, modified, hfile⟩ := h.exists_file
  rw [Disk.databaseAt, hfile]

theorem kindAt_directory {directory : List Bytes} {base : Bytes}
    (hnames : names = directory ++ [base]) :
    disk.root.kindAt directory = some .directory := by
  obtain ⟨content, modified, hfile⟩ := h.exists_file
  have hkind : disk.root.kindAt (directory ++ [base]) = some .file := by
    rw [Node.kindAt, ← hnames, hfile]
    rfl
  exact Node.kindAt_directory_of_some base hkind

theorem setNode_beside {ending : String} (hending : Bytes.ofText ending ≠ [])
    (new : Option Node) : Holds names number (disk.setNode (beside names ending) new) := by
  refine ⟨h.isEntry, ?_⟩
  obtain ⟨directory, base, hnames, hbeside⟩ := exists_beside h.isEntry
  have hne : base ++ Bytes.ofText ending ≠ base := by simpa using hending
  rw [setNode, hbeside, Node.at?_setAt_of_not_prefix new ?_ ?_, h.holds]
  · intro hbelow
    rw [hnames] at hbelow
    exact hne (by simpa using hbelow.eq_of_length (by simp))
  · intro hbelow
    rw [hnames] at hbelow
    exact hne (by simpa using (hbelow.eq_of_length (by simp)).symm)

theorem addBeside {ending : String} (hending : Bytes.ofText ending ≠ []) :
    Holds names number (addBeside names ending disk) := by
  rw [Disk.addBeside]
  split
  · exact h
  · exact h.setNode_beside hending _

theorem kindAt_addBeside (ending ending' : String) :
    (Disk.addBeside names ending disk).root.kindAt (beside names ending') =
      if beside names ending' = beside names ending then some .file
      else disk.root.kindAt (beside names ending') := by
  rw [Disk.addBeside]
  split
  · rename_i hthere
    split
    · rename_i hsame
      rw [hsame, ← hasBeside_iff, hthere]
    · rfl
  · obtain ⟨directory, base, hnames, hplaces⟩ := exists_beside h.isEntry
    rw [setNode, hplaces, hplaces, Node.kindAt_setAt (h.kindAt_directory hnames) _
      fun node hnode => Node.child?_of_kind (by cases hnode; simp [Node.kind])]
    split
    · rfl
    · rename_i hne
      exact if_neg fun hbelow => hne (hbelow.eq_of_length (by simp)).symm

theorem hasBeside_addBeside {ending ending' : String}
    (hbeside : ending' = ending ∨ disk.hasBeside names ending' = true) :
    (Disk.addBeside names ending disk).hasBeside names ending' = true := by
  rw [hasBeside_iff, h.kindAt_addBeside]
  split
  · rfl
  · rename_i hne
    exact (hasBeside_iff ..).mp (hbeside.resolve_left fun heq => hne (by rw [heq]))

theorem isBlocked_addBeside {ending ending' : String}
    (hfree : disk.isBlocked names ending' = false) :
    (Disk.addBeside names ending disk).isBlocked names ending' = false := by
  rw [← Bool.not_eq_true, isBlocked_iff] at hfree ⊢
  rw [h.kindAt_addBeside]
  split
  · simp
  · exact hfree

end Holds

/-- A disk with a sound database in its file, sparser than a full one; no log of another database is
in use. -/
structure Hosting (full : Disk) (names : List Bytes) (number : Nat) (disk : Disk) : Prop
    extends Holds names number disk where
  isSparser : SparserThan full disk
  isKept : number < disk.databases.length
  isSound : ((databaseFile number).get disk).legibility = .sound
  others : ∀ other, other ≠ number → ((databaseFile other).get disk).logInUse = none

namespace Hosting

variable {full disk : Disk} {names : List Bytes} {number : Nat}

theorem setFile (h : Hosting full names number disk) (file : DatabaseFile)
    (hsound : file.legibility = .sound) :
    Hosting full names number ((databaseFile number).set file disk) where
  isEntry := h.isEntry
  holds := h.holds
  isSparser := ⟨h.isSparser.root, h.isSparser.workingDir⟩
  isKept := by rw [length_set_databaseFile]; exact h.isKept
  isSound := by rw [get_databaseFile_set, if_pos ⟨rfl, h.isKept⟩]; exact hsound
  others := by
    intro other hother
    rw [get_databaseFile_set, if_neg fun heq => hother heq.1]
    exact h.others other hother

theorem with_setNode (h : Hosting full names number disk) {ending : String}
    (hending : Bytes.ofText ending ≠ []) (hfull : full.hasBeside names ending = true)
    {new : Option Node} (hnew : ∀ node ∈ new, node.kind = .file) :
    Hosting full names number (disk.setNode (beside names ending) new) where
  toHolds := h.setNode_beside hending new
  isSparser := {
    root := by
      obtain ⟨directory, base, hnames, hbeside⟩ := exists_beside h.isEntry
      rw [hasBeside_iff, hbeside] at hfull
      rw [setNode, hbeside]
      exact h.isSparser.root.setAt (h.kindAt_directory hnames) hfull hnew
    workingDir := h.isSparser.workingDir }
  isKept := h.isKept
  isSound := h.isSound
  others := h.others

theorem with_beside (h : Hosting full names number disk) {ending : String}
    (hending : Bytes.ofText ending ≠ []) (hfull : full.hasBeside names ending = true) :
    Hosting full names number (Disk.addBeside names ending disk) := by
  rw [Disk.addBeside]
  split
  · exact h
  · refine h.with_setNode hending hfull fun node hnode => ?_
    cases hnode
    rfl

theorem without_beside (h : Hosting full names number disk) {ending : String}
    (hending : Bytes.ofText ending ≠ []) (hfull : full.hasBeside names ending = true) :
    Hosting full names number (Disk.removeBeside names ending disk) := by
  rw [Disk.removeBeside]
  split
  · exact h.with_setNode hending hfull fun node hnode => by cases hnode
  · exact h

end Hosting

/-- A disk with a database in its file between two operations: a log in use is beside the file. -/
structure AtRest (full : Disk) (names : List Bytes) (number : Nat) (disk : Disk) : Prop
    extends Hosting full names number disk where
  log : ∀ home, ((databaseFile number).get disk).logInUse = some home →
    home = names ∧ disk.hasBeside names logEnding = true

/-- A full disk on which a database has been opened: it can be opened again, and the files beside it
are there. -/
structure HasOpened (name : Bytes) (names : List Bytes) (full : Disk) : Prop where
  leads : ∃ path mayCreate,
    DatabaseAddress.ofName? name = some ⟨.file path, true, mayCreate⟩ ∧
      full.databaseNames? path = some names
  isFree : ∀ ending ∈ [journalEnding, logEnding, logIndexEnding],
    full.isBlocked names ending = false
  hasBeside : ∀ ending ∈ [logEnding, logIndexEnding], full.hasBeside names ending = true

section Reopening

variable {name : Bytes} {full disk : Disk} {names : List Bytes} {number : Nat}

theorem openShared_home (name : Bytes) (isReadOnly : Bool) (disk : Disk) :
    (openShared name isReadOnly disk).1.home = none := by
  simp only [openShared, bind, StateT.bind, get, getThe, MonadStateOf.get, StateT.get, pure]
  cases disk.shared.find? fun entry => entry.1 = name <;> rfl

theorem connect_eq_ok_iff {isReadOnly : Bool} {found : Disk} :
    connect name disk = (.ok ⟨number, some names, isReadOnly⟩, found) ↔
      ∃ path mayCreate,
        DatabaseAddress.ofName? name = some ⟨.file path, !isReadOnly, mayCreate⟩ ∧
        disk.databaseNames? path = some names ∧
        databaseAt names mayCreate disk = (.ok number, found) ∧
        found.openFault? names number = none := by
  constructor
  · intro h
    rw [connect] at h
    split at h
    · cases h
    · rename_i address haddress
      obtain ⟨place, mayWrite, mayCreate⟩ := address
      cases place with
      | unnamed => cases h
      | shared other =>
        have hconnection : (openShared other (!mayWrite) disk).1 =
          ⟨number, some names, isReadOnly⟩ :=
          Except.ok.inj (Prod.mk.inj h).1
        have hhome := openShared_home other (!mayWrite) disk
        rw [hconnection] at hhome
        cases hhome
      | file path =>
        simp only at h
        split at h
        · cases h
        · rename_i names' hnames
          split at h
          · cases h
          · rename_i number' found' hfound
            split at h
            · cases h
            · rename_i hfault
              cases h
              exact ⟨path, mayCreate, by simpa using haddress, hnames, hfound, hfault⟩
  · rintro ⟨path, mayCreate, haddress, hnames, hfound, hfault⟩
    simp [connect, haddress, hnames, hfound, hfault]

theorem openBlobs_eq_ok {connection : Connection} {opened : Disk}
    (h : openBlobs name disk = (.ok connection, opened)) :
    ∃ found, connect name disk = (.ok connection, found) ∧
      match connection.home with
      | none => opened = found
      | some names => useLog connection.number names found = (.ok (), opened) := by
  rw [openBlobs] at h
  split at h
  · cases h
  · rename_i found hconnect
    split at h
    · cases h
    · split at h
      · rename_i hhome
        cases h
        exact ⟨opened, hconnect, by rw [hhome]⟩
      · rename_i names hhome
        split at h
        · cases h
        · rename_i hlog
          cases h
          exact ⟨found, hconnect, by rw [hhome]; exact hlog⟩

/-- Opening a database is to find its file, to see that nothing is wrong with it, and to take its
log into use. -/
theorem openBlobs_eq_ok_iff {opened : Disk} :
    openBlobs name disk = (.ok ⟨number, some names, false⟩, opened) ↔
      ∃ found, connect name disk = (.ok ⟨number, some names, false⟩, found) ∧
        useLog number names found = (.ok (), opened) := by
  constructor
  · exact openBlobs_eq_ok
  · rintro ⟨found, hconnect, hlog⟩
    simp [openBlobs, hconnect, hlog]

theorem openFault?_eq_none_iff :
    disk.openFault? names number = none ↔
      ((databaseFile number).get disk).legibility = .sound ∧
      (((databaseFile number).get disk).logInUse.isSome → disk.hasBeside names logEnding = true) ∧
      disk.isBlocked names journalEnding = false ∧ disk.isBlocked names logEnding = false := by
  simp only [Disk.openFault?]
  split_ifs <;> grind

variable (h : AtRest full names number disk) (hfull : HasOpened name names full)
include h hfull

theorem AtRest.connect : connect name disk = (.ok ⟨number, some names, false⟩, disk) := by
  obtain ⟨path, mayCreate, haddress, hleads⟩ := hfull.leads
  refine connect_eq_ok_iff.mpr ⟨path, mayCreate, haddress, h.isSparser.databaseNames? hleads,
    h.databaseAt mayCreate, openFault?_eq_none_iff.mpr ⟨h.isSound, ?_, ?_, ?_⟩⟩
  · intro hused
    obtain ⟨home, hhome⟩ := Option.isSome_iff_exists.mp hused
    exact (h.log home hhome).2
  · exact h.isSparser.isBlocked (hfull.isFree journalEnding (by simp))
  · exact h.isSparser.isBlocked (hfull.isFree logEnding (by simp))

theorem AtRest.useLog :
    ∃ opened, useLog number names disk = (.ok (), opened) ∧ AtRest full names number opened ∧
      (database number).get opened = (database number).get disk := by
  have hfree : ¬disk.isBlocked names logIndexEnding = true := by
    rw [h.isSparser.isBlocked (hfull.isFree logIndexEnding (by simp))]
    simp
  have hlog := hfull.hasBeside logEnding (by simp)
  have hindex := hfull.hasBeside logIndexEnding (by simp)
  rw [Disk.useLog, if_neg hfree]
  refine ⟨_, rfl, ?_, ?_⟩
  · have hused := h.setFile { (databaseFile number).get disk with
      hasLog := true, logInUse := ((databaseFile number).get disk).logInUse.or (some names) }
        h.isSound
    have hlogged := hused.with_beside (ofText_ne_nil (by decide)) hlog
    refine ⟨hlogged.with_beside (ofText_ne_nil (by decide)) hindex, fun home hhome => ?_⟩
    rw [get_databaseFile_addBeside, get_databaseFile_addBeside, get_databaseFile_set,
      if_pos ⟨rfl, h.isKept⟩] at hhome
    refine ⟨?_, hlogged.hasBeside_addBeside (Or.inr (hused.hasBeside_addBeside (Or.inl rfl)))⟩
    rcases Option.or_eq_some_iff.mp hhome with hold | ⟨-, hnew⟩
    · exact (h.log home hold).1
    · exact (Option.some.inj hnew).symm
  · rw [get_database, get_databaseFile_addBeside, get_databaseFile_addBeside, get_databaseFile_set,
      if_pos ⟨rfl, h.isKept⟩, get_database]

theorem AtRest.openBlobs :
    ∃ opened, openBlobs name disk = (.ok ⟨number, some names, false⟩, opened) ∧
      AtRest full names number opened ∧
        (database number).get opened = (database number).get disk := by
  obtain ⟨opened, hlog, hrest, htables⟩ := h.useLog hfull
  exact ⟨opened, openBlobs_eq_ok_iff.mpr ⟨disk, h.connect hfull, hlog⟩, hrest, htables⟩

end Reopening

section Closing

variable {full disk : Disk} {names : List Bytes} {number : Nat}

theorem set_get_databaseFile (number : Nat) (disk : Disk) :
    (databaseFile number).set ((databaseFile number).get disk) disk = disk := by
  have hdatabases : disk.databases.set number ((disk.databases[number]?).getD default) =
      disk.databases := by
    by_cases hlt : number < disk.databases.length
    · simp [hlt]
    · exact List.set_eq_of_length_le (Nat.le_of_not_lt hlt)
  simp only [databaseFile, Part.item, hdatabases]

theorem closeDatabase_of_unused (hunused : ((databaseFile number).get disk).logInUse = none) :
    disk.closeDatabase number =
      { disk with shared := disk.shared.filter fun entry => entry.2 ≠ number } := by
  simp only [Disk.closeDatabase, hunused, DatabaseFile.close, Option.isSome_none,
    Bool.false_eq_true, if_false]
  exact set_get_databaseFile number _

theorem AtRest.withShared (h : AtRest full names number disk) (shared : List (Bytes × Nat)) :
    AtRest full names number { disk with shared := shared } :=
  ⟨⟨⟨h.isEntry, h.holds⟩, ⟨h.isSparser.root, h.isSparser.workingDir⟩, h.isKept, h.isSound,
    h.others⟩, h.log⟩

variable (hfull : ∀ ending ∈ [logEnding, logIndexEnding], full.hasBeside names ending = true)
include hfull

theorem AtRest.closeDatabase (h : AtRest full names number disk) (other : Nat) :
    AtRest full names number (disk.closeDatabase other) ∧
      (database number).get (disk.closeDatabase other) = (database number).get disk := by
  cases hused : ((databaseFile other).get disk).logInUse with
  | none =>
    rw [closeDatabase_of_unused hused]
    exact ⟨h.withShared _, rfl⟩
  | some home =>
    have hnumber : other = number := by
      by_contra hne
      rw [h.others other hne] at hused
      cases hused
    subst hnumber
    obtain ⟨rfl, -⟩ := h.log home hused
    have hclose : ((databaseFile other).get disk).close =
        { (databaseFile other).get disk with logInUse := none, legibility := .sound } := by
      rw [DatabaseFile.close, hused]
      rfl
    simp only [Disk.closeDatabase, hused, hclose]
    have hlog := hfull logEnding (by simp)
    have hindex := hfull logIndexEnding (by simp)
    have hclosed := (h.withShared (disk.shared.filter fun entry => entry.2 ≠ other)).setFile
      { (databaseFile other).get disk with logInUse := none, legibility := .sound } rfl
    refine ⟨⟨((hclosed.without_beside (ofText_ne_nil (by decide)) hlog).without_beside
      (ofText_ne_nil (by decide)) hindex), fun home' hhome => ?_⟩, ?_⟩
    · rw [get_databaseFile_removeBeside, get_databaseFile_removeBeside, get_databaseFile_set,
        if_pos ⟨rfl, h.isKept⟩] at hhome
      cases hhome
    · rw [get_database, get_databaseFile_removeBeside, get_databaseFile_removeBeside,
        get_databaseFile_set, if_pos ⟨rfl, h.isKept⟩, get_database]

theorem AtRest.closeUnused (h : AtRest full names number disk) (isUsed : Nat → Bool) :
    AtRest full names number (disk.closeUnused isUsed) ∧
      (database number).get (disk.closeUnused isUsed) = (database number).get disk := by
  rw [Disk.closeUnused]
  generalize (List.range disk.databases.length).filter (fun number => !isUsed number) = numbers
  induction numbers generalizing disk with
  | nil => exact ⟨h, rfl⟩
  | cons other rest ih =>
    obtain ⟨hclosed, hsame⟩ := h.closeDatabase hfull other
    obtain ⟨hrest, hrest_same⟩ := ih hclosed
    exact ⟨hrest, hrest_same.trans hsame⟩

omit hfull in
theorem AtRest.lift {α : Type} (h : AtRest full names number disk) (action : StateM Database α) :
    AtRest full names number ((database number).lift action disk).2 ∧
      (database number).get ((database number).lift action disk).2 =
        (action ((database number).get disk)).2 := by
  refine ⟨⟨h.setFile { (databaseFile number).get disk with
    tables := (action ((database number).get disk)).2 } h.isSound, fun home hhome => ?_⟩, ?_⟩
  · refine h.log home ?_
    have hfile : ((databaseFile number).get ((databaseFile number).set
        { (databaseFile number).get disk with
          tables := (action ((database number).get disk)).2 } disk)).logInUse = some home := hhome
    rw [get_databaseFile_set, if_pos ⟨rfl, h.isKept⟩] at hfile
    exact hfile
  · have hfile : (database number).get ((databaseFile number).set
        { (databaseFile number).get disk with
          tables := (action ((database number).get disk)).2 } disk) =
        (action ((database number).get disk)).2 := by
      rw [get_database, get_databaseFile_set, if_pos ⟨rfl, h.isKept⟩]
    exact hfile

end Closing

/-- Nobody has a database open. -/
structure AllClosed (disk : Disk) : Prop where
  logs : ∀ file ∈ disk.databases, file.logInUse = none
  shared : disk.shared = []

theorem AllClosed.logInUse {disk : Disk} (h : AllClosed disk) (number : Nat) :
    ((databaseFile number).get disk).logInUse = none := by
  simp only [databaseFile, Part.item]
  cases hfile : disk.databases[number]? with
  | none => rfl
  | some file => exact h.logs file (List.mem_of_getElem? hfile)

theorem AllClosed.closeUnused {disk : Disk} (h : AllClosed disk) (isUsed : Nat → Bool) :
    disk.closeUnused isUsed = disk := by
  rw [Disk.closeUnused]
  induction (List.range disk.databases.length).filter (fun number => !isUsed number) with
  | nil => rfl
  | cons number rest ih =>
    have hclose : disk.closeDatabase number = disk := by
      rw [closeDatabase_of_unused (h.logInUse number), h.shared, List.filter_nil, ← h.shared]
    rw [List.foldl_cons, hclose, ih]

section FirstOpening

variable {name : Bytes} {disk found : Disk} {names : List Bytes} {number : Nat}

theorem holds_setNode {disk : Disk} (hnames : names ≠ [])
    (hdirectory : disk.root.kindAt names.dropLast = some .directory) (content : Bytes)
    (modified : FileTime) :
    Holds names number (disk.setNode names (some (.file ⟨content, some number⟩ modified))) := by
  refine ⟨hnames, ?_⟩
  have hself := Node.at?_setAt_self hdirectory (names.getLast hnames)
    (some (.file ⟨content, some number⟩ modified))
  rw [List.dropLast_append_getLast] at hself
  rw [setNode, hself]
  rfl

/-- A database is in its file, or a new one is put where there was nothing but perhaps a file that
can become a database. -/
theorem databaseAt_eq_ok {mayCreate : Bool} (hnames : names ≠ [])
    (h : databaseAt names mayCreate disk = (.ok number, found)) :
    Holds names number disk ∧ found = disk ∨
      disk.root.kindAt names.dropLast = some .directory ∧
        (∀ node, disk.root.at? names = some node → node.kind = .file ∧
          node.databaseNumber? = none) ∧
        ∃ content modified, found = (addDatabase Database.empty disk).2.setNode names
          (some (.file ⟨content, some number⟩ modified)) := by
  rw [databaseAt] at h
  split at h
  · rename_i number' modified hfile
    cases h
    exact Or.inl ⟨⟨hnames, by rw [hfile]; rfl⟩, rfl⟩
  · rename_i content modified hfile
    split at h
    · cases h
      refine Or.inr ⟨?_, fun node hnode => ?_, content, modified, rfl⟩
      · have hkind : disk.root.kindAt (names.dropLast ++ [names.getLast hnames]) = some .file := by
          rw [List.dropLast_append_getLast, Node.kindAt, hfile]
          rfl
        exact Node.kindAt_directory_of_some (names.getLast hnames) hkind
      · rw [hfile] at hnode
        cases hnode
        exact ⟨rfl, rfl⟩
    · cases h
  · cases h
  · rename_i hnothing
    simp only at h
    split at h
    · rename_i hplace
      cases h
      refine Or.inr ⟨?_, by simp [hnothing], [], _, rfl⟩
      simp only [Bool.and_eq_true] at hplace
      obtain ⟨⟨-, hdirectory⟩, -⟩ := hplace
      rw [Node.kindAt]
      cases hnode : disk.root.at? names.dropLast with
      | none =>
        rw [hnode] at hdirectory
        cases hdirectory
      | some node =>
        rw [hnode] at hdirectory
        exact congrArg some ((Node.isDirectory_iff node).mp hdirectory)
    · cases h

theorem holds_of_databaseAt {mayCreate : Bool} (hnames : names ≠ [])
    (h : databaseAt names mayCreate disk = (.ok number, found)) : Holds names number found := by
  obtain ⟨hholds, rfl⟩ | ⟨hdirectory, -, content, modified, rfl⟩ := databaseAt_eq_ok hnames h
  · exact hholds
  · exact @holds_setNode _ _ (addDatabase Database.empty disk).2 hnames hdirectory content modified

theorem AllClosed.databaseAt {mayCreate : Bool} (hclosed : AllClosed disk) (hnames : names ≠ [])
    (h : databaseAt names mayCreate disk = (.ok number, found)) : AllClosed found := by
  obtain ⟨-, rfl⟩ | ⟨-, -, content, modified, rfl⟩ := databaseAt_eq_ok hnames h
  · exact hclosed
  · refine ⟨fun file hfile => ?_, hclosed.shared⟩
    rcases List.mem_append.mp hfile with hfile | hfile
    · exact hclosed.logs file hfile
    · rw [List.mem_singleton.mp hfile]
      rfl

theorem databaseNames?_ne_nil {path : Path} (h : disk.databaseNames? path = some names) :
    names ≠ [] := by
  rw [databaseNames?, Option.filter_eq_some_iff] at h
  simp only [decide_eq_true_eq] at h
  exact h.2.1

/-- A disk on which all databases are closed, and one can be opened in a file, also while it is
open. -/
structure Accommodates (name : Bytes) (names : List Bytes) (number : Nat) (disk : Disk) : Prop where
  isClosed : AllClosed disk
  opens : (openBlobs name disk).1 = .ok ⟨number, some names, false⟩
  isKept : number < (openBlobs name disk).2.databases.length
  opensAgain : (openBlobs name (openBlobs name disk).2).1 = .ok ⟨number, some names, false⟩

theorem useLog_eq_ok {opened : Disk} (h : useLog number names found = (.ok (), opened)) :
    found.isBlocked names logIndexEnding = false ∧
      opened = addBeside names logIndexEnding (addBeside names logEnding
        ((databaseFile number).set { (databaseFile number).get found with
          hasLog := true
          logInUse := ((databaseFile number).get found).logInUse.or (some names) } found)) := by
  rw [useLog] at h
  split at h
  · cases h
  · rename_i hfree
    obtain ⟨-, rfl⟩ := Prod.mk.inj h
    exact ⟨by simpa using hfree, rfl⟩

namespace Accommodates

variable (h : Accommodates name names number disk)
include h

theorem exists_found :
    ∃ found, Holds names number found ∧ AllClosed found ∧
      ((databaseFile number).get found).legibility = .sound ∧
      (openBlobs name disk).2 = addBeside names logIndexEnding (addBeside names logEnding
        ((databaseFile number).set { (databaseFile number).get found with
          hasLog := true, logInUse := some names } found)) := by
  have hopened : openBlobs name disk =
      (.ok ⟨number, some names, false⟩, (openBlobs name disk).2) := Prod.ext h.opens rfl
  obtain ⟨found, hconnect, hlog⟩ := openBlobs_eq_ok_iff.mp hopened
  obtain ⟨path, mayCreate, haddress, hleads, hfound, hfault⟩ := connect_eq_ok_iff.mp hconnect
  have hholds := holds_of_databaseAt (databaseNames?_ne_nil hleads) hfound
  have hclosed := h.isClosed.databaseAt (databaseNames?_ne_nil hleads) hfound
  obtain ⟨hsound, -, -, -⟩ := openFault?_eq_none_iff.mp hfault
  obtain ⟨-, hresult⟩ := useLog_eq_ok hlog
  rw [hclosed.logInUse, Option.none_or] at hresult
  exact ⟨found, hholds, hclosed, hsound, hresult⟩

theorem holds_and_hasBeside : Holds names number (openBlobs name disk).2 ∧
    ∀ ending ∈ [logEnding, logIndexEnding],
      (openBlobs name disk).2.hasBeside names ending = true := by
  obtain ⟨found, hholds, -, -, hresult⟩ := h.exists_found
  have hused : Holds names number ((databaseFile number).set
      { (databaseFile number).get found with hasLog := true, logInUse := some names } found) :=
    ⟨hholds.isEntry, hholds.holds⟩
  have hending : Bytes.ofText logEnding ≠ [] := ofText_ne_nil (by decide)
  have hlogged := hused.addBeside hending
  rw [hresult]
  refine ⟨hlogged.addBeside (ofText_ne_nil (by decide)), fun ending hending => ?_⟩
  refine hlogged.hasBeside_addBeside ?_
  rcases List.mem_pair.mp hending with rfl | rfl
  · exact Or.inr (hused.hasBeside_addBeside (Or.inl rfl))
  · exact Or.inl rfl

theorem atRest : AtRest (openBlobs name disk).2 names number (openBlobs name disk).2 := by
  obtain ⟨hholds, hbeside⟩ := h.holds_and_hasBeside
  obtain ⟨found, -, hclosed, hsound, hresult⟩ := h.exists_found
  have hkept : number < found.databases.length := by
    have hlength := h.isKept
    rw [hresult, databases_addBeside, databases_addBeside, length_set_databaseFile] at hlength
    exact hlength
  have hfile : ∀ other, (databaseFile other).get (openBlobs name disk).2 =
      if other = number then { (databaseFile number).get found with
        hasLog := true, logInUse := some names }
      else (databaseFile other).get found := by
    intro other
    rw [hresult, get_databaseFile_addBeside, get_databaseFile_addBeside, get_databaseFile_set]
    simp only [hkept, and_true]
  exact {
    toHolds := hholds
    isSparser := ⟨Sparser.refl _, rfl⟩
    isKept := h.isKept
    isSound := by rw [hfile, if_pos rfl]; exact hsound
    others := fun other hother => by rw [hfile, if_neg hother, hclosed.logInUse]
    log := fun home hhome => by
      rw [hfile, if_pos rfl] at hhome
      exact ⟨(Option.some.inj hhome).symm, hbeside logEnding (by simp)⟩ }

theorem hasOpened : HasOpened name names (openBlobs name disk).2 := by
  obtain ⟨hholds, hbeside⟩ := h.holds_and_hasBeside
  have hagain : openBlobs name (openBlobs name disk).2 =
      (.ok ⟨number, some names, false⟩, (openBlobs name (openBlobs name disk).2).2) :=
    Prod.ext h.opensAgain rfl
  obtain ⟨found, hconnect, hlog⟩ := openBlobs_eq_ok_iff.mp hagain
  obtain ⟨path, mayCreate, haddress, hleads, hfound, hfault⟩ := connect_eq_ok_iff.mp hconnect
  rw [hholds.databaseAt] at hfound
  obtain ⟨-, rfl⟩ := Prod.mk.inj hfound
  obtain ⟨-, -, hjournal, hlogFree⟩ := openFault?_eq_none_iff.mp hfault
  obtain ⟨hindex, -⟩ := useLog_eq_ok hlog
  refine ⟨⟨path, mayCreate, haddress, hleads⟩, fun ending hending => ?_, hbeside⟩
  simp only [List.mem_cons, List.not_mem_nil, or_false] at hending
  rcases hending with rfl | rfl | rfl
  · exact hjournal
  · exact hlogFree
  · exact hindex

end Accommodates

end FirstOpening

end CatalogSync.Disk
