import CatalogSync.Proofs.Disk.Growth

namespace CatalogSync.Disk

section Paths

variable {tree full : Node} {disk disk' : Disk} {names names' : List Bytes} {path : Path}

theorem nodeBelow_eq_link_iff {root : Node} {here : List Bytes} {name : Bytes} {found : Option Node}
    (h : nodeBelow root here name = .ok found) (target : Bytes) :
    found = some (.link target) ↔ root.kindAt (here ++ [name]) = some (.link target) := by
  rw [Node.kindAt_eq_link_iff, Node.at?_concat]
  rw [nodeBelow] at h
  cases hnode : root.at? here with
  | none =>
    rw [hnode] at h
    cases h
    rfl
  | some node =>
    simp only [hnode] at h
    split_ifs at h
    cases h
    rfl

/-- Whatever else is in two trees with the same links, names stand for the same names in both of
them. -/
theorem plainNames?_unique
    (hlinks : ∀ place target,
      tree.kindAt place = some (.link target) ↔ full.kindAt place = some (.link target))
    {links : Nat} {here plain plain' : List Bytes}
    (htree : plainNames? tree links here names = some plain)
    (hfull : plainNames? full links here names = some plain') : plain = plain' := by
  refine travel_rel
    (R := fun before after => ∀ plain plain', before = some plain → after = some plain' →
      plain = plain')
    (fun _ _ _ hplain hplain' => Option.some.inj (hplain.symm.trans hplain'))
    (fun _ _ _ hplain hplain' => Option.some.inj (hplain.symm.trans hplain'))
    (fun here name isLast => ?_) links here names plain plain' htree hfull
  obtain hsame | hbelow := plainStride_cases here name isLast
  · exact .inr (.inr (hsame full tree))
  · rw [hbelow, hbelow]
    cases hfound : nodeBelow tree here name with
    | error e => exact .inl ⟨none, rfl, nofun⟩
    | ok found =>
      cases hfound' : nodeBelow full here name with
      | error e => exact .inr (.inl ⟨none, rfl, nofun⟩)
      | ok found' =>
        refine .inr (.inr (pass_congr (fun target => ?_) here name))
        rw [nodeBelow_eq_link_iff hfound' target, nodeBelow_eq_link_iff hfound target]
        exact (hlinks _ target).symm

theorem Grows.databaseNames?_unique (h : Grows disk disk')
    (hnames : disk.databaseNames? path = some names)
    (hnames' : disk'.databaseNames? path = some names') : names = names' := by
  rw [databaseNames?, Option.filter_eq_some_iff] at hnames hnames'
  rw [h.workingDir] at hnames'
  exact plainNames?_unique (fun place target => ⟨h.within place _, h.links place target⟩) hnames.1
    hnames'.1

theorem isObstructed_iff (disk : Disk) (path : Path) : disk.isObstructed path = true ↔
    ∃ place node, disk.resolve false path = .ok (place, some node) ∧ node.kind ≠ .file := by
  rw [isObstructed]
  cases disk.resolve false path with
  | error e => simp
  | ok found =>
    obtain ⟨place, _ | node⟩ := found
    · simp
    · cases node with
      | file data modified => simp [Node.kind]
      | directory children => simp [Node.kind]
      | link target => simp [Node.kind]

theorem Grows.isObstructed (h : Grows disk disk') (hbefore : disk.isObstructed path = true) :
    disk'.isObstructed path = true := by
  rw [isObstructed_iff] at hbefore ⊢
  obtain ⟨place, node, hresolve, hkind⟩ := hbefore
  obtain ⟨start, hstart, hfrom⟩ := resolve_eq_ok_iff.mp hresolve
  obtain ⟨node', hfrom', hkind'⟩ := resolveFrom_of_within h.within hfrom
  refine ⟨place, node', resolve_eq_ok_iff.mpr ⟨start, ?_, hfrom'⟩, hkind' ▸ hkind⟩
  rw [startOf_eq_ok_iff] at hstart ⊢
  rwa [h.workingDir]

theorem Grows.isKeptFrom (h : Grows disk disk') {connection : Connection}
    (hfile : (databaseFile connection.number).get disk' = (databaseFile connection.number).get disk)
    (hbefore : disk.isKeptFrom connection = true) : disk'.isKeptFrom connection = true := by
  rw [Disk.isKeptFrom, Option.any_eq_true] at hbefore ⊢
  obtain ⟨names, hhome, hkept⟩ := hbefore
  refine ⟨names, hhome, ?_⟩
  rw [hfile]
  simp only [Bool.and_eq_true, Bool.or_eq_true] at hkept ⊢
  exact ⟨hkept.1, hkept.2.imp h.isObstructed h.isObstructed⟩

end Paths

/-- How a database is opened for stores: in no file, or in the one that its path stands for. -/
inductive Opening (name : Bytes) (disk : Disk) (connection : Connection) (opened : Disk) :
    Prop where
  | apart
      (haddress : ∀ path mayWrite mayCreate,
        DatabaseAddress.ofName? name ≠ some ⟨.file path, mayWrite, mayCreate⟩)
      (hgrows : Grows disk opened)
      (hfile : ∀ number, (databaseFile number).get opened = (databaseFile number).get disk)
  | filed {path : Path} {mayWrite mayCreate : Bool} {names : List Bytes} {found : Disk}
      (haddress : DatabaseAddress.ofName? name = some ⟨.file path, mayWrite, mayCreate⟩)
      (hnames : disk.databaseNames? path = some names)
      (hfound : databaseAt names mayCreate disk = (.ok connection.number, found))
      (hfault : found.openFault? names connection.number = none)
      (hlog : useLog connection.number names found = (.ok (), opened))

section Opened

variable {name : Bytes} {disk found opened : Disk} {connection : Connection} {names : List Bytes}
  {number : Nat}

theorem openShared_apart (name : Bytes) (isReadOnly : Bool) (disk : Disk) :
    Grows disk (openShared name isReadOnly disk).2 ∧
      ∀ number, (databaseFile number).get (openShared name isReadOnly disk).2 =
        (databaseFile number).get disk := by
  simp only [openShared, bind, StateT.bind, get, getThe, MonadStateOf.get, StateT.get, pure]
  cases disk.shared.find? fun entry => entry.1 = name with
  | some entry => exact ⟨.refl disk, fun _ => rfl⟩
  | none => exact ⟨.of_root_eq rfl rfl, fun number => get_databaseFile_addDatabase number disk⟩

theorem opening_of_openBlobs (h : openBlobs name disk = (.ok connection, opened)) :
    Opening name disk connection opened := by
  obtain ⟨found, hconnect, hopened⟩ := openBlobs_eq_ok h
  obtain ⟨number, home, isReadOnly⟩ := connection
  cases home with
  | some names =>
    obtain ⟨path, mayCreate, haddress, hnames, hfound, hfault⟩ := connect_eq_ok_iff.mp hconnect
    exact .filed haddress hnames hfound hfault hopened
  | none =>
    obtain rfl : opened = found := hopened
    rw [connect] at hconnect
    split at hconnect
    · cases hconnect
    · rename_i address haddress
      split at hconnect
      · rename_i hplace
        refine .apart (fun path mayWrite mayCreate heq => ?_) ?_ ?_
        · cases haddress.symm.trans heq
          cases hplace
        · cases hconnect
          exact .of_root_eq rfl rfl
        · cases hconnect
          exact fun number => get_databaseFile_addDatabase number disk
      · rename_i shared hplace
        have hshared := openShared_apart shared (!address.mayWrite) disk
        refine .apart (fun path mayWrite mayCreate heq => ?_) ?_ ?_
        · cases haddress.symm.trans heq
          cases hplace
        · exact (Prod.mk.inj hconnect).2 ▸ hshared.1
        · exact (Prod.mk.inj hconnect).2 ▸ hshared.2
      · split at hconnect
        · cases hconnect
        · split at hconnect
          · cases hconnect
          · split at hconnect <;> cases hconnect

theorem grows_set_databaseFile (number : Nat) (file : DatabaseFile) (disk : Disk) :
    Grows disk ((databaseFile number).set file disk) :=
  .of_root_eq rfl rfl

theorem Holds.grows_useLog (h : Holds names number found)
    (hfault : found.openFault? names number = none)
    (hlog : useLog number names found = (.ok (), opened)) : Grows found opened := by
  obtain ⟨-, -, -, hfree⟩ := openFault?_eq_none_iff.mp hfault
  obtain ⟨hindex, rfl⟩ := useLog_eq_ok hlog
  have hused : Holds names number ((databaseFile number).set { (databaseFile number).get found with
      hasLog := true
      logInUse := ((databaseFile number).get found).logInUse.or (some names) } found) :=
    ⟨h.isEntry, h.holds⟩
  have hlogged := hused.addBeside (ofText_ne_nil (show logEnding ≠ "" by decide))
  exact (grows_set_databaseFile ..).trans ((hused.grows_addBeside hfree).trans
    (hlogged.grows_addBeside (hused.isBlocked_addBeside hindex)))

theorem get_databaseFile_useLog (hlog : useLog number names found = (.ok (), opened))
    (other : Nat) :
    (databaseFile other).get opened =
      if other = number ∧ number < found.databases.length then
        { (databaseFile number).get found with
          hasLog := true
          logInUse := ((databaseFile number).get found).logInUse.or (some names) }
      else (databaseFile other).get found := by
  obtain ⟨-, rfl⟩ := useLog_eq_ok hlog
  rw [get_databaseFile_addBeside, get_databaseFile_addBeside, get_databaseFile_set]

theorem Opening.grows (h : Opening name disk connection opened) : Grows disk opened := by
  cases h with
  | apart _ hgrows _ => exact hgrows
  | filed haddress hnames hfound hfault hlog =>
    have hentry := databaseNames?_ne_nil hnames
    exact (grows_databaseAt hentry hfound).trans
      ((holds_of_databaseAt hentry hfound).grows_useLog hfault hlog)

end Opened

/-- Somebody is kept from a database that is open, and will be as long as a disk just grows: the
database that stores open by name is another one. -/
structure IsShutOut (connection : Connection) (name : Bytes) (disk : Disk) : Prop where
  isKept : disk.isKeptFrom connection = true
  isApart : ∀ {path : Path} {mayWrite mayCreate : Bool},
    DatabaseAddress.ofName? name = some ⟨.file path, mayWrite, mayCreate⟩ →
    ∀ {later : Disk} {names : List Bytes}, Grows disk later →
      later.databaseNames? path = some names →
      ∃ number, Holds names number disk ∧ number ≠ connection.number

section Excluding

variable {connection stores : Connection} {name : Bytes} {disk disk' : Disk}

theorem IsShutOut.of_grows (h : IsShutOut connection name disk) (hgrows : Grows disk disk')
    (hfile : (databaseFile connection.number).get disk' =
      (databaseFile connection.number).get disk) :
    IsShutOut connection name disk' where
  isKept := hgrows.isKeptFrom hfile h.isKept
  isApart := by
    intro path mayWrite mayCreate haddress later names hlater hnames
    obtain ⟨number, hholds, hne⟩ := h.isApart haddress (hgrows.trans hlater) hnames
    exact ⟨number, hgrows.holds names number hholds, hne⟩

theorem IsShutOut.ensureDirectory (h : IsShutOut connection name disk) (path : Path) :
    IsShutOut connection name (ensureDirectory path disk).2 := by
  refine h.of_grows (grows_ensureDirectory path disk) ?_
  simp only [databaseFile, Part.item, Disk.ensureDirectory, databases_makeDirectories]

theorem IsShutOut.openBlobs (h : IsShutOut connection name disk)
    (hopen : openBlobs name disk = (.ok stores, disk')) : IsShutOut connection name disk' := by
  have hopening := opening_of_openBlobs hopen
  refine h.of_grows hopening.grows ?_
  cases hopening with
  | apart _ _ hfile => exact hfile _
  | filed haddress hnames hfound hfault hlog =>
    obtain ⟨number, hholds, hne⟩ := h.isApart haddress (.refl disk) hnames
    rw [hholds.databaseAt] at hfound
    obtain ⟨hnumber, rfl⟩ := Prod.mk.inj hfound
    rw [get_databaseFile_useLog hlog, if_neg]
    rintro ⟨heq, -⟩
    exact hne ((Except.ok.inj hnumber).trans heq.symm)

theorem isKeptFrom_eq_false_of_hasLog
    (h : ((databaseFile connection.number).get disk).hasLog = true) :
    disk.isKeptFrom connection = false := by
  rw [Disk.isKeptFrom, h]
  cases connection.home <;> rfl

/-- Stores have just opened their database. Whoever is kept from another one then is shut out of
it. -/
theorem isShutOut_of_openBlobs (hthere : connection.number < disk.databases.length)
    (hopen : openBlobs name disk = (.ok stores, disk'))
    (hkept : disk'.isKeptFrom connection = true) :
    IsShutOut connection name disk' := by
  refine ⟨hkept, fun {path mayWrite mayCreate} haddress {later names'} hlater hnames' => ?_⟩
  have hopening := opening_of_openBlobs hopen
  have hgrows := hopening.grows
  cases hopening with
  | apart hno => exact absurd haddress (hno _ _ _)
  | @filed _ _ _ names found haddress' hnames hfound hfault hlog =>
    cases haddress.symm.trans haddress'
    obtain rfl := (hgrows.trans hlater).databaseNames?_unique hnames hnames'
    have hentry := databaseNames?_ne_nil hnames
    have hholds := holds_of_databaseAt hentry hfound
    refine ⟨stores.number, (hholds.grows_useLog hfault hlog).holds _ _ hholds, fun hsame => ?_⟩
    have hkeeps : disk.databases.length ≤ found.databases.length := by
      obtain ⟨-, rfl⟩ | ⟨-, -, content, modified, rfl⟩ := databaseAt_eq_ok hentry hfound
      · exact Nat.le_refl _
      · simp [addDatabase, setNode]
    rw [isKeptFrom_eq_false_of_hasLog] at hkept
    · cases hkept
    · rw [← hsame, get_databaseFile_useLog hlog, if_pos ⟨rfl, by omega⟩]

end Excluding

end CatalogSync.Disk
