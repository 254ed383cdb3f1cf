import CatalogSync.Disk.Settings
import CatalogSync.Proofs.Disk.Databases

namespace CatalogSync.Disk

/-- A disk with the same in its databases as another one, but perhaps with new ones, and with logs
in use. -/
structure KeepsContents (disk disk' : Disk) : Prop where
  tables : ∀ number, ((databaseFile number).get disk').tables =
    ((databaseFile number).get disk).tables
  legibility : ∀ number,
    ((databaseFile number).get disk').legibility = ((databaseFile number).get disk).legibility

variable {disk disk' disk'' : Disk}

theorem KeepsContents.of_databases_eq (h : disk'.databases = disk.databases) :
    KeepsContents disk disk' := by
  have hfile : ∀ number, (databaseFile number).get disk' = (databaseFile number).get disk := by
    intro number
    simp only [databaseFile, Part.item, h]
  exact ⟨fun number => by rw [hfile], fun number => by rw [hfile]⟩

theorem KeepsContents.refl (disk : Disk) : KeepsContents disk disk :=
  .of_databases_eq rfl

theorem KeepsContents.trans (h : KeepsContents disk disk') (h' : KeepsContents disk' disk'') :
    KeepsContents disk disk'' :=
  ⟨fun number => (h'.tables number).trans (h.tables number),
    fun number => (h'.legibility number).trans (h.legibility number)⟩

theorem KeepsContents.settings_of_not_kept (h : KeepsContents disk disk') {connection : Connection}
    {settings : Settings} (hbefore : disk.settings connection = .ok settings)
    (hafter : disk'.isKeptFrom connection = false) : disk'.settings connection = .ok settings := by
  have hread : ((databaseFile connection.number).get disk').readSettings =
      ((databaseFile connection.number).get disk).readSettings := by
    rw [DatabaseFile.readSettings, h.tables, h.legibility, DatabaseFile.readSettings]
  rw [Disk.settings] at hbefore ⊢
  split at hbefore
  · cases hbefore
  · rw [hafter]
    exact hread.trans hbefore

theorem KeepsContents.settings_eq (h : KeepsContents disk disk') {connection : Connection}
    {settings : Settings} (hbefore : disk.settings connection = .ok settings)
    (hafter : (disk'.settings connection).isOk = true) :
    disk'.settings connection = .ok settings := by
  refine h.settings_of_not_kept hbefore ?_
  rw [Disk.settings] at hafter
  split at hafter
  · cases hafter
  · rename_i hkept
    exact Bool.eq_false_iff.mpr hkept

theorem databases_makeDirectory (path : Path) (disk : Disk) :
    (makeDirectory path disk).2.databases = disk.databases := by
  simp only [makeDirectory]
  split <;> rfl

/-- Making directories is making one after the other: what this does to a disk each time is done in
the end. -/
theorem makeDirectories_rel {relation : Disk → Disk → Prop} (hrefl : ∀ disk, relation disk disk)
    (htrans : ∀ {disk disk' disk''}, relation disk disk' → relation disk' disk'' →
      relation disk disk'')
    (hmake : ∀ path disk, relation disk (makeDirectory path disk).2) (depth : Nat) (path : Path)
    (disk : Disk) : relation disk (makeDirectories depth path disk).2 := by
  induction depth generalizing path disk with
  | zero =>
    have hmade := hmake path disk
    unfold makeDirectories
    split
    · exact hrefl disk
    · split <;> rename_i hresult <;> rw [hresult] at hmade <;> exact hmade
  | succ depth ih =>
    have hmade := hmake path disk
    unfold makeDirectories
    split
    · exact hrefl disk
    · split
      · rename_i hresult
        rwa [hresult] at hmade
      · rename_i between hresult
        rw [hresult] at hmade
        split
        · rename_i lower parent hdepth _
          obtain rfl := Nat.succ.inj hdepth
          have hparents := htrans hmade (ih parent between)
          split
          · rename_i hresult'
            rwa [hresult'] at hparents
          · rename_i above hresult'
            rw [hresult'] at hparents
            have hagain := htrans hparents (hmake path above)
            split <;> rename_i hresult'' <;> rwa [hresult''] at hagain
        · exact hmade
      · rename_i hresult
        rwa [hresult] at hmade

theorem databases_makeDirectories (depth : Nat) (path : Path) (disk : Disk) :
    (makeDirectories depth path disk).2.databases = disk.databases :=
  @makeDirectories_rel (fun before after => after.databases = before.databases) (fun _ => rfl)
    (fun h h' => h'.trans h) databases_makeDirectory depth path disk

theorem ensureDirectory_of_exists {path : Path}
    (hmade : (makeDirectory path disk).1 = .error .alreadyExists)
    (hthere : disk.isDirectory path = true) : ensureDirectory path disk = (.ok (), disk) := by
  have hmade' : makeDirectory path disk = (.error .alreadyExists, disk) := by
    simp only [makeDirectory] at hmade ⊢
    split at hmade
    · exact Prod.ext hmade rfl
    · rfl
    · cases hmade
  rw [ensureDirectory, makeDirectories]
  simp only [hmade', hthere, if_true, ite_self]

theorem get_databaseFile_addDatabase (number : Nat) (disk : Disk) :
    (databaseFile number).get (addDatabase Database.empty disk).2 =
      (databaseFile number).get disk := by
  simp only [databaseFile, Part.item, addDatabase]
  rcases Nat.lt_trichotomy number disk.databases.length with hlt | rfl | hgt
  · rw [List.getElem?_append_left hlt]
  · rw [List.getElem?_concat_length, List.getElem?_eq_none (Nat.le_refl _)]
    rfl
  · rw [List.getElem?_eq_none (Nat.le_of_lt hgt), List.getElem?_eq_none (by simp; omega)]

theorem keepsContents_addDatabase (disk : Disk) :
    KeepsContents disk (addDatabase Database.empty disk).2 :=
  ⟨fun number => by rw [get_databaseFile_addDatabase],
    fun number => by rw [get_databaseFile_addDatabase]⟩

theorem keepsContents_databaseAt (names : List Bytes) (mayCreate : Bool) (disk : Disk) :
    KeepsContents disk (databaseAt names mayCreate disk).2 := by
  have hadded := keepsContents_addDatabase disk
  rw [databaseAt]
  split
  · exact .refl disk
  · split
    · exact hadded.trans (.of_databases_eq rfl)
    · exact .refl disk
  · exact .refl disk
  · simp only
    split
    · exact hadded.trans (.of_databases_eq rfl)
    · exact .refl disk

theorem keepsContents_openShared (name : Bytes) (isReadOnly : Bool) (disk : Disk) :
    KeepsContents disk (openShared name isReadOnly disk).2 := by
  simp only [openShared, bind, StateT.bind, get, getThe, MonadStateOf.get, StateT.get, pure]
  cases disk.shared.find? fun entry => entry.1 = name with
  | some entry => exact .refl disk
  | none => exact (keepsContents_addDatabase disk).trans (.of_databases_eq rfl)

theorem keepsContents_connect (name : Bytes) (disk : Disk) :
    KeepsContents disk (connect name disk).2 := by
  rw [connect]
  split
  · exact .refl disk
  · rename_i address _
    split
    · exact keepsContents_addDatabase disk
    · rename_i shared _
      exact keepsContents_openShared shared (!address.mayWrite) disk
    · split
      · exact .refl disk
      · rename_i names _
        have hfound := keepsContents_databaseAt names address.mayCreate disk
        split
        · rename_i hresult
          rwa [hresult] at hfound
        · rename_i hresult
          rw [hresult] at hfound
          split <;> exact hfound

/-- Opening settings that are there already leaves the disk as it is. -/
theorem openSettings_of_holds {name : Bytes} {path : Path} {isReadOnly mayCreate : Bool}
    {names : List Bytes} {number : Nat}
    (haddress : DatabaseAddress.ofName? name = some ⟨.file path, !isReadOnly, mayCreate⟩)
    (hnames : disk.databaseNames? path = some names) (hholds : Holds names number disk)
    (hfault : disk.openFault? names number = none)
    (htable : ((database number).get disk).settings.isSome = true) :
    openSettings name disk = (.ok ⟨number, some names, isReadOnly⟩, disk) := by
  have hconnect : connect name disk = (.ok ⟨number, some names, isReadOnly⟩, disk) :=
    connect_eq_ok_iff.mpr
      ⟨path, mayCreate, haddress, hnames, hholds.databaseAt mayCreate, hfault⟩
  simp only [openSettings, hconnect, htable, if_true]

theorem keepsContents_useLog (number : Nat) (names : List Bytes) (disk : Disk) :
    KeepsContents disk (useLog number names disk).2 := by
  rw [useLog]
  split
  · exact .refl disk
  · refine ⟨fun other => ?_, fun other => ?_⟩ <;>
    · simp only [get_databaseFile_addBeside, get_databaseFile_set]
      split
      · rename_i h
        rw [h.1]
      · rfl

theorem keepsContents_openBlobs (name : Bytes) (disk : Disk) :
    KeepsContents disk (openBlobs name disk).2 := by
  have hconnect := keepsContents_connect name disk
  rw [openBlobs]
  split
  · rename_i hresult
    rwa [hresult] at hconnect
  · rename_i connection found hresult
    rw [hresult] at hconnect
    split
    · exact hconnect
    · split
      · exact hconnect
      · rename_i names _
        have hlog := hconnect.trans (keepsContents_useLog connection.number names found)
        split
        · rename_i hused
          rwa [hused] at hlog
        · rename_i hused
          rwa [hused] at hlog

end CatalogSync.Disk
