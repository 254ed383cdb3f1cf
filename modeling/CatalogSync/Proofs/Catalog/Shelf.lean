import CatalogSync.Proofs.Catalog.Names
import CatalogSync.Proofs.Disk.Folder
import CatalogSync.Proofs.Json.Pretty

namespace CatalogSync

namespace Text

theorem not_before_trans (a b c : String) (hab : (!before b a) = true)
    (hbc : (!before c b) = true) :
    (!before c a) = true := by
  simp only [before, Bool.not_eq_true', decide_eq_false_iff_not, List.not_lt] at *
  exact List.le_trans hab hbc

theorem not_before_total (a b : String) : (!before b a || !before a b) = true := by
  cases h : before b a with
  | true => simp [before_asymm h]
  | false => rfl

theorem pairwise_before_mergeSort {texts : List String} (h : texts.Nodup) :
    (texts.mergeSort fun a b => !before b a).Pairwise fun a b => before a b = true := by
  have hsorted := List.pairwise_mergeSort not_before_trans not_before_total texts
  have hdistinct := (List.mergeSort_perm texts fun a b => !before b a).nodup_iff.mpr h
  refine (hsorted.and hdistinct).imp ?_
  rintro a b ⟨hle, hne⟩
  cases hlt : before a b with
  | true => rfl
  | false => exact absurd (eq_of_not_before hlt (by simpa using hle)) hne

end Text

namespace DiskStep

variable {step : DiskStep} {disk disk' : Disk} {e : FileError}

theorem runAll_nil (disk : Disk) : runAll [] disk = (.ok (), disk) := rfl

theorem runAll_of_ok (h : step.run disk = (.ok (), disk')) (rest : List DiskStep) :
    runAll (step :: rest) disk = runAll rest disk' := by
  simp [runAll, bind, StateT.bind, h]

theorem runAll_of_error (h : step.run disk = (.error e, disk')) (rest : List DiskStep) :
    runAll (step :: rest) disk = (.error e, disk') := by
  simp [runAll, bind, StateT.bind, h]
  rfl

end DiskStep

namespace DirectoryCatalog

/-- An empty directory with room for the paths of records. -/
structure IsVacant (catalog : DirectoryCatalog) (disk : Disk) : Prop where
  readDirectory_eq : disk.readDirectory (Bytes.ofText catalog.dir) = .ok []
  hasRoom : ∀ uuid, (catalog.recordFile uuid).length ≤ Path.maxLength

theorem exists_place {catalog : DirectoryCatalog} {disk : Disk}
    (hread : disk.readDirectory (Bytes.ofText catalog.dir) = .ok []) :
    ∃ place, disk.resolve true (Bytes.ofText catalog.dir) = .ok (place, some (.directory [])) := by
  rw [Disk.readDirectory] at hread
  split at hread
  · rename_i entries hnode
    obtain rfl := List.map_eq_nil_iff.mp (Except.ok.inj hread)
    rw [Disk.node?] at hnode
    split at hnode
    · rename_i place node hresolve
      obtain rfl := Except.ok.inj hnode
      exact ⟨place, hresolve⟩
    · cases hnode
    · cases hnode
  · cases hread
  · cases hread

theorem dir_ne_of_resolve {catalog : DirectoryCatalog} {disk : Disk}
    {found : List Bytes × Option Node}
    (h : disk.resolve true (Bytes.ofText catalog.dir) = .ok found) : catalog.dir ≠ "" := by
  intro hempty
  obtain ⟨_, hstart, -⟩ := Disk.resolve_eq_ok_iff.mp h
  rw [hempty] at hstart
  exact (Disk.startOf_eq_ok_iff.mp hstart).1 rfl

theorem isVacant_of_short {catalog : DirectoryCatalog} {disk : Disk}
    (hread : disk.readDirectory (Bytes.ofText catalog.dir) = .ok [])
    (hshort : (Bytes.ofText catalog.dir).length + 46 ≤ Path.maxLength) :
    catalog.IsVacant disk ∧ ∀ uuid, (catalog.draftFile uuid).length ≤ Path.maxLength := by
  obtain ⟨place, hstart⟩ := exists_place hread
  have hdraft : ∀ uuid, (catalog.draftFile uuid).length ≤ Path.maxLength :=
    fun uuid => (length_draftFile_le (dir_ne_of_resolve hstart) uuid).trans hshort
  refine ⟨⟨hread, fun uuid => ?_⟩, hdraft⟩
  have hlength := hdraft uuid
  rw [draftFile, List.length_append] at hlength
  omega

theorem isVacant_spare : IsVacant ⟨"/c"⟩ (Disk.start "/" "/c") ∧
    ∀ uuid, (draftFile ⟨"/c"⟩ uuid).length ≤ Path.maxLength :=
  isVacant_of_short (by decide +kernel) (by decide)

/-- The files hold the records of a shelf, and whatever is there beside them is a draft. -/
structure IsShelved (shelf : Uuid → Option Record) (files : Bytes → Option Bytes) : Prop where
  records : ∀ uuid, files (recordName uuid) = (shelf uuid).map Record.encodePretty
  drafts : ∀ name, (files name).isSome →
    (∃ uuid, name = recordName uuid) ∨ ∃ uuid, name = draftName uuid

namespace IsShelved

variable {shelf : Uuid → Option Record} {files : Bytes → Option Bytes}

theorem empty : IsShelved (fun _ => none) (fun _ => none) :=
  ⟨fun _ => rfl, nofun⟩

theorem update_draft (h : IsShelved shelf files) (uuid : Uuid) (content : Option Bytes) :
    IsShelved shelf (Function.update files (draftName uuid) content) := by
  constructor
  · intro other
    rw [Function.update_of_ne (recordName_ne_draftName other uuid)]
    exact h.records other
  · intro name hname
    rw [Function.update_apply] at hname
    split at hname
    · rename_i hdraft
      exact .inr ⟨uuid, hdraft⟩
    · exact h.drafts name hname

theorem update_record (h : IsShelved shelf files) (uuid : Uuid) (record : Option Record) :
    IsShelved (Function.update shelf uuid record)
      (Function.update files (recordName uuid) (record.map Record.encodePretty)) := by
  constructor
  · intro other
    by_cases hother : other = uuid
    · subst hother
      rw [Function.update_self, Function.update_self]
    · rw [Function.update_of_ne hother, Function.update_of_ne (recordName_injective.ne hother)]
      exact h.records other
  · intro name hname
    rw [Function.update_apply] at hname
    split at hname
    · rename_i hrecord
      exact .inl ⟨uuid, hrecord⟩
    · exact h.drafts name hname

end IsShelved

/-- The directory of the catalog has been at its place since `start`, and holds a shelf. -/
def Keeps (start : Disk) (place : List Bytes) (shelf : Uuid → Option Record) (disk : Disk) : Prop :=
  ∃ files, Disk.IsFiled start place files disk ∧ IsShelved shelf files

section Reading

variable {catalog : DirectoryCatalog} {start disk : Disk} {place : List Bytes}
  {shelf : Uuid → Option Record} {uuid : Uuid} {record : Record} {id : String}
  (hstart : start.resolve true (Bytes.ofText catalog.dir) = .ok (place, some (.directory [])))
  (hroom : ∀ uuid, (catalog.recordFile uuid).length ≤ Path.maxLength)
  (h : Keeps start place shelf disk)

include hstart in
theorem keeps_start : Keeps start place (fun _ => none) start :=
  ⟨_, .of_start hstart, .empty⟩

include hstart hroom h

omit h in
theorem isEntry_recordFile (uuid : Uuid) :
    Disk.IsEntry (Bytes.ofText catalog.dir) (recordName uuid) (catalog.recordFile uuid) :=
  ⟨isName_recordName uuid, isEntryPath_recordFile (dir_ne_of_resolve hstart) uuid, hroom uuid⟩

theorem contentOf_of_none (hshelf : shelf uuid = none) :
    disk.contentOf (catalog.recordFile uuid) = .error .notFound := by
  obtain ⟨files, hfiled, hshelved⟩ := h
  exact hfiled.contentOf_eq_error hstart (isEntry_recordFile hstart hroom uuid)
    (by rw [hshelved.records, hshelf]; rfl)

theorem contentOf_of_some (hshelf : shelf uuid = some record) :
    disk.contentOf (catalog.recordFile uuid) = .ok record.encodePretty := by
  obtain ⟨files, hfiled, hshelved⟩ := h
  exact hfiled.contentOf_eq_ok hstart (isEntry_recordFile hstart hroom uuid)
    (by rw [hshelved.records, hshelf]; rfl)

theorem get?_of_none (hid : Uuid.ofText? id = some uuid) (hshelf : shelf uuid = none) :
    catalog.get? disk id = .ok none := by
  simp only [get?, recordPath, hid, contentOf_of_none hstart hroom h hshelf]

theorem get?_of_some (hid : Uuid.ofText? id = some uuid) (hshelf : shelf uuid = some record)
    (hstorable : record.IsStorable) : catalog.get? disk id = .ok (some record) := by
  simp only [get?, recordPath, hid, contentOf_of_some hstart hroom h hshelf,
    Record.decode?_encodePretty hstorable]

omit hroom in
theorem exists_ids : ∃ ids, catalog.ids disk = .ok ids ∧
    ids.Pairwise (fun a b => Text.before a b = true) ∧
      ∀ id, id ∈ ids ↔ ∃ uuid, id = uuid.text ∧ (shelf uuid).isSome := by
  obtain ⟨files, hfiled, hshelved⟩ := h
  obtain ⟨names, hnames, hnodup, hmem⟩ := hfiled.readDirectory hstart
  refine ⟨_, by rw [ids, hnames], ?_, ?_⟩
  · refine Text.pairwise_before_mergeSort (hnodup.filterMap ?_)
    intro name name' id hname hname'
    rw [idOfName?_eq_some_iff.mp hname, idOfName?_eq_some_iff.mp hname']
  · intro id
    rw [List.mem_mergeSort, List.mem_filterMap]
    constructor
    · rintro ⟨name, hname, hid⟩
      have hfile := (hmem name).mp hname
      obtain ⟨uuid, rfl⟩ | ⟨uuid, rfl⟩ := hshelved.drafts name hfile
      · rw [idOfName?_recordName] at hid
        refine ⟨uuid, (Option.some.inj hid).symm, ?_⟩
        rwa [hshelved.records, Option.isSome_map] at hfile
      · rw [idOfName?_draftName] at hid
        cases hid
    · rintro ⟨uuid, rfl, hshelf⟩
      refine ⟨recordName uuid, (hmem _).mpr ?_, idOfName?_recordName uuid⟩
      rwa [hshelved.records, Option.isSome_map]

end Reading

section Writing

theorem writeSteps_recordFile (catalog : DirectoryCatalog) (uuid : Uuid) (record : Record) :
    writeSteps (catalog.recordFile uuid) record =
      [.write (catalog.draftFile uuid) record.encodePretty,
        .rename (catalog.draftFile uuid) (catalog.recordFile uuid)] := rfl

theorem write_eq (path : Path) (record : Record) (disk : Disk) :
    write path record disk =
      ((DiskStep.runAll (writeSteps path record) disk).1.mapError storageError,
      (DiskStep.runAll (writeSteps path record) disk).2) := by
  simp only [write, bind, StateT.bind]
  cases DiskStep.runAll (writeSteps path record) disk with
  | mk answer disk' => cases answer <;> rfl

theorem update_of_unread {catalog : DirectoryCatalog} {id : String} (hid : Uuid.ofText? id = none)
    (record : Record) (disk : Disk) :
    catalog.update id record disk = (.error (.rejected ("unknown record id " ++ id)), disk) := by
  simp only [update, recordPath, hid]

theorem delete_of_unread {catalog : DirectoryCatalog} {id : String} (hid : Uuid.ofText? id = none)
    (disk : Disk) :
    catalog.delete id disk = (.error (.rejected ("unknown record id " ++ id)), disk) := by
  simp only [delete, recordPath, hid]

variable {catalog : DirectoryCatalog} {start disk : Disk} {place : List Bytes}
  {shelf : Uuid → Option Record} {uuid : Uuid} {id : String}
  (hstart : start.resolve true (Bytes.ofText catalog.dir) = .ok (place, some (.directory [])))
  (hroom : ∀ uuid, (catalog.recordFile uuid).length ≤ Path.maxLength)
  (h : Keeps start place shelf disk)

include hstart in
theorem isEntry_draftFile (uuid : Uuid)
    (hlength : (catalog.draftFile uuid).length ≤ Path.maxLength) :
    Disk.IsEntry (Bytes.ofText catalog.dir) (draftName uuid) (catalog.draftFile uuid) :=
  ⟨isName_draftName uuid, (isEntryPath_recordFile (dir_ne_of_resolve hstart) uuid).append _,
    hlength⟩

include hstart h

theorem keeps_draft (uuid : Uuid) (content : Bytes) :
    Keeps start place shelf (Disk.writeFile (catalog.draftFile uuid) content none disk).2 := by
  by_cases hlength : (catalog.draftFile uuid).length ≤ Path.maxLength
  · obtain ⟨files, hfiled, hshelved⟩ := h
    obtain ⟨disk', hwrite, hfiled'⟩ := hfiled.writeFile hstart
      (isEntry_draftFile hstart uuid hlength) content none
    rw [hwrite]
    exact ⟨_, hfiled', hshelved.update_draft uuid (some content)⟩
  · obtain ⟨e, hwrite⟩ := Disk.writeFile_of_long (Nat.not_le.mp hlength) content none disk
    rw [hwrite]
    exact h

include hroom

/-- Either both steps of writing a record are done, and the record is there from the second one on,
or there is no room for the path of the draft, and nothing has changed. -/
theorem writeSteps_cases (uuid : Uuid) (record : Record) :
    (∃ drafted written,
      (DiskStep.write (catalog.draftFile uuid) record.encodePretty).run disk = (.ok (), drafted) ∧
      Keeps start place shelf drafted ∧
      (DiskStep.rename (catalog.draftFile uuid) (catalog.recordFile uuid)).run drafted =
        (.ok (), written) ∧
      Keeps start place (Function.update shelf uuid (some record)) written) ∨
    Path.maxLength < (catalog.draftFile uuid).length ∧
      ∃ e, (DiskStep.write (catalog.draftFile uuid) record.encodePretty).run disk =
        (.error e, disk) := by
  by_cases hlength : (catalog.draftFile uuid).length ≤ Path.maxLength
  · left
    have hdraft := isEntry_draftFile hstart uuid hlength
    have hdrafted := keeps_draft hstart h uuid record.encodePretty
    obtain ⟨files, hfiled, hshelved⟩ := h
    obtain ⟨drafted, hwrite, hfiled'⟩ := hfiled.writeFile hstart hdraft record.encodePretty none
    obtain ⟨written, hrename, hfiled''⟩ := hfiled'.rename hstart hdraft
      (isEntry_recordFile hstart hroom uuid) (recordName_ne_draftName uuid uuid).symm
      (Function.update_self ..)
    have hshelved' := ((hshelved.update_draft uuid (some record.encodePretty)).update_draft uuid
      none).update_record uuid (some record)
    rw [hwrite] at hdrafted
    exact ⟨drafted, written, hwrite, hdrafted, hrename, _, hfiled'', hshelved'⟩
  · have hlong := Nat.not_le.mp hlength
    obtain ⟨e, hwrite⟩ := Disk.writeFile_of_long hlong record.encodePretty none disk
    exact .inr ⟨hlong, e, hwrite⟩

theorem write_cases (uuid : Uuid) (record : Record) :
    (∃ disk', write (catalog.recordFile uuid) record disk = (.ok (), disk') ∧
      Keeps start place (Function.update shelf uuid (some record)) disk') ∨
    Path.maxLength < (catalog.draftFile uuid).length ∧
      ∃ e, write (catalog.recordFile uuid) record disk = (.error (storageError e), disk) := by
  obtain ⟨drafted, written, hwrite, -, hrename, hkeeps⟩ | ⟨hlong, e, hwrite⟩ :=
    writeSteps_cases hstart hroom h uuid record
  · have hsteps : DiskStep.runAll (writeSteps (catalog.recordFile uuid) record) disk =
        (.ok (), written) := by
      rw [writeSteps_recordFile, DiskStep.runAll_of_ok hwrite, DiskStep.runAll_of_ok hrename,
        DiskStep.runAll_nil]
    exact .inl ⟨written, by rw [write_eq, hsteps]; rfl, hkeeps⟩
  · have hsteps : DiskStep.runAll (writeSteps (catalog.recordFile uuid) record) disk =
        (.error e, disk) := DiskStep.runAll_of_error hwrite _
    exact .inr ⟨hlong, e, by rw [write_eq, hsteps]; rfl⟩

theorem createAs_cases (uuid : Uuid) (record : Record) :
    (∃ disk', catalog.createAs uuid record disk = (.ok uuid.text, disk') ∧
      Keeps start place
        (Function.update shelf uuid (some { record with id := some uuid.text })) disk') ∨
    Path.maxLength < (catalog.draftFile uuid).length ∧
      ∃ e, catalog.createAs uuid record disk = (.error (storageError e), disk) := by
  obtain ⟨disk', hwrite, hkeeps⟩ | ⟨hlong, e, hwrite⟩ :=
    write_cases hstart hroom h uuid { record with id := some uuid.text }
  · exact .inl ⟨disk', by simp [createAs, bind, StateT.bind, hwrite]; rfl, hkeeps⟩
  · exact .inr ⟨hlong, e, by simp [createAs, bind, StateT.bind, hwrite]; rfl⟩

theorem update_of_none (hid : Uuid.ofText? id = some uuid) (hshelf : shelf uuid = none)
    (record : Record) :
    catalog.update id record disk = (.error (.rejected ("no record " ++ id)), disk) := by
  obtain ⟨files, hfiled, hshelved⟩ := h
  have hnode := hfiled.node?_eq_error hstart (isEntry_recordFile hstart hroom uuid)
    (by rw [hshelved.records, hshelf]; rfl)
  simp only [update, recordPath, hid, hnode]

theorem update_cases (hid : Uuid.ofText? id = some uuid) (hshelf : (shelf uuid).isSome)
    (record : Record) :
    (∃ disk', catalog.update id record disk = (.ok id, disk') ∧
      Keeps start place (Function.update shelf uuid (some { record with id := some id })) disk') ∨
    Path.maxLength < (catalog.draftFile uuid).length ∧
      ∃ e, catalog.update id record disk = (.error (storageError e), disk) := by
  have hcases := write_cases hstart hroom h uuid { record with id := some id }
  obtain ⟨files, hfiled, hshelved⟩ := h
  obtain ⟨node, hnode⟩ := hfiled.exists_node? hstart (isEntry_recordFile hstart hroom uuid)
    (by rwa [hshelved.records, Option.isSome_map])
  obtain ⟨disk', hwrite, hkeeps⟩ | ⟨hlong, e, hwrite⟩ := hcases
  · exact .inl ⟨disk', by simp only [update, recordPath, hid, hnode, hwrite], hkeeps⟩
  · exact .inr ⟨hlong, e, by simp only [update, recordPath, hid, hnode, hwrite]⟩

theorem remove_of_none (hshelf : shelf uuid = none) :
    (DiskStep.remove (catalog.recordFile uuid)).run disk = (.error .notFound, disk) := by
  obtain ⟨files, hfiled, hshelved⟩ := h
  exact hfiled.removeFile_of_none hstart (isEntry_recordFile hstart hroom uuid)
    (by rw [hshelved.records, hshelf]; rfl)

theorem remove_of_some (hshelf : (shelf uuid).isSome) :
    ∃ disk', (DiskStep.remove (catalog.recordFile uuid)).run disk = (.ok (), disk') ∧
      Keeps start place (Function.update shelf uuid none) disk' := by
  obtain ⟨record, hrecord⟩ := Option.isSome_iff_exists.mp hshelf
  obtain ⟨files, hfiled, hshelved⟩ := h
  obtain ⟨disk', hremove, hfiled'⟩ :=
    hfiled.removeFile hstart (isEntry_recordFile hstart hroom uuid)
    (by rw [hshelved.records, hrecord]; rfl)
  exact ⟨disk', hremove, _, hfiled', hshelved.update_record uuid none⟩

theorem delete_of_none (hid : Uuid.ofText? id = some uuid) (hshelf : shelf uuid = none) :
    catalog.delete id disk = (.error (.rejected ("no record " ++ id)), disk) := by
  have hsteps := DiskStep.runAll_of_error (remove_of_none hstart hroom h hshelf) []
  simp only [delete, recordPath, hid, hsteps]

theorem delete_of_some (hid : Uuid.ofText? id = some uuid) (hshelf : (shelf uuid).isSome) :
    ∃ disk', catalog.delete id disk = (.ok (), disk') ∧
      Keeps start place (Function.update shelf uuid none) disk' := by
  obtain ⟨disk', hremove, hkeeps⟩ := remove_of_some hstart hroom h hshelf
  have hsteps := DiskStep.runAll_of_ok hremove []
  rw [DiskStep.runAll_nil] at hsteps
  exact ⟨disk', by simp only [delete, recordPath, hid, hsteps], hkeeps⟩

end Writing

end DirectoryCatalog

end CatalogSync
