import CatalogSync.Disk.Settings
import CatalogSync.Proofs.Disk.Databases
import CatalogSync.Proofs.Table

namespace CatalogSync

inductive Edit where
  | set (key value : String)
  | remove (key : String)
  deriving DecidableEq

namespace Edit

def key : Edit → String
  | set key _ => key
  | remove key => key

def value? : Edit → Option String
  | set _ value => some value
  | remove _ => none

def apply (settings : Settings) : Edit → Settings
  | set key value => settings.insert key value
  | remove key => settings.erase key

/-- What some edits leave under a key, if `before` says what there was at first. -/
def stored (before : String → Option String) (edits : List Edit) (key : String) : Option String :=
  match edits.reverse.find? fun edit => edit.key = key with
  | some last => last.value?
  | none => before key

theorem get?_apply (settings : Settings) (edit : Edit) (key : String) :
    (edit.apply settings).get? key =
      if key = edit.key then edit.value? else settings.get? key := by
  cases edit with
  | set => exact Table.get?_insert ..
  | remove => exact Table.get?_erase ..

theorem get?_foldl_apply (edits : List Edit) (settings : Settings) (key : String) :
    (edits.foldl apply settings).get? key = stored settings.get? edits key := by
  induction edits generalizing settings with
  | nil => rfl
  | cons edit edits ih =>
    rw [List.foldl_cons, ih, stored, stored, List.reverse_cons, List.find?_append]
    cases edits.reverse.find? fun edit => edit.key = key with
    | some last => rfl
    | none =>
      show (edit.apply settings).get? key = _
      rw [get?_apply]
      by_cases hkey : key = edit.key
      · subst hkey
        simp
      · simp [hkey, Ne.symm hkey]

end Edit

namespace Disk

variable (connection : Connection)

def edit (change : Edit) : StateM Disk (Except ConfigError Unit) :=
  match change with
  | .set key value => setSetting connection key value
  | .remove key => removeSetting connection key

def editAll (edits : List Edit) (disk : Disk) : Disk :=
  edits.foldl (fun disk change => (edit connection change disk).2) disk

/-- Those of some edits that are answered without an error. -/
def accepted (disk : Disk) : List Edit → List Edit
  | [] => []
  | change :: edits =>
    let later := accepted (edit connection change disk).2 edits
    match (edit connection change disk).1 with
    | .ok () => change :: later
    | .error _ => later

/-- An edit is refused and changes nothing, or it does to the settings what it says. -/
inductive Edited (disk : Disk) (settings : Settings) (change : Edit) :
    Except ConfigError Unit × Disk → Prop where
  | refused (e : ConfigError) : Edited disk settings change (.error e, disk)
  | accepted (after : Disk) (hafter : after.settings connection = .ok (change.apply settings)) :
      Edited disk settings change (.ok (), after)

variable {connection} {disk : Disk} {settings : Settings}

theorem lt_length_of_readable (h : disk.settings connection = .ok settings) :
    connection.number < disk.databases.length := by
  apply Nat.lt_of_not_le
  intro hout
  have hmissing : (databaseFile connection.number).get disk = DatabaseFile.empty := by
    show (disk.databases[connection.number]?).getD default = DatabaseFile.empty
    rw [List.getElem?_eq_none hout]
    rfl
  rw [Disk.settings, hmissing] at h
  split at h <;> cases h

theorem readSettings_of_readable (h : disk.settings connection = .ok settings) :
    disk.isKeptFrom connection = false ∧
      ((databaseFile connection.number).get disk).legibility ≠ .overwritten ∧
      ((databaseFile connection.number).get disk).tables.settings = some settings := by
  rw [Disk.settings] at h
  split at h
  · cases h
  · rename_i hkept
    refine ⟨by simpa using hkept, ?_⟩
    rw [DatabaseFile.readSettings] at h
    split at h
    · cases h
    · rename_i hlegible
      refine ⟨hlegible, ?_⟩
      rw [Database.readSettings] at h
      split at h
      · rename_i stored hstored
        cases h
        exact hstored
      · cases h

/-- A disk on which the tables of an open database have been changed. -/
def withTables (disk : Disk) (number : Nat) (tables : Database) : Disk :=
  (databaseFile number).set { (databaseFile number).get disk with tables := tables } disk

theorem settings_withTables (h : disk.settings connection = .ok settings) (tables : Database) :
    (disk.withTables connection.number tables).settings connection = tables.readSettings := by
  obtain ⟨hkept, hlegible, -⟩ := readSettings_of_readable h
  have hfile : (databaseFile connection.number).get (disk.withTables connection.number tables) =
      { (databaseFile connection.number).get disk with tables := tables } := by
    rw [withTables, get_databaseFile_set, if_pos ⟨rfl, lt_length_of_readable h⟩]
  have hkept' : (disk.withTables connection.number tables).isKeptFrom connection = false := by
    rw [isKeptFrom, hfile]
    exact hkept
  rw [Disk.settings, hkept', hfile, DatabaseFile.readSettings]
  split
  · contradiction
  · split
    · exact absurd ‹_› hlegible
    · rfl

theorem changeSettings_eq (h : disk.settings connection = .ok settings)
    (change : Settings → Settings) :
    changeSettings connection change disk =
      if connection.isReadOnly ∨
          (!((databaseFile connection.number).get disk).hasLog ∧ disk.hasMoved connection) then
        (.error (.database writeFailure), disk)
      else (.ok (), disk.withTables connection.number
        { (database connection.number).get disk with settings := some (change settings) }) := by
  obtain ⟨-, -, hstored⟩ := readSettings_of_readable h
  simp only [changeSettings, h]
  split
  · rfl
  · have htables : (database connection.number).get disk =
        ((databaseFile connection.number).get disk).tables := rfl
    simp only [Part.lift, Database.changeSettings, Database.readSettings, htables, hstored]
    rfl

theorem edited_changeSettings (h : disk.settings connection = .ok settings) {edit : Edit}
    {change : Settings → Settings} (hchange : change settings = edit.apply settings) :
    Edited connection disk settings edit (changeSettings connection change disk) := by
  rw [changeSettings_eq h]
  split
  · exact .refused _
  · apply Edited.accepted
    rw [settings_withTables h, ← hchange]
    rfl

theorem erase_of_not_contains {key : String} (habsent : settings.contains key = false) :
    settings.erase key = settings := by
  apply Table.ext_get?
  intro other
  rw [Table.get?_erase]
  split
  · rename_i hkey
    rw [Table.contains, Option.isSome_eq_false_iff, Option.isNone_iff_eq_none] at habsent
    rw [hkey, habsent]
  · rfl

theorem edited_edit (h : disk.settings connection = .ok settings) (change : Edit) :
    Edited connection disk settings change (edit connection change disk) := by
  cases change with
  | set key value => exact edited_changeSettings h rfl
  | remove key =>
    simp only [edit, removeSetting, h]
    split
    · rename_i hnothing
      apply Edited.accepted
      show disk.settings connection = .ok (settings.erase key)
      rw [erase_of_not_contains (by simpa using hnothing.2), h]
    · exact edited_changeSettings h rfl

/-- After any edits the settings are those that the accepted ones have made of them. -/
theorem settings_editAll (h : disk.settings connection = .ok settings) (edits : List Edit) :
    (editAll connection edits disk).settings connection =
      .ok ((accepted connection disk edits).foldl Edit.apply settings) := by
  induction edits generalizing disk settings with
  | nil => exact h
  | cons change edits ih =>
    have hedited := edited_edit h change
    show (editAll connection edits (edit connection change disk).2).settings connection = _
    rw [accepted]
    generalize edit connection change disk = answer at hedited ⊢
    cases hedited with
    | refused e => exact ih h
    | accepted after hafter => exact ih hafter

theorem edit_of_unnamed (h : disk.settings connection = .ok settings)
    (hhome : connection.home = none) (hwritable : connection.isReadOnly = false) (change : Edit) :
    (edit connection change disk).1 = .ok () := by
  have hmoved : disk.hasMoved connection = false := by
    rw [hasMoved, hhome]
    rfl
  have hwrite : ∀ change, (changeSettings connection change disk).1 = .ok () := by
    intro change
    rw [changeSettings_eq h, hwritable, hmoved, if_neg (by simp)]
  cases change with
  | set key value => exact hwrite _
  | remove key =>
    simp only [edit, removeSetting, h]
    split
    · rfl
    · exact hwrite _

theorem accepted_of_unnamed (h : disk.settings connection = .ok settings)
    (hhome : connection.home = none) (hwritable : connection.isReadOnly = false)
    (edits : List Edit) : accepted connection disk edits = edits := by
  induction edits generalizing disk settings with
  | nil => rfl
  | cons change edits ih =>
    have hedited := edited_edit h change
    have hok := edit_of_unnamed h hhome hwritable change
    rw [accepted]
    generalize edit connection change disk = answer at hedited hok ⊢
    cases hedited with
    | refused e => cases hok
    | accepted after hafter =>
      show change :: accepted connection after edits = change :: edits
      rw [ih hafter]

/-- Settings in a database that is in no file. -/
def unnamed : Connection × Disk :=
  openUnnamed Database.empty.withSettings false (.empty "/")

theorem settings_unnamed : unnamed.2.settings unnamed.1 = .ok Table.empty := rfl

theorem accepted_unnamed (edits : List Edit) : accepted unnamed.1 unnamed.2 edits = edits :=
  accepted_of_unnamed settings_unnamed rfl rfl edits

theorem settings_editAll_unnamed (edits : List Edit) :
    (editAll unnamed.1 edits unnamed.2).settings unnamed.1 =
      .ok (edits.foldl Edit.apply Table.empty) := by
  rw [settings_editAll settings_unnamed, accepted_unnamed]

end Disk

end CatalogSync
