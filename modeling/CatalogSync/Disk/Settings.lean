import CatalogSync.Disk.Databases

namespace CatalogSync.Disk

/-- Whether a path leads to something that is no file. -/
def isObstructed (disk : Disk) (path : Path) : Bool :=
  match disk.resolve false path with
  | .ok (_, some (.file _ _)) => false
  | .ok (_, some _) => true
  | _ => false

/-- What keeps somebody from a database without a log that is open: that something is in the way of
the files beside it. Their paths are followed every time. -/
def isKeptFrom (disk : Disk) (connection : Connection) : Bool :=
  connection.home.any fun names =>
    !((databaseFile connection.number).get disk).hasLog &&
      (disk.isObstructed (absolutePath (beside names journalEnding)) ||
        disk.isObstructed (absolutePath (beside names logEnding)))

/-- Whether the path of an open database no longer leads to its file. -/
def hasMoved (disk : Disk) (connection : Connection) : Bool :=
  connection.home.any fun names =>
    (disk.node? (absolutePath names)).toOption.bind Node.databaseNumber? ≠ some connection.number

/-- The settings in a database that is open. -/
def settings (disk : Disk) (connection : Connection) : Except ConfigError Settings :=
  if disk.isKeptFrom connection then .error (.database openFailure)
  else ((databaseFile connection.number).get disk).readSettings

/-- Changes the settings in a database that is open. -/
def changeSettings (connection : Connection) (change : Settings → Settings) :
    StateM Disk (Except ConfigError Unit) := fun disk =>
  match disk.settings connection with
  | .error e => (.error e, disk)
  | .ok _ =>
    let hasLog := ((databaseFile connection.number).get disk).hasLog
    if connection.isReadOnly ∨ (!hasLog ∧ disk.hasMoved connection) then
      (.error (.database writeFailure), disk)
    else (database connection.number).lift (Database.changeSettings change) disk

def setSetting (connection : Connection) (key value : String) :
    StateM Disk (Except ConfigError Unit) :=
  changeSettings connection fun settings => settings.insert key value

/-- Removes a setting. If it is not there nothing is written. -/
def removeSetting (connection : Connection) (key : String) :
    StateM Disk (Except ConfigError Unit) := fun disk =>
  match disk.settings connection with
  | .error e => (.error e, disk)
  | .ok settings =>
    if !connection.isReadOnly ∧ !settings.contains key then (.ok (), disk)
    else changeSettings connection (fun settings => settings.erase key) disk

/-- Opens a database with a table of settings. What can only be read has to have the table
already. -/
def openSettings (name : Bytes) : StateM Disk (Except ConfigError Connection) := fun disk =>
  match connect name disk with
  | (.error e, disk) => (.error (.database e), disk)
  | (.ok connection, disk) =>
    let part := database connection.number
    let tables := part.get disk
    if tables.settings.isSome then (.ok connection, disk)
    else if connection.isReadOnly then (.error (.database writeFailure), disk)
    else (.ok connection, part.set tables.withSettings disk)

end CatalogSync.Disk
