import CatalogSync.Store.Database

/-!
A database with what is known of the file it is kept in. It keeps its journal beside the file only
while a change is made, or else it has a log: then changes go to the log first, and the log is in
use as long as somebody has the database open.
-/

namespace CatalogSync

/-- Whether a database can be made out in its file. -/
inductive Legibility where
  | sound
  /-- Other bytes have been written over it. -/
  | overwritten
  /-- The file has been emptied, and all that was in it is only in the log that is in use. -/
  | emptied
  deriving DecidableEq, Repr

structure DatabaseFile where
  tables : Database
  hasLog : Bool
  /-- The names that led to the file when its log was taken into use. -/
  logInUse : Option (List Bytes)
  legibility : Legibility

namespace DatabaseFile

/-- A database in which nothing has been changed yet. -/
def ofTables (tables : Database) : DatabaseFile := ⟨tables, false, none, .sound⟩

def empty : DatabaseFile := ofTables Database.empty

instance : Inhabited DatabaseFile := ⟨empty⟩

/-- A file of at most one byte counts as empty. -/
def countsAsEmpty (content : Bytes) : Bool :=
  content.length ≤ 1

/-- A database after bytes have been written over its file. What is in a log in use outlives
that. -/
def overwrite (content : Bytes) (file : DatabaseFile) : DatabaseFile :=
  if file.logInUse.isSome then
    { file with legibility := if countsAsEmpty content then .emptied else .sound }
  else if countsAsEmpty content then empty
  else { file with legibility := .overwritten }

/-- A database that nobody has open any longer: what is in its log has gone to the file. -/
def close (file : DatabaseFile) : DatabaseFile :=
  if file.logInUse.isSome then { file with logInUse := none, legibility := .sound } else file

/-- The settings, for somebody who has the database open. -/
def readSettings (file : DatabaseFile) : Except ConfigError Settings :=
  match file.legibility with
  | .overwritten => .error (.database "file is not a database")
  | _ => file.tables.readSettings

end DatabaseFile

end CatalogSync
