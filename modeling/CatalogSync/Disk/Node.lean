import CatalogSync.Bytes

namespace CatalogSync

/-- A point in time: seconds from the start of 1970, and nanoseconds on top of them. -/
structure FileTime where
  seconds : Int
  nanos : Nat
  deriving DecidableEq

/-- Milliseconds from the start of 1970, rounded down. -/
def FileTime.millis (time : FileTime) : Int :=
  time.seconds * 1000 + time.nanos / 1000000

/-- The day that a point in time is on, counted from 1970-01-01. -/
def FileTime.day (time : FileTime) : Int :=
  (time.seconds + time.nanos / 1000000000) / 86400

/-- What a file holds: bytes, and perhaps a database in their place. -/
structure FileData where
  /-- The bytes that were written last. What a database writes itself is not kept here. -/
  content : Bytes
  /-- The number under which the database is kept, once the file has been opened as one. -/
  database : Option Nat
  deriving DecidableEq

def FileData.size (data : FileData) : Nat :=
  data.content.length

inductive Node where
  | file (data : FileData) (modified : FileTime)
  | directory (entries : List (Bytes × Node))
  | link (target : Bytes)

namespace Node

instance : Inhabited Node := ⟨directory []⟩

def isDirectory : Node → Bool
  | directory _ => true
  | _ => false

/-- The number of the database that a file holds. -/
def databaseNumber? : Node → Option Nat
  | file data _ => data.database
  | _ => none

/-- The entry of a directory with a given name. -/
def child? (name : Bytes) : Node → Option Node
  | directory entries => (entries.find? fun entry => entry.1 = name).map Prod.snd
  | _ => none

/-- Replaces the entry of a directory, adds it, or removes it. -/
def setChild (name : Bytes) (new : Option Node) : Node → Node
  | directory entries =>
    let others := entries.filter fun entry => entry.1 ≠ name
    match new with
    | none => directory others
    | some node =>
      if others.length = entries.length then directory (entries ++ [(name, node)])
      else directory (entries.map fun entry => if entry.1 = name then (name, node) else entry)
  | other => other

/-- The node that the names lead to, links not followed. -/
def at? : List Bytes → Node → Option Node
  | [], node => some node
  | name :: rest, node => (node.child? name).bind (at? rest)

/-- Replaces, adds or removes the node that the names lead to, if its directory exists. -/
def setAt : List Bytes → Option Node → Node → Node
  | [], new, node => new.getD node
  | [name], new, node => node.setChild name new
  | name :: rest, new, node =>
    match node.child? name with
    | some child => node.setChild name (some (setAt rest new child))
    | none => node

end Node

end CatalogSync
