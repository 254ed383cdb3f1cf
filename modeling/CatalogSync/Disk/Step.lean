import CatalogSync.Disk.Basic

namespace CatalogSync

inductive DiskStep where
  | write (path : Path) (content : Bytes)
  | rename (source target : Path)
  | remove (path : Path)
  deriving DecidableEq

namespace DiskStep

def run : DiskStep → StateM Disk (Except FileError Unit)
  | write path content => Disk.writeFile path content none
  | rename source target => Disk.rename source target
  | remove path => Disk.removeFile path

def runAll : List DiskStep → StateM Disk (Except FileError Unit)
  | [] => pure (.ok ())
  | step :: rest => do
    match ← step.run with
    | .ok () => runAll rest
    | .error e => return .error e

end DiskStep

end CatalogSync
