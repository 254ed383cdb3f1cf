import CatalogSync.Lister.Directory
import CatalogSync.Lister.Static

namespace CatalogSync

theorem append_right_injective (first : String) : Function.Injective (first ++ ·) := by
  intro path other h
  have htexts := congrArg String.toList h
  simp only [String.toList_append, List.append_cancel_left_eq] at htexts
  exact String.toList_inj.mp htexts

theorem StaticTree.locate_injective (root : String) : Function.Injective (StaticTree.locate root) :=
  append_right_injective (root ++ "/")

theorem DirectoryLister.locate_injective (workingDir root : String) :
    Function.Injective (DirectoryLister.locate workingDir root) :=
  append_right_injective _

end CatalogSync
