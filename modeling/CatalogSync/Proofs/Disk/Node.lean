import CatalogSync.Disk.Node
import Mathlib.Data.List.Basic
import Mathlib.Data.Option.Basic

namespace CatalogSync.Node

/-- What a node is to somebody who follows a path. -/
inductive Kind where
  | file
  | directory
  | link (target : Bytes)
  deriving DecidableEq

def kind : Node → Kind
  | file _ _ => .file
  | directory _ => .directory
  | link target => .link target

def kindAt (root : Node) (place : List Bytes) : Option Kind :=
  (root.at? place).map kind

theorem isDirectory_iff (node : Node) : node.isDirectory = true ↔ node.kind = .directory := by
  cases node <;> simp [isDirectory, kind]

theorem eq_link_of_kind {node : Node} {target : Bytes} (h : node.kind = .link target) :
    node = link target := by
  cases node <;> simp_all [kind]

theorem kindAt_eq_link_iff {root : Node} {place : List Bytes} {target : Bytes} :
    root.kindAt place = some (.link target) ↔ root.at? place = some (.link target) := by
  rw [kindAt, Option.map_eq_some_iff]
  constructor
  · rintro ⟨node, hnode, hkind⟩
    cases node <;> simp_all [kind]
  · exact fun hnode => ⟨_, hnode, rfl⟩

theorem at?_append (root : Node) (directory names : List Bytes) :
    root.at? (directory ++ names) = (root.at? directory).bind (at? names) := by
  induction directory generalizing root with
  | nil => rfl
  | cons name rest ih =>
    simp only [List.cons_append, at?]
    cases root.child? name with
    | none => rfl
    | some child => exact ih child

theorem at?_concat (root : Node) (directory : List Bytes) (name : Bytes) :
    root.at? (directory ++ [name]) = (root.at? directory).bind (child? name) := by
  rw [at?_append]
  refine congrArg (Option.bind _) (funext fun node => ?_)
  cases h : node.child? name <;> simp [at?, h]

theorem find?_replaced (name name' : Bytes) (node : Node) (entries : List (Bytes × Node)) :
    ((entries.map fun entry => if entry.1 = name then (name, node) else entry).find? fun entry =>
        entry.1 = name') =
      (entries.find? fun entry => entry.1 = name').map fun entry =>
        if entry.1 = name then (name, node) else entry := by
  rw [List.find?_map]
  refine congrArg (fun p => (entries.find? p).map _) (funext fun entry => ?_)
  by_cases hname : entry.1 = name
  · simp [hname]
  · simp [hname]

theorem child?_setChild (name name' : Bytes) (new : Option Node) (entries : List (Bytes × Node)) :
    (setChild name new (directory entries)).child? name' =
      if name' = name then new else (directory entries).child? name' := by
  cases new with
  | none =>
    simp only [setChild, child?, List.find?_filter]
    split
    · rename_i hname
      subst hname
      simp
    · rename_i hname
      refine congrArg (fun p => (entries.find? p).map Prod.snd) (funext fun entry => ?_)
      by_cases hentry : entry.1 = name'
      · simp [hentry, hname]
      · simp [hentry]
  | some node =>
    simp only [setChild]
    split
    · rename_i hlength
      have hnew : ∀ entry ∈ entries, entry.1 ≠ name := by
        simpa using hlength
      simp only [child?, List.find?_append]
      split
      · rename_i hname
        subst hname
        have hnone : (entries.find? fun entry => entry.1 = name') = none := by
          simpa [List.find?_eq_none] using hnew
        simp [hnone]
      · rename_i hname
        simp [Ne.symm hname]
    · rename_i hlength
      simp only [child?, find?_replaced, Option.map_map]
      have hfound : ∀ entry, (entries.find? fun entry => entry.1 = name') = some entry →
          entry.1 = name' := fun entry hentry => by simpa using List.find?_some hentry
      split
      · rename_i hname
        subst hname
        have hthere : (entries.find? fun entry => entry.1 = name').isSome := by
          simpa [List.find?_isSome] using hlength
        obtain ⟨entry, hentry⟩ := Option.isSome_iff_exists.mp hthere
        simp [hentry, hfound entry hentry]
      · rename_i hname
        cases hentry : entries.find? fun entry => entry.1 = name' with
        | none => rfl
        | some entry => simp [hfound entry hentry, hname]

theorem setAt_cons (name : Bytes) {rest : List Bytes} (hrest : rest ≠ []) (new : Option Node)
    (root : Node) :
    root.setAt (name :: rest) new =
      match root.child? name with
      | some child => root.setChild name (some (child.setAt rest new))
      | none => root := by
  cases rest with
  | nil => exact absurd rfl hrest
  | cons next rest => rfl

theorem eq_directory_of_child? {root child : Node} {name : Bytes}
    (h : root.child? name = some child) : ∃ entries, root = directory entries := by
  cases root with
  | directory entries => exact ⟨entries, rfl⟩
  | _ => cases h

theorem at?_setAt_of_not_prefix {place other : List Bytes} (new : Option Node)
    (hplace : ¬place <+: other) (hother : ¬other <+: place) (root : Node) :
    (root.setAt place new).at? other = root.at? other := by
  induction place generalizing other root with
  | nil => exact absurd List.nil_prefix hplace
  | cons name rest ih =>
    cases other with
    | nil => exact absurd List.nil_prefix hother
    | cons name' others =>
      by_cases hrest : rest = []
      · subst hrest
        have hname : name' ≠ name := by
          rintro rfl
          exact hplace ⟨others, rfl⟩
        cases root with
        | directory entries => simp only [setAt, at?, child?_setChild, hname, if_false]
        | _ => rfl
      · rw [setAt_cons name hrest]
        cases hchild : root.child? name with
        | none => rfl
        | some child =>
          obtain ⟨entries, rfl⟩ := eq_directory_of_child? hchild
          simp only [at?, child?_setChild]
          split
          · rename_i hname
            subst hname
            rw [hchild]
            rw [List.cons_prefix_cons, eq_self, true_and] at hplace hother
            exact ih hplace hother child
          · rfl

theorem kindAt_cons (root : Node) (name : Bytes) (rest : List Bytes) :
    root.kindAt (name :: rest) = (root.child? name).bind fun child => child.kindAt rest := by
  simp only [kindAt, at?]
  cases root.child? name <;> rfl

theorem eq_directory_of_kind {root : Node} (h : root.kindAt [] = some .directory) :
    ∃ entries, root = directory entries := by
  cases root with
  | directory entries => exact ⟨entries, rfl⟩
  | _ => cases h

theorem at?_setAt_self {directory : List Bytes} {root : Node}
    (h : root.kindAt directory = some .directory) (name : Bytes) (new : Option Node) :
    (root.setAt (directory ++ [name]) new).at? (directory ++ [name]) = new := by
  induction directory generalizing root with
  | nil =>
    obtain ⟨entries, rfl⟩ := eq_directory_of_kind h
    cases new <;> simp [setAt, at?, child?_setChild]
  | cons first rest ih =>
    rw [kindAt_cons] at h
    obtain ⟨child, hchild, hkind⟩ := Option.bind_eq_some_iff.mp h
    obtain ⟨entries, rfl⟩ := eq_directory_of_child? hchild
    rw [List.cons_append, setAt_cons first (by simp), hchild]
    simp only [at?, child?_setChild, if_true]
    exact ih hkind

theorem at?_leaf {node : Node} (hleaf : ∀ name, node.child? name = none) {place : List Bytes}
    (hplace : place ≠ []) : node.at? place = none := by
  cases place with
  | nil => exact absurd rfl hplace
  | cons name rest => rw [at?, hleaf, Option.bind_none]

theorem child?_of_kind {node : Node} (h : node.kind ≠ .directory) (name : Bytes) :
    node.child? name = none := by
  cases node with
  | directory entries => exact absurd rfl h
  | _ => rfl

theorem kindAt_append (root : Node) (directory names : List Bytes) :
    root.kindAt (directory ++ names) =
      (root.at? directory).bind fun node => node.kindAt names := by
  rw [kindAt, at?_append]
  cases root.at? directory <;> rfl

theorem kindAt_below_file {root : Node} {place rest : List Bytes}
    (h : root.kindAt place = some .file) (hrest : rest ≠ []) :
    root.kindAt (place ++ rest) = none := by
  obtain ⟨node, hnode, hkind⟩ := Option.map_eq_some_iff.mp h
  rw [kindAt_append, hnode, Option.bind_some, kindAt,
    at?_leaf (child?_of_kind (by simp [hkind])) hrest]
  rfl

theorem kindAt_directory_of_some {root : Node} {directory : List Bytes} (name : Bytes) {kind : Kind}
    (h : root.kindAt (directory ++ [name]) = some kind) :
    root.kindAt directory = some .directory := by
  rw [kindAt_append] at h
  obtain ⟨node, hnode, hkind⟩ := Option.bind_eq_some_iff.mp h
  rw [kindAt_cons] at hkind
  obtain ⟨child, hchild, -⟩ := Option.bind_eq_some_iff.mp hkind
  obtain ⟨entries, rfl⟩ := eq_directory_of_child? hchild
  rw [kindAt, hnode]
  rfl

section Views

variable {α : Type} {view : Node → α}

theorem view_setChild (hview : ∀ entries others, view (directory entries) = view (directory others))
    (name : Bytes) (new : Option Node) (entries : List (Bytes × Node)) :
    view (setChild name new (directory entries)) = view (directory entries) := by
  cases new with
  | none => exact hview _ _
  | some node =>
    simp only [setChild]
    split <;> exact hview _ _

theorem map_at?_setChild_cons (name name' : Bytes) (new : Option Node)
    (entries : List (Bytes × Node)) (rest : List Bytes) :
    ((setChild name new (directory entries)).at? (name' :: rest)).map view =
      if name' = name then (new.bind (at? rest)).map view
      else ((directory entries).at? (name' :: rest)).map view := by
  rw [at?, child?_setChild, at?]
  split <;> rfl

/-- Where a node without entries is put, or one is taken away, nothing is below. Of all other nodes
one sees what one has seen before, but for what is in directories. -/
theorem map_at?_setAt (hview : ∀ entries others, view (directory entries) = view (directory others))
    {directory : List Bytes} {root : Node} {new : Option Node}
    (h : root.kindAt directory = some .directory) (name : Bytes)
    (hleaf : ∀ node ∈ new, ∀ name, node.child? name = none) (place : List Bytes) :
    ((root.setAt (directory ++ [name]) new).at? place).map view =
      if place = directory ++ [name] then new.map view
      else if directory ++ [name] <+: place then none
      else (root.at? place).map view := by
  induction directory generalizing root place with
  | nil =>
    obtain ⟨entries, rfl⟩ := eq_directory_of_kind h
    cases place with
    | nil => simp [setAt, at?, view_setChild hview]
    | cons first rest =>
      rw [List.nil_append, setAt, map_at?_setChild_cons]
      by_cases hname : first = name
      · subst hname
        by_cases hrest : rest = []
        · subst hrest
          cases new <;> simp [at?]
        · cases new with
          | none => simp [hrest]
          | some node => simp [hrest, at?_leaf (hleaf node rfl) hrest]
      · simp [hname, Ne.symm hname]
  | cons first rest ih =>
    rw [kindAt_cons] at h
    obtain ⟨child, hchild, hkind⟩ := Option.bind_eq_some_iff.mp h
    obtain ⟨entries, rfl⟩ := eq_directory_of_child? hchild
    rw [List.cons_append, setAt_cons first (by simp), hchild]
    cases place with
    | nil => simp [at?, view_setChild hview]
    | cons first' rest' =>
      rw [map_at?_setChild_cons]
      by_cases hname : first' = first
      · subst hname
        rw [if_pos rfl, Option.bind_some, ih hkind, at?, hchild, Option.bind_some]
        simp only [List.cons.injEq, true_and, List.cons_prefix_cons]
      · simp [hname, Ne.symm hname]

theorem kindAt_setAt {directory : List Bytes} {root : Node} {new : Option Node}
    (h : root.kindAt directory = some .directory) (name : Bytes)
    (hleaf : ∀ node ∈ new, ∀ name, node.child? name = none) (place : List Bytes) :
    (root.setAt (directory ++ [name]) new).kindAt place =
      if place = directory ++ [name] then new.map kind
      else if directory ++ [name] <+: place then none
      else root.kindAt place :=
  map_at?_setAt (fun _ _ => rfl) h name hleaf place

end Views

/-- What there is in the tree is there in a full one. -/
def Within (tree full : Node) : Prop :=
  ∀ place kind, tree.kindAt place = some kind → full.kindAt place = some kind

/-- The tree has the same directories and links as a full one, and no other files. -/
def Sparser (tree full : Node) : Prop :=
  ∀ place, tree.kindAt place = full.kindAt place ∨
    full.kindAt place = some .file ∧ tree.kindAt place = none

namespace Sparser

variable {tree full : Node}

theorem refl (tree : Node) : Sparser tree tree :=
  fun _ => Or.inl rfl

theorem within (h : Sparser tree full) : Within tree full := by
  intro place kind hkind
  rcases h place with heq | ⟨-, hnone⟩
  · rw [← heq, hkind]
  · rw [hkind] at hnone
    cases hnone

theorem kindAt_of_ne_file (h : Sparser tree full) {place : List Bytes}
    (hkind : full.kindAt place ≠ some .file) : tree.kindAt place = full.kindAt place := by
  rcases h place with heq | ⟨hfile, -⟩
  · exact heq
  · exact absurd hfile hkind

theorem setAt (h : Sparser tree full) {directory : List Bytes}
    (hdirectory : tree.kindAt directory = some .directory) {name : Bytes}
    (hfull : full.kindAt (directory ++ [name]) = some .file) {new : Option Node}
    (hfile : ∀ node ∈ new, node.kind = .file) :
    Sparser (tree.setAt (directory ++ [name]) new) full := by
  intro place
  rw [kindAt_setAt hdirectory name fun node hnode => child?_of_kind (by simp [hfile node hnode])]
  split
  · rename_i hplace
    subst hplace
    cases new with
    | none => exact Or.inr ⟨hfull, rfl⟩
    | some node => exact Or.inl (by rw [hfull, Option.map_some, hfile node rfl])
  · split
    · rename_i hne hbelow
      obtain ⟨rest, rfl⟩ := hbelow
      exact Or.inl (kindAt_below_file hfull fun hrest => hne (by simp [hrest])).symm
    · exact h place

end Sparser

end CatalogSync.Node
