import CatalogSync.Disk.Databases
import CatalogSync.Proofs.Disk.Node

namespace CatalogSync.Disk

open Node (Sparser Within)

variable {tree full : Node}

section Travel

variable {α : Type} {go : List Bytes → Bytes → Bool → Stride α} {arrive : List Bytes → α}
  {astray : α} {links : Nat} {here rest : List Bytes} {name : Bytes}

theorem travel_nil : travel go arrive astray links here [] = arrive here := by
  cases links <;> rfl

theorem travel_of_halt {result : α} (h : go here name rest.isEmpty = .halt result) :
    travel go arrive astray links here (name :: rest) = result := by
  cases links <;> simp only [travel, travelUpTo, h]

theorem travel_of_enter {there : List Bytes} (h : go here name rest.isEmpty = .enter there) :
    travel go arrive astray links here (name :: rest) =
      travel go arrive astray links there rest := by
  cases links <;> simp only [travel, travelUpTo, h]

theorem travel_of_follow {target : Bytes} (h : go here name rest.isEmpty = .follow target) :
    travel go arrive astray links here (name :: rest) =
      match links with
      | 0 => astray
      | links + 1 =>
        travel go arrive astray links (if Path.isAbsolute target then [] else here)
          (Path.rawNames target ++ rest) := by
  cases links <;> simp only [travel, travelUpTo, h]

/-- What holds along a way: of no names at all, and of more of them if it does behind the first one
and behind any link that can be followed. -/
theorem travel_induction {motive : Nat → List Bytes → List Bytes → Prop}
    (nil : ∀ links here, motive links here [])
    (cons : ∀ links here name rest, (∀ there, motive links there rest) →
      (∀ fewer there names, links = fewer + 1 → motive fewer there names) →
      motive links here (name :: rest))
    (links : Nat) (here names : List Bytes) : motive links here names := by
  induction links generalizing here names with
  | zero =>
    induction names generalizing here with
    | nil => exact nil 0 here
    | cons name rest ih => exact cons 0 here name rest ih fun _ _ _ hfewer => by cases hfewer
  | succ links ihLinks =>
    induction names generalizing here with
    | nil => exact nil (links + 1) here
    | cons name rest ih =>
      refine cons (links + 1) here name rest ih fun fewer there names hfewer => ?_
      cases hfewer
      exact ihLinks there names

/-- Two ways along the same names compare if they do where they arrive, and if each name comes to
the same on both or to the end of a way that compares with any other. -/
theorem travel_rel {R : α → α → Prop} {go' : List Bytes → Bytes → Bool → Stride α}
    {arrive' : List Bytes → α} (hrefl : ∀ result, R result result)
    (harrive : ∀ here, R (arrive here) (arrive' here))
    (hgo : ∀ here name isLast,
      (∃ result, go here name isLast = .halt result ∧ ∀ other, R result other) ∨
      (∃ result, go' here name isLast = .halt result ∧ ∀ other, R other result) ∨
      go' here name isLast = go here name isLast)
    (links : Nat) (here names : List Bytes) :
    R (travel go arrive astray links here names) (travel go' arrive' astray links here names) := by
  induction links, here, names using travel_induction with
  | nil links here =>
    rw [travel_nil, travel_nil]
    exact harrive here
  | cons links here name rest ih ihLinks =>
    obtain ⟨result, hhalt, hany⟩ | ⟨result, hhalt, hany⟩ | hsame := hgo here name rest.isEmpty
    · rw [travel_of_halt hhalt]
      exact hany _
    · rw [travel_of_halt hhalt]
      exact hany _
    · cases hstride : go here name rest.isEmpty with
      | halt result =>
        rw [travel_of_halt hstride, travel_of_halt (hsame.trans hstride)]
        exact hrefl result
      | enter there =>
        rw [travel_of_enter hstride, travel_of_enter (hsame.trans hstride)]
        exact ih there
      | follow target =>
        rw [travel_of_follow hstride, travel_of_follow (hsame.trans hstride)]
        cases links with
        | zero => exact hrefl astray
        | succ links => exact ihLinks links _ _ rfl

end Travel

theorem nodeBelow_of_directory {root : Node} {directory : List Bytes} {name : Bytes}
    (hdirectory : root.kindAt directory = some .directory)
    (hlength : name.length ≤ Path.maxNameLength) :
    nodeBelow root directory name = .ok (root.at? (directory ++ [name])) := by
  obtain ⟨node, hnode, hkind⟩ := Option.map_eq_some_iff.mp hdirectory
  rw [nodeBelow, hnode, Node.at?_concat, hnode]
  simp [(Node.isDirectory_iff node).mpr hkind, Nat.not_lt.mpr hlength]

theorem nodeBelow_of_nothing {root : Node} {directory : List Bytes} (name : Bytes)
    (hnothing : root.kindAt directory = none) : nodeBelow root directory name = .ok none := by
  rw [nodeBelow, Option.map_eq_none_iff.mp hnothing]

theorem nodeBelow_of_sparser (h : Sparser tree full) {directory : List Bytes} {name : Bytes}
    {found : Option Node} (hfull : nodeBelow full directory name = .ok found) :
    ∃ found', nodeBelow tree directory name = .ok found' ∧
      ∀ target, found' = some (.link target) ↔ found = some (.link target) := by
  cases hkind : full.kindAt directory with
  | none =>
    have hnothing : tree.kindAt directory = none := by
      rw [h.kindAt_of_ne_file (by simp [hkind]), hkind]
    rw [nodeBelow_of_nothing name hkind] at hfull
    cases hfull
    exact ⟨none, nodeBelow_of_nothing name hnothing, fun _ => Iff.rfl⟩
  | some kind =>
    have hfacts : kind = .directory ∧ name.length ≤ Path.maxNameLength := by
      obtain ⟨node, hnode, rfl⟩ := Option.map_eq_some_iff.mp hkind
      rw [nodeBelow, hnode] at hfull
      simp only at hfull
      split at hfull
      · cases hfull
      · rename_i hdirectory
        split at hfull
        · cases hfull
        · rename_i hlength
          exact ⟨(Node.isDirectory_iff node).mp (by simpa using hdirectory), by omega⟩
    obtain ⟨rfl, hlength⟩ := hfacts
    have hdirectory : tree.kindAt directory = some .directory := by
      rw [h.kindAt_of_ne_file (by simp [hkind]), hkind]
    rw [nodeBelow_of_directory hkind hlength] at hfull
    cases hfull
    refine ⟨_, nodeBelow_of_directory hdirectory hlength, fun target => ?_⟩
    rw [← Node.kindAt_eq_link_iff, ← Node.kindAt_eq_link_iff]
    refine ⟨h.within _ _, fun hlink => ?_⟩
    rw [h.kindAt_of_ne_file (by simp [hlink]), hlink]

theorem pass_of_no_link {found : Option Node} (hplain : ∀ target, found ≠ some (.link target))
    (here : List Bytes) (name : Bytes) : pass here name found = .enter (here ++ [name]) := by
  cases found with
  | none => rfl
  | some node =>
    cases node with
    | link target => exact absurd rfl (hplain target)
    | file data modified => rfl
    | directory entries => rfl

theorem pass_congr {found found' : Option Node}
    (hlinks : ∀ target, found' = some (.link target) ↔ found = some (.link target))
    (here : List Bytes) (name : Bytes) : pass here name found' = pass here name found := by
  by_cases hlink : ∃ target, found = some (.link target)
  · obtain ⟨target, rfl⟩ := hlink
    rw [(hlinks target).mpr rfl]
  · rw [not_exists] at hlink
    rw [pass_of_no_link hlink, pass_of_no_link fun target htarget =>
      hlink target ((hlinks target).mp htarget)]

/-- What a name comes to is the same in all trees, or it is told by what is there. -/
theorem plainStride_cases (here : List Bytes) (name : Bytes) (isLast : Bool) :
    (∀ root root', plainStride root here name isLast = plainStride root' here name isLast) ∨
      ∀ root, plainStride root here name isLast =
        match nodeBelow root here name with
        | .error _ => .halt none
        | .ok found => pass here name found := by
  simp only [plainStride]
  split_ifs
  · exact .inl fun _ _ => rfl
  · exact .inl fun _ _ => rfl
  · exact .inl fun _ _ => rfl
  · exact .inr fun _ => rfl

theorem plainNames?_of_sparser (h : Sparser tree full) {links : Nat} {here names plain : List Bytes}
    (hfull : plainNames? full links here names = some plain) :
    plainNames? tree links here names = some plain := by
  refine travel_rel (R := fun before after => ∀ plain, before = some plain → after = some plain)
    (fun _ _ hplain => hplain) (fun _ _ hplain => hplain) (fun here name isLast => ?_) links here
    names plain hfull
  obtain hsame | hbelow := plainStride_cases here name isLast
  · exact .inr (.inr (hsame tree full))
  · rw [hbelow, hbelow]
    cases hfull : nodeBelow full here name with
    | error e => exact .inl ⟨none, rfl, nofun⟩
    | ok found =>
      obtain ⟨found', htree, hlinks⟩ := nodeBelow_of_sparser h hfull
      rw [htree]
      exact .inr (.inr (pass_congr hlinks here name))

theorem at?_of_within (h : Within tree full) {place : List Bytes} {node : Node}
    (hnode : tree.at? place = some node) :
    ∃ node', full.at? place = some node' ∧ node'.kind = node.kind :=
  Option.map_eq_some_iff.mp (h _ _ (by rw [Node.kindAt, hnode]; rfl))

theorem directory_of_within (h : Within tree full) {directory : List Bytes} {node : Node}
    (hnode : tree.at? directory = some node) (hdirectory : ¬(!node.isDirectory) = true) :
    ∃ node', full.at? directory = some node' ∧ ¬(!node'.isDirectory) = true := by
  obtain ⟨node', hnode', hkind⟩ := at?_of_within h hnode
  refine ⟨node', hnode', ?_⟩
  have hsome : node.isDirectory = true := by simpa using hdirectory
  simp [(Node.isDirectory_iff node').mpr (hkind.trans ((Node.isDirectory_iff node).mp hsome))]

theorem child?_of_within (h : Within tree full) {directory : List Bytes} {node child : Node}
    {name : Bytes} (hnode : tree.at? directory = some node)
    (hchild : node.child? name = some child) :
    ∃ node' child', full.at? directory = some node' ∧ node'.child? name = some child' ∧
      child'.kind = child.kind := by
  have hplace : tree.at? (directory ++ [name]) = some child := by
    rw [Node.at?_concat, hnode]
    exact hchild
  obtain ⟨child', hchild', hkind⟩ := at?_of_within h hplace
  rw [Node.at?_concat] at hchild'
  obtain ⟨node', hnode', hchild'⟩ := Option.bind_eq_some_iff.mp hchild'
  exact ⟨node', child', hnode', hchild', hkind⟩

section Resolution

variable {root there child : Node} {follow isLast : Bool} {links : Nat} {here rest : List Bytes}
  {name target : Bytes}

theorem stride_stay (hhere : root.at? here = some there) (hdirectory : ¬(!there.isDirectory) = true)
    (hname : name = [] ∨ name = Path.dot) : stride root follow here name isLast = .enter here := by
  simp only [stride, hhere, if_neg hdirectory, if_pos hname]

theorem stride_up (hhere : root.at? here = some there)
    (hdirectory : ¬(!there.isDirectory) = true) :
    stride root follow here Path.dotDot isLast = .enter here.dropLast := by
  have hname : ¬(Path.dotDot = [] ∨ Path.dotDot = Path.dot) := by decide
  simp only [stride, hhere, if_neg hdirectory, if_neg hname, if_true]

theorem stride_of_nothing (hhere : root.at? here = some there)
    (hdirectory : ¬(!there.isDirectory) = true) (hname : ¬(name = [] ∨ name = Path.dot))
    (hdots : name ≠ Path.dotDot) (hlong : ¬Path.maxNameLength < name.length)
    (hchild : there.child? name = none) :
    stride root follow here name isLast =
      .halt (if isLast then .ok (here ++ [name], none) else .error .notFound) := by
  simp only [stride, hhere, if_neg hdirectory, if_neg hname, if_neg hdots, if_neg hlong, hchild]

theorem stride_of_link (hhere : root.at? here = some there)
    (hname : ¬(name = [] ∨ name = Path.dot)) (hdots : name ≠ Path.dotDot)
    (hlong : ¬Path.maxNameLength < name.length) (hchild : there.child? name = some (.link target)) :
    stride root follow here name isLast =
      if isLast ∧ !follow then .halt (.ok (here ++ [name], some (.link target)))
      else .follow target := by
  obtain ⟨entries, rfl⟩ := Node.eq_directory_of_child? hchild
  simp only [stride, hhere, Node.isDirectory, Bool.not_true, Bool.false_eq_true, if_false,
    if_neg hname, if_neg hdots, if_neg hlong, hchild]

theorem stride_of_no_link (hhere : root.at? here = some there)
    (hname : ¬(name = [] ∨ name = Path.dot)) (hdots : name ≠ Path.dotDot)
    (hlong : ¬Path.maxNameLength < name.length) (hchild : there.child? name = some child)
    (hlink : ∀ target, child.kind ≠ .link target) :
    stride root follow here name isLast = .enter (here ++ [name]) := by
  obtain ⟨entries, rfl⟩ := Node.eq_directory_of_child? hchild
  simp only [stride, hhere, Node.isDirectory, Bool.not_true, Bool.false_eq_true, if_false,
    if_neg hname, if_neg hdots, if_neg hlong, hchild]
  cases child with
  | link target => exact absurd rfl (hlink target)
  | file data modified => rfl
  | directory entries => rfl

/-- What a name can come to, with what is in the tree then. -/
inductive Strides (root : Node) (follow : Bool) (here : List Bytes) (name : Bytes) (isLast : Bool) :
    Stride (Except FileError (List Bytes × Option Node)) → Prop where
  | fails (e : FileError) : Strides root follow here name isLast (.halt (.error e))
  | stay {there : Node} (hhere : root.at? here = some there)
      (hdirectory : ¬(!there.isDirectory) = true) (hname : name = [] ∨ name = Path.dot) :
      Strides root follow here name isLast (.enter here)
  | up {there : Node} (hhere : root.at? here = some there)
      (hdirectory : ¬(!there.isDirectory) = true) (hname : name = Path.dotDot) :
      Strides root follow here name isLast (.enter here.dropLast)
  | absent {there : Node} (hhere : root.at? here = some there)
      (hdirectory : ¬(!there.isDirectory) = true) (hchild : there.child? name = none) :
      Strides root follow here name isLast (.halt (.ok (here ++ [name], none)))
  | keep {there : Node} {target : Bytes} (hhere : root.at? here = some there)
      (hname : ¬(name = [] ∨ name = Path.dot)) (hdots : name ≠ Path.dotDot)
      (hlong : ¬Path.maxNameLength < name.length) (hchild : there.child? name = some (.link target))
      (hlast : isLast ∧ !follow) :
      Strides root follow here name isLast (.halt (.ok (here ++ [name], some (.link target))))
  | follow {there : Node} {target : Bytes} (hhere : root.at? here = some there)
      (hname : ¬(name = [] ∨ name = Path.dot)) (hdots : name ≠ Path.dotDot)
      (hlong : ¬Path.maxNameLength < name.length) (hchild : there.child? name = some (.link target))
      (hlast : ¬(isLast ∧ !follow)) :
      Strides root follow here name isLast (.follow target)
  | enter {there child : Node} (hhere : root.at? here = some there)
      (hname : ¬(name = [] ∨ name = Path.dot)) (hdots : name ≠ Path.dotDot)
      (hlong : ¬Path.maxNameLength < name.length) (hchild : there.child? name = some child)
      (hlink : ∀ target, child.kind ≠ .link target) :
      Strides root follow here name isLast (.enter (here ++ [name]))

theorem strides (root : Node) (follow : Bool) (here : List Bytes) (name : Bytes) (isLast : Bool) :
    Strides root follow here name isLast (stride root follow here name isLast) := by
  cases hhere : root.at? here with
  | none =>
    simp only [stride, hhere]
    exact .fails .notFound
  | some there =>
    by_cases hdirectory : (!there.isDirectory) = true
    · simp only [stride, hhere, if_pos hdirectory]
      exact .fails .notDirectory
    by_cases hname : name = [] ∨ name = Path.dot
    · rw [stride_stay hhere hdirectory hname]
      exact .stay hhere hdirectory hname
    by_cases hdots : name = Path.dotDot
    · rw [hdots, stride_up hhere hdirectory]
      exact .up hhere hdirectory rfl
    by_cases hlong : Path.maxNameLength < name.length
    · simp only [stride, hhere, if_neg hdirectory, if_neg hname, if_neg hdots, if_pos hlong]
      exact .fails .nameTooLong
    cases hchild : there.child? name with
    | none =>
      rw [stride_of_nothing hhere hdirectory hname hdots hlong hchild]
      split
      · exact .absent hhere hdirectory hchild
      · exact .fails .notFound
    | some child =>
      by_cases hlink : ∃ target, child.kind = .link target
      · obtain ⟨target, htarget⟩ := hlink
        obtain rfl := Node.eq_link_of_kind htarget
        rw [stride_of_link hhere hname hdots hlong hchild]
        split
        · exact .keep hhere hname hdots hlong hchild ‹_›
        · exact .follow hhere hname hdots hlong hchild ‹_›
      · rw [not_exists] at hlink
        rw [stride_of_no_link hhere hname hdots hlong hchild hlink]
        exact .enter hhere hname hdots hlong hchild hlink

theorem resolveFrom_nil :
    resolveFrom root follow links here [] = .ok (here, root.at? here) :=
  travel_nil

theorem resolveFrom_of_halt {result : Except FileError (List Bytes × Option Node)}
    (h : stride root follow here name rest.isEmpty = .halt result) :
    resolveFrom root follow links here (name :: rest) = result :=
  travel_of_halt h

theorem resolveFrom_of_enter {into : List Bytes}
    (h : stride root follow here name rest.isEmpty = .enter into) :
    resolveFrom root follow links here (name :: rest) = resolveFrom root follow links into rest :=
  travel_of_enter h

theorem resolveFrom_of_follow (h : stride root follow here name rest.isEmpty = .follow target) :
    resolveFrom root follow links here (name :: rest) =
      match links with
      | 0 => .error .tooManyLinks
      | links + 1 =>
        resolveFrom root follow links (if Path.isAbsolute target then [] else here)
          (Path.rawNames target ++ rest) :=
  travel_of_follow h

end Resolution

theorem stride_of_within (h : Within tree full) (follow : Bool) (here : List Bytes) (name : Bytes)
    (isLast : Bool) :
    (∃ result, stride tree follow here name isLast = .halt result ∧
      ∀ place node, result ≠ .ok (place, some node)) ∨
    stride full follow here name isLast = stride tree follow here name isLast := by
  have hstride := strides tree follow here name isLast
  generalize stride tree follow here name isLast = taken at hstride ⊢
  cases hstride with
  | fails e => exact .inl ⟨_, rfl, nofun⟩
  | stay hhere hdirectory hname =>
    obtain ⟨there', hhere', hdirectory'⟩ := directory_of_within h hhere hdirectory
    exact .inr (stride_stay hhere' hdirectory' hname)
  | up hhere hdirectory hname =>
    obtain ⟨there', hhere', hdirectory'⟩ := directory_of_within h hhere hdirectory
    exact .inr (hname ▸ stride_up hhere' hdirectory')
  | absent hhere hdirectory hchild => exact .inl ⟨_, rfl, nofun⟩
  | keep hhere hname hdots hlong hchild hlast =>
    obtain ⟨there', child', hhere', hchild', hkind⟩ := child?_of_within h hhere hchild
    obtain rfl := Node.eq_link_of_kind hkind
    exact .inr ((stride_of_link hhere' hname hdots hlong hchild').trans (if_pos hlast))
  | follow hhere hname hdots hlong hchild hlast =>
    obtain ⟨there', child', hhere', hchild', hkind⟩ := child?_of_within h hhere hchild
    obtain rfl := Node.eq_link_of_kind hkind
    exact .inr ((stride_of_link hhere' hname hdots hlong hchild').trans (if_neg hlast))
  | enter hhere hname hdots hlong hchild hlink =>
    obtain ⟨there', child', hhere', hchild', hkind⟩ := child?_of_within h hhere hchild
    exact .inr (stride_of_no_link hhere' hname hdots hlong hchild'
      fun target htarget => hlink target (hkind ▸ htarget))

/-- One answer is as good as another: where that one tells of a node this one tells of one of the
same kind at the same place. -/
def LeadsAlike (before after : Except FileError (List Bytes × Option Node)) : Prop :=
  ∀ place node, before = .ok (place, some node) →
    ∃ node', after = .ok (place, some node') ∧ node'.kind = node.kind

/-- What a path leads to in a tree it leads to in a full one. -/
theorem resolveFrom_of_within (h : Within tree full) {follow : Bool} {links : Nat}
    {here names place : List Bytes} {node : Node}
    (htree : resolveFrom tree follow links here names = .ok (place, some node)) :
    ∃ node', resolveFrom full follow links here names = .ok (place, some node') ∧
      node'.kind = node.kind := by
  refine travel_rel (R := LeadsAlike) (fun result place node hresult => ⟨node, hresult, rfl⟩)
    (fun here place node hnode => ?_) (fun here name isLast => ?_) links here names place node htree
  · obtain ⟨rfl, hthere⟩ := Prod.mk.inj (Except.ok.inj hnode)
    obtain ⟨node', hnode', hkind⟩ := at?_of_within h hthere
    exact ⟨node', by rw [hnode'], hkind⟩
  · obtain ⟨result, hhalt, hnothing⟩ | hsame := stride_of_within h follow here name isLast
    · exact .inl ⟨result, hhalt, fun _ place node hresult => absurd hresult (hnothing place node)⟩
    · exact .inr (.inr hsame)

end CatalogSync.Disk
