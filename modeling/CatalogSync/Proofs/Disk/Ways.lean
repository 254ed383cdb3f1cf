import CatalogSync.Proofs.Disk.Paths
import CatalogSync.Proofs.Ingest.Precedence

namespace CatalogSync

theorem Text.splitOn_append {α : Type} [DecidableEq α] (separator : α) (front back : List α) :
    splitOn separator (front ++ separator :: back) =
      splitOn separator front ++ splitOn separator back := by
  induction front with
  | nil => simp [splitOn]
  | cons c rest ih =>
    by_cases hc : c = separator
    · rw [List.cons_append, splitOn, splitOn, if_pos hc, if_pos hc, ih, List.cons_append]
    · obtain ⟨piece, pieces, hpieces⟩ :=
        List.exists_cons_of_ne_nil (splitOn_ne_nil separator rest)
      rw [List.cons_append, splitOn, splitOn, if_neg hc, if_neg hc, ih, hpieces]
      rfl

namespace Disk

section Resolution

variable {root there child node : Node} {follow : Bool} {links left : Nat}
  {here names place : List Bytes} {name : Bytes}

/-- How names lead from one place to another: past empty names and dots, up, along links, and into
entries. Of the links that may be followed some are left. -/
inductive Way (root : Node) : Nat → List Bytes → List Bytes → Nat → List Bytes → Prop where
  | done {links : Nat} {place : List Bytes} : Way root links place [] links place
  | stay {links left : Nat} {here rest place : List Bytes} {name : Bytes} {there : Node}
      (hhere : root.at? here = some there) (hdirectory : ¬(!there.isDirectory) = true)
      (hname : name = [] ∨ name = Path.dot) (hrest : Way root links here rest left place) :
      Way root links here (name :: rest) left place
  | up {links left : Nat} {here rest place : List Bytes} {there : Node}
      (hhere : root.at? here = some there) (hdirectory : ¬(!there.isDirectory) = true)
      (hrest : Way root links here.dropLast rest left place) :
      Way root links here (Path.dotDot :: rest) left place
  | follow {links left : Nat} {here rest place : List Bytes} {name target : Bytes} {there : Node}
      (hhere : root.at? here = some there) (hname : ¬(name = [] ∨ name = Path.dot))
      (hdots : name ≠ Path.dotDot) (hlong : ¬Path.maxNameLength < name.length)
      (hchild : there.child? name = some (.link target))
      (hrest : Way root links (if Path.isAbsolute target then [] else here)
        (Path.rawNames target ++ rest) left place) :
      Way root (links + 1) here (name :: rest) left place
  | enter {links left : Nat} {here rest place : List Bytes} {name : Bytes} {there child : Node}
      (hhere : root.at? here = some there) (hname : ¬(name = [] ∨ name = Path.dot))
      (hdots : name ≠ Path.dotDot) (hlong : ¬Path.maxNameLength < name.length)
      (hchild : there.child? name = some child) (hlink : ∀ target, child.kind ≠ .link target)
      (hrest : Way root links (here ++ [name]) rest left place) :
      Way root links here (name :: rest) left place

theorem exists_way (h : resolveFrom root true links here names = .ok (place, some node)) :
    (∃ left, Way root links here names left place) ∧ root.at? place = some node := by
  induction links, here, names using travel_induction with
  | nil links here =>
    rw [resolveFrom_nil] at h
    obtain ⟨rfl, hnode⟩ := Prod.mk.inj (Except.ok.inj h)
    exact ⟨⟨links, .done⟩, hnode⟩
  | cons links here name rest ih ihLinks =>
    have hstride := strides root true here name rest.isEmpty
    generalize hgo : stride root true here name rest.isEmpty = taken at hstride
    cases hstride with
    | fails e =>
      rw [resolveFrom_of_halt hgo] at h
      cases h
    | absent _ _ _ =>
      rw [resolveFrom_of_halt hgo] at h
      cases h
    | keep _ _ _ _ _ hlast =>
      -- A last link is left as it is only where links are not followed.
      exact absurd hlast.2 (by decide)
    | stay hhere hdirectory hname =>
      rw [resolveFrom_of_enter hgo] at h
      obtain ⟨⟨left, hway⟩, hnode⟩ := ih _ h
      exact ⟨⟨left, .stay hhere hdirectory hname hway⟩, hnode⟩
    | up hhere hdirectory hname =>
      subst hname
      rw [resolveFrom_of_enter hgo] at h
      obtain ⟨⟨left, hway⟩, hnode⟩ := ih _ h
      exact ⟨⟨left, .up hhere hdirectory hway⟩, hnode⟩
    | enter hhere hname hdots hlong hchild hlink =>
      rw [resolveFrom_of_enter hgo] at h
      obtain ⟨⟨left, hway⟩, hnode⟩ := ih _ h
      exact ⟨⟨left, .enter hhere hname hdots hlong hchild hlink hway⟩, hnode⟩
    | follow hhere hname hdots hlong hchild _ =>
      rw [resolveFrom_of_follow hgo] at h
      cases links with
      | zero => cases h
      | succ links =>
        obtain ⟨⟨left, hway⟩, hnode⟩ := ihLinks links _ _ rfl h
        exact ⟨⟨left, .follow hhere hname hdots hlong hchild hway⟩, hnode⟩

/-- Names that go on behind a way go on from its end, with the links that are left. -/
theorem Way.resolveFrom_append (h : Way root links here names left place) {more : List Bytes}
    (hmore : more ≠ []) :
    resolveFrom root follow links here (names ++ more) =
      resolveFrom root follow left place more := by
  induction h with
  | done => rfl
  | stay hhere hdirectory hname _ ih =>
    rw [List.cons_append, resolveFrom_of_enter (stride_stay hhere hdirectory hname), ih]
  | up hhere hdirectory _ ih =>
    rw [List.cons_append, resolveFrom_of_enter (stride_up hhere hdirectory), ih]
  | @follow _ _ _ rest _ _ _ _ hhere hname hdots hlong hchild _ ih =>
    have hlast : ¬((rest ++ more).isEmpty = true ∧ (!follow) = true) := by simp [hmore]
    rw [List.cons_append, resolveFrom_of_follow
      ((stride_of_link hhere hname hdots hlong hchild).trans (if_neg hlast)), ← List.append_assoc]
    exact ih
  | enter hhere hname hdots hlong hchild hlink _ ih =>
    rw [List.cons_append,
      resolveFrom_of_enter (stride_of_no_link hhere hname hdots hlong hchild hlink), ih]

theorem Way.of_slash (h : Way root links here (names ++ [[]]) left place) :
    Way root links here names left place := by
  -- The empty name comes last on the whole way, so in each step it is behind the first name or is
  -- that name.
  generalize hwhole : names ++ [[]] = whole at h
  induction h generalizing names with
  | done => exact absurd hwhole (by simp)
  | stay hhere hdirectory hname hrest ih =>
    cases names with
    | nil =>
      obtain ⟨-, rfl⟩ := List.cons.inj hwhole
      exact hrest
    | cons first names =>
      obtain ⟨rfl, hrest⟩ := List.cons.inj hwhole
      exact .stay hhere hdirectory hname (ih hrest)
  | up hhere hdirectory _ ih =>
    cases names with
    | nil => exact absurd (List.cons.inj hwhole).1 (by decide)
    | cons first names =>
      obtain ⟨rfl, hrest⟩ := List.cons.inj hwhole
      exact .up hhere hdirectory (ih hrest)
  | follow hhere hname hdots hlong hchild _ ih =>
    cases names with
    | nil => exact absurd (.inl (List.cons.inj hwhole).1.symm) hname
    | cons first names =>
      obtain ⟨rfl, rfl⟩ := List.cons.inj hwhole
      exact .follow hhere hname hdots hlong hchild (ih (List.append_assoc ..))
  | enter hhere hname hdots hlong hchild hlink _ ih =>
    cases names with
    | nil => exact absurd (.inl (List.cons.inj hwhole).1.symm) hname
    | cons first names =>
      obtain ⟨rfl, hrest⟩ := List.cons.inj hwhole
      exact .enter hhere hname hdots hlong hchild hlink (ih hrest)

end Resolution

section Entries

/-- What can be the name of an entry. -/
structure IsName (name : Bytes) : Prop where
  ne_nil : name ≠ []
  ne_dot : name ≠ Path.dot
  ne_dotDot : name ≠ Path.dotDot
  no_slash : Path.slash ∉ name
  no_null : 0 ∉ name
  length_le : name.length ≤ Path.maxNameLength

/-- The path of an entry of a directory; that of the directory may end in a slash. -/
def IsEntryPath (directory name path : Bytes) : Prop :=
  ∃ front, path = front ++ Path.slash :: name ∧
    (directory = front ∨ directory = front ++ [Path.slash])

/-- A path that may be followed to an entry of a directory, be there such an entry or not. -/
structure IsEntry (directory name path : Bytes) : Prop where
  isName : IsName name
  isEntryPath : IsEntryPath directory name path
  length_le : path.length ≤ Path.maxLength

variable {disk : Disk} {directory name path : Bytes} {place : List Bytes}
  {entries : List (Bytes × Node)}

theorem startOf_eq_ok_iff {start : List Bytes} : disk.startOf path = .ok start ↔
    path ≠ [] ∧ 0 ∉ path ∧ path.length ≤ Path.maxLength ∧
      start = if Path.isAbsolute path then [] else Path.names (Bytes.ofText disk.workingDir) := by
  rw [startOf]
  split
  · rename_i hempty
    simp [List.isEmpty_iff.mp hempty]
  · rename_i hempty
    split
    · rename_i hnull
      have hmem : 0 ∈ path := by simpa using hnull
      simp [hmem]
    · rename_i hnull
      split
      · rename_i hlong
        exact iff_of_false nofun fun h => absurd h.2.2.1 (Nat.not_le.mpr hlong)
      · rename_i hlong
        have hfacts : path ≠ [] ∧ 0 ∉ path ∧ path.length ≤ Path.maxLength :=
          ⟨by simpa using hempty, by simpa using hnull, Nat.not_lt.mp hlong⟩
        simp only [hfacts, Except.ok.injEq, true_and, ne_eq, not_false_eq_true, eq_comm]

theorem rawNames_append (front back : Bytes) :
    Path.rawNames (front ++ Path.slash :: back) = Path.rawNames front ++ Path.rawNames back :=
  Text.splitOn_append ..

theorem IsName.rawNames_eq (h : IsName name) : Path.rawNames name = [name] :=
  Text.splitOn_of_not_mem h.no_slash

theorem startOf_entry (hentry : IsEntry directory name path) {start : List Bytes}
    (h : disk.startOf directory = .ok start) : disk.startOf path = .ok start := by
  obtain ⟨hname, ⟨front, rfl, hfront⟩, hlength⟩ := hentry
  rw [startOf_eq_ok_iff] at h ⊢
  obtain ⟨hne, hnull, -, rfl⟩ := h
  have hfrontNull : 0 ∉ front := by
    obtain rfl | rfl := hfront
    · exact hnull
    · exact fun hmem => hnull (List.mem_append_left _ hmem)
  have habsolute : Path.isAbsolute (front ++ Path.slash :: name) = Path.isAbsolute directory := by
    cases front with
    | nil =>
      obtain rfl | rfl := hfront
      · exact absurd rfl hne
      · rfl
    | cons b front => obtain rfl | rfl := hfront <;> rfl
  refine ⟨by simp, ?_, hlength, by rw [habsolute]⟩
  simp only [List.mem_append, List.mem_cons, not_or]
  exact ⟨hfrontNull, by decide, hname.no_null⟩

theorem exists_way_front {start : List Bytes} {front : Bytes} {node : Node}
    (hfront : directory = front ∨ directory = front ++ [Path.slash])
    (h : resolveFrom disk.root true linkLimit start (Path.rawNames directory) =
      .ok (place, some node)) :
    ∃ left, Way disk.root linkLimit start (Path.rawNames front) left place := by
  obtain ⟨⟨left, hway⟩, -⟩ := exists_way h
  obtain rfl | rfl := hfront
  · exact ⟨left, hway⟩
  · rw [rawNames_append] at hway
    exact ⟨left, hway.of_slash⟩

theorem resolve_eq_ok_iff {follow : Bool} {found : List Bytes × Option Node} :
    disk.resolve follow path = .ok found ↔ ∃ start, disk.startOf path = .ok start ∧
      resolveFrom disk.root follow linkLimit start (Path.rawNames path) = .ok found := by
  rw [resolve]
  cases disk.startOf path with
  | error e => simp [bind, Except.bind]
  | ok start => simp [bind, Except.bind]

/-- The path of an entry leads from the directory to the entry, unless this is a link. -/
theorem resolve_entry {follow : Bool} (hentry : IsEntry directory name path)
    (h : disk.resolve true directory = .ok (place, some (.directory entries)))
    (hlink : ∀ target, (Node.directory entries).child? name ≠ some (.link target)) :
    disk.resolve follow path = .ok (place ++ [name], (Node.directory entries).child? name) := by
  obtain ⟨start, hstart, hresolve⟩ := resolve_eq_ok_iff.mp h
  refine resolve_eq_ok_iff.mpr ⟨start, startOf_entry hentry hstart, ?_⟩
  obtain ⟨hname, ⟨front, rfl, hfront⟩, -⟩ := hentry
  obtain ⟨left, hway⟩ := exists_way_front hfront hresolve
  have hplace := (exists_way hresolve).2
  have hplain : ¬(name = [] ∨ name = Path.dot) := not_or.mpr ⟨hname.ne_nil, hname.ne_dot⟩
  have hlong : ¬Path.maxNameLength < name.length := Nat.not_lt.mpr hname.length_le
  rw [rawNames_append, hname.rawNames_eq, hway.resolveFrom_append (by simp)]
  cases hchild : (Node.directory entries).child? name with
  | none =>
    exact resolveFrom_of_halt (stride_of_nothing hplace (by simp [Node.isDirectory]) hplain
      hname.ne_dotDot hlong hchild)
  | some child =>
    have hkind : ∀ target, child.kind ≠ .link target := by
      intro target htarget
      exact hlink target (hchild.trans (congrArg some (Node.eq_link_of_kind htarget)))
    rw [resolveFrom_of_enter
      (stride_of_no_link hplace hplain hname.ne_dotDot hlong hchild hkind), resolveFrom_nil,
      Node.at?_concat, hplace, Option.bind_some, hchild]

theorem IsName.getLast?_append (h : IsName name) (front : Bytes) :
    ∀ last ∈ (front ++ Path.slash :: name).getLast?, last ≠ Path.slash := by
  intro last hlast
  rw [List.append_cons, List.getLast?_append_of_ne_nil _ h.ne_nil] at hlast
  rintro rfl
  exact h.no_slash (List.mem_of_getLast? hlast)

theorem IsEntry.endsInSlash_eq_false (h : IsEntry directory name path) :
    Path.endsInSlash path = false := by
  obtain ⟨hname, ⟨front, rfl, -⟩, -⟩ := h
  refine decide_eq_false fun hlast => ?_
  exact hname.getLast?_append front _ hlast rfl

theorem splitLast_entry (hname : IsName name) (front : Bytes) :
    Path.splitLast (front ++ Path.slash :: name) = (front ++ [Path.slash], name) := by
  have htrim : Text.trimEnd Path.slash (front ++ Path.slash :: name) =
    front ++ Path.slash :: name := by
    have htrimmed := Text.trimEnd_append (hname.getLast?_append front) (List.forall_mem_nil _)
    rwa [List.append_nil] at htrimmed
  have hpiece : Text.lastPiece Path.slash (front ++ Path.slash :: name) = name := by
    rw [List.append_cons]
    exact Text.lastPiece_append hname.no_slash (by simp)
  rw [Path.splitLast, htrim]
  have hkept : (front ++ Path.slash :: name).length - name.length =
    (front ++ [Path.slash]).length := by
    simp only [List.length_append, List.length_cons, List.length_nil]
    omega
  simp only [hpiece, hkept]
  rw [List.append_cons front Path.slash name, List.take_left]

theorem entryAt_entry (hentry : IsEntry directory name path)
    (h : disk.resolve true directory = .ok (place, some (.directory entries))) :
    disk.entryAt path = .ok (place ++ [name], (Node.directory entries).child? name) := by
  obtain ⟨start, hstart, hresolve⟩ := resolve_eq_ok_iff.mp h
  have hstartPath := startOf_entry hentry hstart
  obtain ⟨hname, ⟨front, rfl, hfront⟩, -⟩ := hentry
  obtain ⟨left, hway⟩ := exists_way_front hfront hresolve
  have hplace := (exists_way hresolve).2
  have hdirectory : resolveFrom disk.root true linkLimit start
      (Path.rawNames (front ++ [Path.slash])) = .ok (place, some (.directory entries)) := by
    have hraw : Path.rawNames (front ++ [Path.slash]) = Path.rawNames front ++ [[]] :=
      rawNames_append front []
    rw [hraw, hway.resolveFrom_append (by simp),
      resolveFrom_of_enter (stride_stay hplace (by simp [Node.isDirectory]) (.inl rfl)),
      resolveFrom_nil, hplace]
  have hlong : ¬Path.maxNameLength < name.length := Nat.not_lt.mpr hname.length_le
  have hbusy : ¬(name = [] ∨ name = Path.dot ∨ name = Path.dotDot) := by
    simp [hname.ne_nil, hname.ne_dot, hname.ne_dotDot]
  simp only [entryAt, hstartPath, splitLast_entry hname, hbusy, hlong, if_false]
  simp [bind, Except.bind, hdirectory, Node.isDirectory]

end Entries

end Disk

end CatalogSync
