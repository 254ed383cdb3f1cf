import Mathlib.Data.List.Infix
import CatalogSync.Lister.Static
import CatalogSync.Proofs.Table

namespace CatalogSync

namespace StaticTree

/-- What is done to the files of a tree. -/
inductive Edit where
  | put (path : String) (bytes : Bytes) (modified : Int64)
  | remove (path : String)

namespace Edit

def apply (tree : StaticTree) : Edit → StaticTree
  | put path bytes modified => tree.put path bytes modified
  | remove path => tree.remove path

/-- The bytes at a path once the edit is done, given those before. -/
def bytesAfter (path : String) (before : Option Bytes) : Edit → Option Bytes
  | put edited bytes _ => if edited = path then some bytes else before
  | remove edited => if edited = path then none else before

end Edit

/-- The tree that a sequence of edits leaves. -/
def builtBy (edits : List Edit) : StaticTree :=
  edits.foldl Edit.apply empty

/-- The bytes that were put last at a path, unless the path has been removed since. -/
def lastPut? (edits : List Edit) (path : String) : Option Bytes :=
  edits.foldl (Edit.bytesAfter path) none

theorem bytes_apply (tree : StaticTree) (edit : Edit) (path : String) :
    ((edit.apply tree).files.get? path).map StaticFile.bytes =
      edit.bytesAfter path ((tree.files.get? path).map StaticFile.bytes) := by
  cases edit with
  | put edited bytes modified =>
    simp only [Edit.apply, put, Table.get?_insert, Edit.bytesAfter, eq_comm (a := path)]
    split <;> rfl
  | remove edited =>
    simp only [Edit.apply, remove, Table.get?_erase, Edit.bytesAfter, eq_comm (a := path)]
    split <;> rfl

theorem bytes_foldl_apply (edits : List Edit) (tree : StaticTree) (path : String) :
    ((edits.foldl Edit.apply tree).files.get? path).map StaticFile.bytes =
      edits.foldl (Edit.bytesAfter path) ((tree.files.get? path).map StaticFile.bytes) := by
  induction edits generalizing tree with
  | nil => rfl
  | cons edit edits ih => rw [List.foldl_cons, ih, bytes_apply, List.foldl_cons]

theorem bytes_builtBy (edits : List Edit) (path : String) :
    ((builtBy edits).files.get? path).map StaticFile.bytes = lastPut? edits path :=
  bytes_foldl_apply edits empty path

/-- A location is of a path if it is where the path is located under some root. -/
def IsLocationOf (location path : String) : Prop :=
  ∃ root, location = locate root path

theorem isLocationOf_locate (root path : String) : IsLocationOf (locate root path) path :=
  ⟨root, rfl⟩

theorem isAt_eq_true_iff {location path : String} :
    isAt location path = true ↔ IsLocationOf location path := by
  rw [isAt, List.isSuffixOf_iff_suffix]
  constructor
  · rintro ⟨front, hfront⟩
    refine ⟨String.ofList front, ?_⟩
    rw [← String.toList_inj, ← hfront]
    simp [locate]
  · rintro ⟨root, rfl⟩
    exact ⟨root.toList, by simp [locate]⟩

theorem eq_or_isLocationOf {a b : String} {middle : List Char}
    (h : '/' :: a.toList = middle ++ '/' :: b.toList) : a = b ∨ IsLocationOf a b := by
  cases middle with
  | nil =>
    left
    simpa [String.toList_inj] using h
  | cons c middle =>
    right
    refine ⟨String.ofList middle, ?_⟩
    rw [← String.toList_inj]
    simp only [locate, String.toList_append, String.toList_ofList]
    simpa using (List.cons.inj h).2

theorem IsLocationOf.nested {location a b : String} (ha : IsLocationOf location a)
    (hb : IsLocationOf location b) : a = b ∨ IsLocationOf a b ∨ IsLocationOf b a := by
  obtain ⟨rootA, hA⟩ := ha
  obtain ⟨rootB, hB⟩ := hb
  have hwhole := congrArg String.toList (hA.symm.trans hB)
  simp only [locate, String.toList_append, List.append_assoc] at hwhole
  obtain ⟨middle, -, hmiddle⟩ | ⟨middle, -, hmiddle⟩ := List.append_eq_append_iff.mp hwhole
  · obtain heq | hending := eq_or_isLocationOf hmiddle
    · exact .inl heq
    · exact .inr (.inl hending)
  · obtain heq | hending := eq_or_isLocationOf hmiddle
    · exact .inl heq.symm
    · exact .inr (.inr hending)

theorem length_locate (root path : String) : (Bytes.ofText (locate root path)).length =
    (Bytes.ofText root).length + 1 + (Bytes.ofText path).length := by
  have hslash : (Bytes.ofText "/").length = 1 := by decide
  simp only [locate, Bytes.ofText_append, List.length_append, hslash]

theorem locate_assoc (top above path : String) :
    locate (locate top above) path = locate top (locate above path) := by
  simp only [locate, String.append_assoc]

theorem locate_left_injective (path : String) : Function.Injective (locate · path) := by
  intro root other h
  have htexts := congrArg String.toList h
  simpa [locate, String.toList_inj] using htexts

theorem IsLocationOf.length_lt {path ending : String} (h : IsLocationOf path ending) :
    (Bytes.ofText ending).length < (Bytes.ofText path).length := by
  obtain ⟨root, rfl⟩ := h
  rw [length_locate]
  omega

theorem lastSegment_locate (root path : String) :
    Text.lastSegment (locate root path) = Text.lastSegment path := by
  simp only [Text.lastSegment, Text.lastPiece, locate, String.toList_append, List.reverse_append,
    List.takeWhile_append]
  split
  · rename_i hall
    have hself := (List.takeWhile_prefix (· ≠ '/') (l := path.toList.reverse)).eq_of_length hall
    rw [hself]
    simp
  · rfl

/-- The listed path that a location is taken to be of: of all those it can be of, the one that
reaches furthest into the root. -/
structure IsDeepest (edits : List Edit) (location path : String) : Prop where
  listed : (lastPut? edits path).isSome
  reached : IsLocationOf location path
  deepest : ∀ other, (lastPut? edits other).isSome → IsLocationOf location other →
    other = path ∨ IsLocationOf path other

section Fetching

variable {tree : StaticTree} {location path : String} {file : StaticFile}

/-- Of the entries the best is one with a path that no other is longer than. -/
def IsLongest (entries : List (String × StaticFile)) : Option (String × StaticFile) → Prop
  | none => entries = []
  | some best => best ∈ entries ∧ ∀ entry ∈ entries,
      (Bytes.ofText entry.1).length ≤ (Bytes.ofText best.1).length

theorem isLongest_longer (kept entry : String × StaticFile) :
    IsLongest [kept, entry] (some (longer kept entry)) := by
  simp only [IsLongest, longer, List.mem_cons, List.not_mem_nil, or_false, forall_eq_or_imp,
    forall_eq]
  split
  · exact ⟨.inl rfl, Nat.le_refl _, by omega⟩
  · exact ⟨.inr rfl, by omega, Nat.le_refl _⟩

theorem IsLongest.cons_cons {kept entry middle : String × StaticFile}
    {entries : List (String × StaticFile)} {best : Option (String × StaticFile)}
    (hmiddle : IsLongest [kept, entry] (some middle)) (h : IsLongest (middle :: entries) best) :
    IsLongest (kept :: entry :: entries) best := by
  cases best with
  | none => exact absurd h (List.cons_ne_nil _ _)
  | some best =>
    simp only [IsLongest, List.mem_cons, List.not_mem_nil, or_false, forall_eq_or_imp, forall_eq]
      at hmiddle h ⊢
    obtain ⟨hone, hkept, hentry⟩ := hmiddle
    obtain ⟨hmem, hle, hgreatest⟩ := h
    refine ⟨?_, hkept.trans hle, hentry.trans hle, hgreatest⟩
    obtain rfl | hmem := hmem
    · exact hone.imp_right .inl
    · exact .inr (.inr hmem)

/-- Going through the entries, whatever form the choice at each of them has, leads to a longest
one. -/
theorem isLongest_foldl {choose : Option (String × StaticFile) → String × StaticFile →
      Option (String × StaticFile)} (hnone : ∀ entry, choose none entry = some entry)
    (hsome : ∀ kept entry, choose (some kept) entry = some (longer kept entry))
    (entries : List (String × StaticFile)) (start : Option (String × StaticFile)) :
    IsLongest (start.toList ++ entries) (entries.foldl choose start) := by
  induction entries generalizing start with
  | nil => cases start <;> simp [IsLongest]
  | cons entry entries ih =>
    cases start with
    | none =>
      rw [List.foldl_cons, hnone]
      exact ih (some entry)
    | some kept =>
      rw [List.foldl_cons, hsome]
      exact (isLongest_longer kept entry).cons_cons (ih (some (longer kept entry)))

theorem isLongest_fileAt? (tree : StaticTree) (location : String) :
    IsLongest (tree.files.entries.filter fun entry => isAt location entry.1)
      (tree.fileAt? location) :=
  isLongest_foldl (fun _ => rfl) (fun _ _ => rfl) _ none

theorem mem_candidates_iff :
    (path, file) ∈ tree.files.entries.filter (fun entry => isAt location entry.1) ↔
      tree.files.get? path = some file ∧ IsLocationOf location path := by
  rw [List.mem_filter, Table.get?_eq_some_iff, isAt_eq_true_iff]

theorem fileAt?_eq_none (h : tree.fileAt? location = none)
    (hget : tree.files.get? path = some file) :
    ¬IsLocationOf location path := by
  intro hlocation
  have hlongest := isLongest_fileAt? tree location
  have hmem := mem_candidates_iff.mpr ⟨hget, hlocation⟩
  rw [h, IsLongest] at hlongest
  rw [hlongest] at hmem
  exact List.not_mem_nil hmem

theorem fileAt?_eq_some (h : tree.fileAt? location = some (path, file)) :
    tree.files.get? path = some file ∧ IsLocationOf location path ∧
      ∀ other held, tree.files.get? other = some held → IsLocationOf location other →
        (Bytes.ofText other).length ≤ (Bytes.ofText path).length := by
  have hlongest := isLongest_fileAt? tree location
  rw [h, IsLongest] at hlongest
  obtain ⟨hget, hlocation⟩ := mem_candidates_iff.mp hlongest.1
  refine ⟨hget, hlocation, ?_⟩
  intro other held hother hreached
  exact hlongest.2 (other, held) (mem_candidates_iff.mpr ⟨hother, hreached⟩)

end Fetching

variable {edits : List Edit} {location path : String} {bytes : Bytes}

theorem exists_file_of_lastPut? (h : lastPut? edits path = some bytes) :
    ∃ file, (builtBy edits).files.get? path = some file ∧ file.bytes = bytes := by
  rw [← bytes_builtBy] at h
  exact Option.map_eq_some_iff.mp h

theorem lastPut?_of_file {file : StaticFile} (h : (builtBy edits).files.get? path = some file) :
    lastPut? edits path = some file.bytes := by
  rw [← bytes_builtBy, h]
  rfl

theorem IsDeepest.unique {other : String} (h : IsDeepest edits location path)
    (hother : IsDeepest edits location other) : other = path := by
  obtain heq | hpath := h.deepest other hother.listed hother.reached
  · exact heq
  · obtain heq | hback := hother.deepest path h.listed h.reached
    · exact heq.symm
    · exact absurd (hpath.length_lt.trans hback.length_lt) (Nat.lt_irrefl _)

theorem isDeepest_of_fileAt? {file : StaticFile}
    (h : (builtBy edits).fileAt? location = some (path, file)) : IsDeepest edits location path := by
  obtain ⟨hget, hreached, hgreatest⟩ := fileAt?_eq_some h
  refine ⟨by rw [lastPut?_of_file hget]; rfl, hreached, ?_⟩
  intro other hlisted hother
  obtain ⟨otherBytes, hbytes⟩ := Option.isSome_iff_exists.mp hlisted
  obtain ⟨held, hheld, -⟩ := exists_file_of_lastPut? hbytes
  obtain heq | hlonger | hending := hother.nested hreached
  · exact .inl heq
  · have := hlonger.length_lt
    have := hgreatest other held hheld hother
    omega
  · exact .inr hending

/-- What is fetched from a location is the content of the deepest path it can be of. -/
theorem fetch_of_isDeepest (h : IsDeepest edits location path)
    (hbytes : lastPut? edits path = some bytes) :
    ((fetch location).run (builtBy edits)).1 =
      .ok (Content.ofBytes (Text.lastSegment path) bytes) := by
  cases hfile : (builtBy edits).fileAt? location with
  | none =>
    obtain ⟨file, hget, -⟩ := exists_file_of_lastPut? hbytes
    exact absurd h.reached (fileAt?_eq_none hfile hget)
  | some entry =>
    obtain ⟨found, file⟩ := entry
    obtain rfl : found = path := h.unique (isDeepest_of_fileAt? hfile)
    have hfound := lastPut?_of_file (fileAt?_eq_some hfile).1
    obtain rfl : file.bytes = bytes := Option.some.inj (hfound.symm.trans hbytes)
    simp [fetch, StateT.run, hfile]

theorem fetch_of_unreached
    (h : ∀ other, (lastPut? edits other).isSome → ¬IsLocationOf location other) :
    ((fetch location).run (builtBy edits)).1 = .error (.unavailable location) := by
  cases hfile : (builtBy edits).fileAt? location with
  | none => simp [fetch, StateT.run, hfile]
  | some entry =>
    have hdeepest := isDeepest_of_fileAt? hfile
    exact absurd hdeepest.reached (h entry.1 hdeepest.listed)

theorem exists_isDeepest (hlisted : (lastPut? edits path).isSome)
    (hreached : IsLocationOf location path) : ∃ deepest, IsDeepest edits location deepest := by
  obtain ⟨bytes, hbytes⟩ := Option.isSome_iff_exists.mp hlisted
  obtain ⟨file, hget, -⟩ := exists_file_of_lastPut? hbytes
  cases hfile : (builtBy edits).fileAt? location with
  | none => exact absurd hreached (fileAt?_eq_none hfile hget)
  | some entry => exact ⟨entry.1, isDeepest_of_fileAt? hfile⟩

theorem IsDeepest.eq_or_into_root {root deepest : String}
    (h : IsDeepest edits (locate root path) deepest) (hlisted : (lastPut? edits path).isSome) :
    deepest = path ∨ ∃ above, IsLocationOf root above ∧ deepest = locate above path := by
  obtain heq | ⟨above, rfl⟩ := h.deepest path hlisted (isLocationOf_locate root path)
  · exact .inl heq.symm
  · obtain ⟨top, htop⟩ := h.reached
    rw [← locate_assoc] at htop
    exact .inr ⟨above, ⟨top, locate_left_injective path htop⟩, rfl⟩

theorem fetch_eq_ok_iff (root : String) (hbytes : lastPut? edits path = some bytes) :
    ((fetch (locate root path)).run (builtBy edits)).1 =
        .ok (Content.ofBytes (Text.lastSegment path) bytes) ↔
      ∀ above, IsLocationOf root above → IsDeepest edits (locate root path) (locate above path) →
        lastPut? edits (locate above path) = some bytes := by
  have hlisted : (lastPut? edits path).isSome := by rw [hbytes]; rfl
  constructor
  · intro hfetch above _ hdeepest
    obtain ⟨held, hheld⟩ := Option.isSome_iff_exists.mp hdeepest.listed
    rw [fetch_of_isDeepest hdeepest hheld] at hfetch
    injection hfetch with hcontent
    exact hheld.trans (congrArg some (congrArg Content.bytes hcontent))
  · intro hsame
    obtain ⟨deepest, hdeepest⟩ := exists_isDeepest hlisted (isLocationOf_locate root path)
    obtain rfl | ⟨above, habove, rfl⟩ := hdeepest.eq_or_into_root hlisted
    · exact fetch_of_isDeepest hdeepest hbytes
    · rw [fetch_of_isDeepest hdeepest (hsame above habove hdeepest), lastSegment_locate]

theorem fetch_eq_unavailable_iff :
    ((fetch location).run (builtBy edits)).1 = .error (.unavailable location) ↔
      ∀ other, (lastPut? edits other).isSome → ¬IsLocationOf location other := by
  constructor
  · intro hfetch other hlisted hreached
    obtain ⟨deepest, hdeepest⟩ := exists_isDeepest hlisted hreached
    obtain ⟨held, hheld⟩ := Option.isSome_iff_exists.mp hdeepest.listed
    rw [fetch_of_isDeepest hdeepest hheld] at hfetch
    cases hfetch
  · exact fetch_of_unreached

/-- Fetching undoes locating exactly as far as the root leaves no doubt. A listed path is found
again unless the deepest listed path that goes on into the root holds other bytes; a path that is
not listed is unavailable unless its location is also one of a listed path. -/
theorem fetch_undoes_locate_iff (edits : List Edit) (root path : String) :
    (∀ bytes, lastPut? edits path = some bytes →
      (((fetch (locate root path)).run (builtBy edits)).1 =
          .ok (Content.ofBytes (Text.lastSegment path) bytes) ↔
        ∀ above, IsLocationOf root above →
          IsDeepest edits (locate root path) (locate above path) →
            lastPut? edits (locate above path) = some bytes)) ∧
    (lastPut? edits path = none →
      (((fetch (locate root path)).run (builtBy edits)).1 =
          .error (.unavailable (locate root path)) ↔
        ∀ other, (lastPut? edits other).isSome → ¬IsLocationOf (locate root path) other)) :=
  ⟨fun _ hbytes => fetch_eq_ok_iff root hbytes, fun _ => fetch_eq_unavailable_iff⟩

/-- Under a root that ends like the directory of a listed file, a file of the same name beside that
directory cannot be fetched. -/
theorem deeper_file_is_fetched :
    ¬∀ (edits : List Edit) (root path : String) (bytes : Bytes), lastPut? edits path = some bytes →
      ((fetch (locate root path)).run (builtBy edits)).1 =
        .ok (Content.ofBytes (Text.lastSegment path) bytes) := by
  intro hlaw
  have hfetch := hlaw [.put "a" (Bytes.ofText "x") 1, .put "d/a" (Bytes.ofText "y") 1] "r/d" "a"
    (Bytes.ofText "x") (by decide)
  revert hfetch
  decide

end StaticTree

end CatalogSync
