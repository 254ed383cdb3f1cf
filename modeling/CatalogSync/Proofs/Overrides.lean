import CatalogSync.Proofs.Json.Fields
import CatalogSync.Resource

namespace CatalogSync

namespace Text

variable {α : Type} [DecidableEq α] {separator : α}

theorem splitOn_of_not_mem {list : List α} (h : separator ∉ list) :
    splitOn separator list = [list] := by
  induction list with
  | nil => rfl
  | cons c rest ih =>
    rw [List.mem_cons, not_or] at h
    rw [splitOn, if_neg (Ne.symm h.1), ih h.2]

theorem splitOn_append_cons {front : List α} (h : separator ∉ front) (back : List α) :
    splitOn separator (front ++ separator :: back) = front :: splitOn separator back := by
  induction front with
  | nil => rw [List.nil_append, splitOn, if_pos rfl]
  | cons c rest ih =>
    rw [List.mem_cons, not_or] at h
    rw [List.cons_append, splitOn, if_neg (Ne.symm h.1), ih h.2]

theorem splitOn_eq_singleton {list piece : List α} (h : splitOn separator list = [piece]) :
    separator ∉ list ∧ list = piece := by
  by_cases hmem : separator ∈ list
  · obtain ⟨front, back, rfl, hfront⟩ := List.eq_append_cons_of_mem hmem
    rw [splitOn_append_cons hfront] at h
    exact absurd (List.cons.inj h).2 (splitOn_ne_nil separator back)
  · rw [splitOn_of_not_mem hmem] at h
    exact ⟨hmem, (List.cons.inj h).1⟩

theorem splitOn_eq_pair_iff {list front back : List α} : splitOn separator list = [front, back] ↔
    list = front ++ separator :: back ∧ separator ∉ front ∧ separator ∉ back := by
  constructor
  · intro h
    by_cases hmem : separator ∈ list
    · obtain ⟨front', back', rfl, hfront⟩ := List.eq_append_cons_of_mem hmem
      rw [splitOn_append_cons hfront] at h
      obtain ⟨rfl, hback⟩ := List.cons.inj h
      obtain ⟨hmem', rfl⟩ := splitOn_eq_singleton hback
      exact ⟨rfl, hfront, hmem'⟩
    · rw [splitOn_of_not_mem hmem] at h
      cases h
  · rintro ⟨rfl, hfront, hback⟩
    rw [splitOn_append_cons hfront, splitOn_of_not_mem hback]

/-- A part of a pattern: a character as it stands, or a group of characters of a kind, at least
one. -/
inductive PatternPart where
  | char (c : Char)
  | group (isMember : Char → Bool)

/-- The parts of a pattern match a text as a whole, and the groups are these pieces of it. -/
inductive Matches : List PatternPart → List Char → List (List Char) → Prop where
  | done : Matches [] [] []
  | char {c : Char} {parts : List PatternPart} {rest : List Char} {groups : List (List Char)}
      (hrest : Matches parts rest groups) : Matches (.char c :: parts) (c :: rest) groups
  | group {isMember : Char → Bool} {parts : List PatternPart} {piece rest : List Char}
      {groups : List (List Char)} (hpiece : piece ≠ []) (hmembers : ∀ c ∈ piece, isMember c = true)
      (hrest : Matches parts rest groups) :
      Matches (.group isMember :: parts) (piece ++ rest) (piece :: groups)

end Text

namespace Overrides

section Pairs

/-- The pattern of a pair, from the beginning of a text to its end: `([^=]+)=([^=]+)`. -/
def pairPattern : List Text.PatternPart :=
  [.group fun c => c ≠ '=', .char '=', .group fun c => c ≠ '=']

/-- What stands before the first equals sign. -/
def nameOf (pair : String) : String :=
  String.ofList (pair.toList.takeWhile fun c => c ≠ '=')

/-- What stands behind the first equals sign. -/
def valueOf (pair : String) : String :=
  String.ofList ((pair.toList.dropWhile fun c => c ≠ '=').drop 1)

/-- One equals sign, and at least one character on each side of it. -/
def IsPair (pair : String) : Prop :=
  pair.toList.count '=' = 1 ∧ nameOf pair ≠ "" ∧ valueOf pair ≠ ""

instance (pair : String) : Decidable (IsPair pair) :=
  inferInstanceAs (Decidable (_ ∧ _))

/-- The values that a name is given, in the order of the pairs. -/
def valuesOf (name : String) (pairs : List String) : List String :=
  (pairs.filter fun pair => nameOf pair = name).map valueOf

/-- The pairs before it are well-formed, and it is not. -/
def FirstMalformed (pair : String) (pairs : List String) : Prop :=
  ∃ before after, pairs = before ++ pair :: after ∧ (∀ earlier ∈ before, IsPair earlier) ∧
    ¬ IsPair pair

end Pairs

theorem nameOf_eq {pair : String} {front back : List Char} (hfront : '=' ∉ front)
    (hpair : pair.toList = front ++ '=' :: back) : nameOf pair = String.ofList front := by
  have hall : ∀ c ∈ front, decide (c ≠ '=') = true := by
    intro c hc
    exact decide_eq_true fun heq => hfront (heq ▸ hc)
  rw [nameOf, hpair, List.takeWhile_append_of_pos hall]
  simp

theorem valueOf_eq {pair : String} {front back : List Char} (hfront : '=' ∉ front)
    (hpair : pair.toList = front ++ '=' :: back) : valueOf pair = String.ofList back := by
  have hall : ∀ c ∈ front, decide (c ≠ '=') = true := by
    intro c hc
    exact decide_eq_true fun heq => hfront (heq ▸ hc)
  rw [valueOf, hpair, List.dropWhile_append_of_pos hall]
  simp

theorem isPair_iff {pair : String} {front back : List Char} (hfront : '=' ∉ front)
    (hpair : pair.toList = front ++ '=' :: back) :
    IsPair pair ↔ '=' ∉ back ∧ front ≠ [] ∧ back ≠ [] := by
  have hcount : pair.toList.count '=' = back.count '=' + 1 := by
    rw [hpair, List.count_append, List.count_cons_self, List.count_eq_zero.mpr hfront, Nat.zero_add]
  rw [IsPair, nameOf_eq hfront hpair, valueOf_eq hfront hpair, hcount, Nat.add_eq_right,
    List.count_eq_zero, ← String.ofList_nil, Ne, Ne, String.ofList_inj, String.ofList_inj]

theorem matches_pairPattern_iff {text name value : List Char} :
    Text.Matches pairPattern text [name, value] ↔
      (text = name ++ '=' :: value ∧ '=' ∉ name ∧ '=' ∉ value) ∧ name ≠ [] ∧ value ≠ [] := by
  have hsign : ∀ piece : List Char, (∀ c ∈ piece, decide (c ≠ '=') = true) ↔ '=' ∉ piece := by
    intro piece
    simp only [decide_eq_true_eq]
    exact ⟨fun h hmem => h _ hmem rfl, fun h c hmem hc => h (hc ▸ hmem)⟩
  constructor
  · rintro (_ | _ | ⟨hname, hletters, _ | ⟨_ | _ | ⟨hvalue, hletters', _ | _⟩⟩⟩)
    rw [List.append_nil]
    exact ⟨⟨rfl, (hsign _).mp hletters, (hsign _).mp hletters'⟩, hname, hvalue⟩
  · rintro ⟨⟨rfl, hletters, hletters'⟩, hname, hvalue⟩
    have hback : Text.Matches [.group fun c => c ≠ '='] (value ++ []) [value] :=
      .group hvalue ((hsign _).mpr hletters') .done
    rw [List.append_nil] at hback
    exact .group hname ((hsign _).mpr hletters) (.char hback)

theorem splitPair?_eq_some_iff {pair name value : String} :
    splitPair? pair = some (name, value) ↔
      Text.Matches pairPattern pair.toList [name.toList, value.toList] := by
  rw [matches_pairPattern_iff, ← Text.splitOn_eq_pair_iff, splitPair?]
  constructor
  · intro h
    split at h
    · rename_i front back hsplit
      split at h
      · cases h
      · rename_i hsides
        cases h
        rw [hsplit, String.toList_ofList, String.toList_ofList]
        simpa using hsides
    · cases h
  · rintro ⟨hsplit, hname, hvalue⟩
    rw [hsplit]
    simp [hname, hvalue]

theorem isPair_iff_matches {pair : String} : IsPair pair ↔
    Text.Matches pairPattern pair.toList [(nameOf pair).toList, (valueOf pair).toList] := by
  rw [matches_pairPattern_iff]
  constructor
  · intro h
    have hsign : '=' ∈ pair.toList := List.count_pos_iff.mp (by rw [h.1]; exact Nat.one_pos)
    obtain ⟨front, back, hpair, hfront⟩ := List.eq_append_cons_of_mem hsign
    obtain ⟨hback, hsides⟩ := (isPair_iff hfront hpair).mp h
    rw [nameOf_eq hfront hpair, valueOf_eq hfront hpair, String.toList_ofList, String.toList_ofList]
    exact ⟨⟨hpair, hfront, hback⟩, hsides⟩
  · rintro ⟨⟨hpair, hfront, hback⟩, hsides⟩
    exact (isPair_iff hfront hpair).mpr ⟨hback, hsides⟩

/-- A pair is split exactly if it is one. -/
theorem splitPair?_eq (pair : String) :
    splitPair? pair = if IsPair pair then some (nameOf pair, valueOf pair) else none := by
  split
  · rename_i hpair
    exact splitPair?_eq_some_iff.mpr (isPair_iff_matches.mp hpair)
  · rename_i hpair
    rw [Option.eq_none_iff_forall_ne_some]
    rintro ⟨name, value⟩ hsplit
    obtain ⟨⟨hparts, hletters, hletters'⟩, hsides⟩ :=
      matches_pairPattern_iff.mp (splitPair?_eq_some_iff.mp hsplit)
    exact hpair ((isPair_iff hletters hparts).mpr ⟨hletters', hsides⟩)

section Reading

/-- What a name has once some values have been added to those before. -/
def extended (before : Option (List String)) (values : List String) : Option (List String) :=
  if values = [] then before else some (before.getD [] ++ values)

theorem get?_add (overrides : Overrides) (name value key : String) :
    (overrides.add name value).get? key =
      if key = name then some ((overrides.get? name).getD [] ++ [value]) else overrides.get? key :=
  Table.get?_insert ..

theorem valuesOf_cons (name pair : String) (pairs : List String) :
    valuesOf name (pair :: pairs) =
      if nameOf pair = name then valueOf pair :: valuesOf name pairs else valuesOf name pairs := by
  simp only [valuesOf, List.filter_cons, decide_eq_true_eq]
  split <;> rfl

theorem extended_add (overrides : Overrides) (pair : String) (pairs : List String) (name : String) :
    extended ((overrides.add (nameOf pair) (valueOf pair)).get? name) (valuesOf name pairs) =
      extended (overrides.get? name) (valuesOf name (pair :: pairs)) := by
  rw [get?_add, valuesOf_cons]
  by_cases hname : name = nameOf pair
  · subst hname
    rw [if_pos rfl, if_pos rfl, extended, extended, if_neg (List.cons_ne_nil _ _)]
    split
    · rename_i hnone
      rw [hnone]
    · simp
  · rw [if_neg hname, if_neg (Ne.symm hname)]

theorem addPairs_cons (overrides : Overrides) {pair : String} (h : IsPair pair)
    (pairs : List String) :
    addPairs overrides (pair :: pairs) =
      addPairs (overrides.add (nameOf pair) (valueOf pair)) pairs := by
  rw [addPairs, splitPair?_eq, if_pos h]

theorem exists_addPairs (overrides : Overrides) {pairs : List String}
    (h : ∀ pair ∈ pairs, IsPair pair) :
    ∃ result, addPairs overrides pairs = .ok result ∧
      ∀ name, result.get? name = extended (overrides.get? name) (valuesOf name pairs) := by
  induction pairs generalizing overrides with
  | nil => exact ⟨overrides, rfl, fun _ => rfl⟩
  | cons pair pairs ih =>
    rw [addPairs_cons overrides (h pair (by simp))]
    obtain ⟨result, hresult, hget⟩ :=
      ih (overrides.add (nameOf pair) (valueOf pair)) fun other hother => h other (by simp [hother])
    refine ⟨result, hresult, ?_⟩
    intro name
    rw [hget, extended_add]

theorem addPairs_of_firstMalformed (overrides : Overrides) {pair : String} {pairs : List String}
    (h : FirstMalformed pair pairs) :
    addPairs overrides pairs = .error (.invalidOverride pair) := by
  obtain ⟨before, after, rfl, hbefore, hpair⟩ := h
  induction before generalizing overrides with
  | nil => rw [List.nil_append, addPairs, splitPair?_eq, if_neg hpair]
  | cons first before ih =>
    rw [List.cons_append, addPairs_cons overrides (hbefore first (by simp))]
    exact ih _ fun earlier hearlier => hbefore earlier (by simp [hearlier])

theorem all_isPair_or_firstMalformed (pairs : List String) :
    (∀ pair ∈ pairs, IsPair pair) ∨ ∃ pair, FirstMalformed pair pairs := by
  induction pairs with
  | nil => exact Or.inl (by simp)
  | cons first pairs ih =>
    by_cases hfirst : IsPair first
    · rcases ih with hall | ⟨pair, before, after, rfl, hbefore, hpair⟩
      · exact Or.inl (by simpa using ⟨hfirst, hall⟩)
      · exact Or.inr ⟨pair, first :: before, after, rfl, by simpa using ⟨hfirst, hbefore⟩, hpair⟩
    · exact Or.inr ⟨first, [], pairs, rfl, by simp, hfirst⟩

theorem ofPairs_of_all {pairs : List String} (h : ∀ pair ∈ pairs, IsPair pair) :
    ∃ overrides, ofPairs pairs = .ok overrides ∧
      ∀ name, overrides.get? name =
        if valuesOf name pairs = [] then none else some (valuesOf name pairs) := by
  obtain ⟨overrides, hread, hget⟩ := exists_addPairs Table.empty h
  refine ⟨overrides, hread, ?_⟩
  intro name
  rw [hget, Table.get?_empty]
  rfl

theorem ofPairs_eq_error_iff {pairs : List String} {e : ConfigError} :
    ofPairs pairs = .error e ↔ ∃ pair, FirstMalformed pair pairs ∧ e = .invalidOverride pair := by
  constructor
  · intro h
    rcases all_isPair_or_firstMalformed pairs with hall | ⟨pair, hfirst⟩
    · obtain ⟨overrides, hread, -⟩ := ofPairs_of_all hall
      rw [hread] at h
      cases h
    · rw [ofPairs, addPairs_of_firstMalformed _ hfirst] at h
      cases h
      exact ⟨pair, hfirst, rfl⟩
  · rintro ⟨pair, hfirst, rfl⟩
    exact addPairs_of_firstMalformed _ hfirst

theorem all_isPair_of_ofPairs_eq_ok {pairs : List String} {overrides : Overrides}
    (h : ofPairs pairs = .ok overrides) : ∀ pair ∈ pairs, IsPair pair := by
  rcases all_isPair_or_firstMalformed pairs with hall | ⟨pair, hfirst⟩
  · exact hall
  · rw [ofPairs, addPairs_of_firstMalformed _ hfirst] at h
    cases h

theorem get?_of_ofPairs_eq_ok {pairs : List String} {overrides : Overrides}
    (h : ofPairs pairs = .ok overrides) (name : String) :
    overrides.get? name = if valuesOf name pairs = [] then none
      else some (valuesOf name pairs) := by
  obtain ⟨read, hread, hget⟩ := ofPairs_of_all (all_isPair_of_ofPairs_eq_ok h)
  rw [hread] at h
  cases h
  exact hget name

theorem ofPairs_eq_ok_iff {pairs : List String} {overrides : Overrides} :
    ofPairs pairs = .ok overrides ↔ (∀ pair ∈ pairs, IsPair pair) ∧
      ∀ name, overrides.get? name =
        if valuesOf name pairs = [] then none else some (valuesOf name pairs) := by
  constructor
  · intro h
    exact ⟨all_isPair_of_ofPairs_eq_ok h, get?_of_ofPairs_eq_ok h⟩
  · rintro ⟨hall, hget⟩
    obtain ⟨read, hread, hsame⟩ := ofPairs_of_all hall
    rw [hread, Except.ok.injEq]
    exact Table.ext_get? fun name => (hsame name).trans (hget name).symm

end Reading

section Properties

theorem strings?_ofStrings (texts : List String) :
    (Json.ofStrings texts).strings? = some texts := by
  have htext : ∀ text, (Json.str text).text? = some (id text) := fun _ => rfl
  have h := mapM_map_eq_some htext texts
  rwa [List.map_id] at h

theorem ofJson?_toJson (overrides : Overrides) : ofJson? overrides.toJson = some overrides := by
  have hmembers : (overrides.entries.map fun entry => (entry.1, Json.ofStrings entry.2)).mapM
      (fun member => member.2.strings?.map fun texts => (member.1, texts)) =
        some (overrides.entries.map id) :=
    mapM_map_eq_some (fun entry => by rw [strings?_ofStrings]; rfl) overrides.entries
  rw [List.map_id] at hmembers
  exact (congrArg (Option.map Table.ofList) hmembers).trans
    (congrArg some (Table.ofList_entries overrides))

theorem ofProperties_toProperties (overrides : Overrides) :
    ofProperties overrides.toProperties = overrides := by
  rw [toProperties]
  split
  · rename_i hempty
    exact (Table.ext_entries (List.isEmpty_iff.mp hempty)).symm
  · rw [ofProperties, Table.get?_insert, if_pos rfl, Option.bind_some, ofJson?_toJson]
    rfl

end Properties

/-- Pairs are read exactly if each of them is one, and otherwise the first that is none is the
error. A name has the values of its pairs then, in their order, and a resource to which all this is
attached carries it. -/
theorem pairs_are_read_and_carried (pairs : List String) :
    ((∃ overrides, ofPairs pairs = .ok overrides) ↔ ∀ pair ∈ pairs, IsPair pair) ∧
      (∀ e, ofPairs pairs = .error e ↔
        ∃ pair, FirstMalformed pair pairs ∧ e = .invalidOverride pair) ∧
      ∀ overrides, ofPairs pairs = .ok overrides →
        (∀ name, overrides.get? name =
          if valuesOf name pairs = [] then none else some (valuesOf name pairs)) ∧
        ∀ resource : Resource, resource.properties = overrides.toProperties →
          resource.overrides = overrides := by
  refine ⟨⟨?_, ?_⟩, fun e => ofPairs_eq_error_iff, ?_⟩
  · rintro ⟨overrides, hread⟩
    exact all_isPair_of_ofPairs_eq_ok hread
  · intro hall
    obtain ⟨overrides, hread, -⟩ := ofPairs_of_all hall
    exact ⟨overrides, hread⟩
  · intro overrides hread
    refine ⟨get?_of_ofPairs_eq_ok hread, ?_⟩
    intro resource hproperties
    rw [Resource.overrides, hproperties, ofProperties_toProperties]

/-- Pairs of three names, one of them with a line break in its value and one in another script. -/
def labels : List String :=
  ["keyword=a", "note=first\nsecond", "keyword=b", "λ=∀", "keyword=a"]

theorem labels_read_and_carried : ∃ overrides, ofPairs labels = .ok overrides ∧
    overrides.get? "keyword" = some ["a", "b", "a"] ∧ overrides.get? "λ" = some ["∀"] ∧
    overrides.get? "title" = none ∧
    (Resource.mk "r/a" overrides.toProperties).overrides = overrides := by
  obtain ⟨hread, -, hresult⟩ := pairs_are_read_and_carried labels
  obtain ⟨overrides, hoverrides⟩ := hread.mpr (by decide)
  obtain ⟨hget, hcarried⟩ := hresult overrides hoverrides
  refine ⟨overrides, hoverrides, ?_, ?_, ?_, hcarried _ rfl⟩
  · rw [hget]
    decide
  · rw [hget]
    decide
  · rw [hget]
    decide

end Overrides

end CatalogSync
