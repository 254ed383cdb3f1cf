import CatalogSync.Proofs.Config.Entries
import CatalogSync.Proofs.Disk.Settings
import Mathlib.Data.List.TakeWhile

/-!
What is found among the settings when they are asked for by the beginning of a key. The database
cuts every key to as many characters as the beginning has bytes. With a beginning of one-byte
characters that leaves the beginning of the key; with any other beginning it leaves too much of a
key that goes on after it.
-/

namespace CatalogSync

namespace Settings

def HasBeginning (beginning key : String) : Prop :=
  ∃ rest, key = beginning ++ rest

/-- Whether the cut leaves the beginning of a key and nothing else, `rest` being how the key goes
on. A null character ends a text for the database that cuts it. -/
def IsCutOff (beginning rest : String) : Prop :=
  '\x00' ∉ beginning.toList ∧
    ((∀ c ∈ beginning.toList, c.toNat < 128) ∨ ∀ c ∈ rest.toList.head?, c = '\x00')

def IsFound (beginning key : String) : Prop :=
  ∃ rest, key = beginning ++ rest ∧ IsCutOff beginning rest

/-- The rows are those that are stored under keys that are wanted, in ascending order of the keys
and hence each once. -/
structure Lists (stored : String → Option String) (IsWanted : String → Prop)
    (rows : List (String × String)) : Prop where
  mem_iff : ∀ key value, (key, value) ∈ rows ↔ stored key = some value ∧ IsWanted key
  ascending : rows.Pairwise fun a b => Text.before a.1 b.1 = true

variable {beginning rest : String}

theorem utf8Size_eq_one_iff (c : Char) : c.utf8Size = 1 ↔ c.toNat < 128 := by
  rw [Char.utf8Size_eq_one_iff, UInt32.le_iff_toNat_le]
  have hlast : (127 : UInt32).toNat = 127 := rfl
  have hcode : c.val.toNat = c.toNat := rfl
  omega

theorem length_le_length_utf8 (cs : List Char) :
    cs.length ≤ (cs.flatMap String.utf8EncodeChar).length := by
  induction cs with
  | nil => exact Nat.le_refl _
  | cons c cs ih =>
    have hpos := c.utf8Size_pos
    rw [List.flatMap_cons, List.length_append, String.length_utf8EncodeChar, List.length_cons]
    omega

theorem length_utf8_le_iff (cs : List Char) :
    (cs.flatMap String.utf8EncodeChar).length ≤ cs.length ↔ ∀ c ∈ cs, c.toNat < 128 := by
  induction cs with
  | nil => simp
  | cons c cs ih =>
    have hpos := c.utf8Size_pos
    have hrest := length_le_length_utf8 cs
    rw [List.forall_mem_cons, ← utf8Size_eq_one_iff, List.flatMap_cons, List.length_append,
      String.length_utf8EncodeChar, List.length_cons]
    constructor
    · intro hfew
      exact ⟨by omega, ih.mp (by omega)⟩
    · rintro ⟨hone, hrests⟩
      have hfew := ih.mpr hrests
      omega

theorem length_ofText_le_iff (text : String) :
    (Bytes.ofText text).length ≤ text.toList.length ↔ ∀ c ∈ text.toList, c.toNat < 128 := by
  rw [← length_utf8_le_iff, ← Bytes.ofText_ofList, String.ofList_toList]

theorem firstChars_eq_nil_iff (n : Nat) (text : String) :
    firstChars n text = [] ↔ n = 0 ∨ ∀ c ∈ text.toList.head?, c = '\x00' := by
  rw [firstChars, List.take_eq_nil_iff]
  apply or_congr_right
  cases text.toList with
  | nil => simp
  | cons c cs => simp [List.takeWhile_cons]

theorem firstChars_append_eq_iff (hplain : '\x00' ∉ beginning.toList) (rest : String) :
    firstChars (Bytes.ofText beginning).length (beginning ++ rest) = beginning.toList ↔
      (∀ c ∈ beginning.toList, c.toNat < 128) ∨ ∀ c ∈ rest.toList.head?, c = '\x00' := by
  have hmore : beginning.toList.length ≤ (Bytes.ofText beginning).length := by
    have hutf8 := length_le_length_utf8 beginning.toList
    rwa [← Bytes.ofText_ofList, String.ofList_toList] at hutf8
  rw [firstChars_append hplain, List.take_of_length_le hmore, List.append_right_eq_self,
    firstChars_eq_nil_iff, Nat.sub_eq_zero_iff_le, length_ofText_le_iff]

theorem firstChars_eq_iff (key : String) :
    firstChars (Bytes.ofText beginning).length key = beginning.toList ↔ IsFound beginning key := by
  constructor
  · intro hfirst
    have hstart : beginning.toList <+: key.toList := by
      rw [← hfirst, firstChars]
      exact (List.take_prefix _ _).trans (List.takeWhile_prefix _)
    have hplain : '\x00' ∉ beginning.toList := by
      rw [← hfirst, firstChars]
      intro hmem
      simpa using List.mem_takeWhile_imp (List.mem_of_mem_take hmem)
    obtain ⟨rest, hrest⟩ := hstart
    have hkey : key = beginning ++ String.ofList rest := by
      rw [← String.toList_inj, String.toList_append, String.toList_ofList, hrest]
    subst hkey
    exact ⟨String.ofList rest, rfl, hplain, (firstChars_append_eq_iff hplain _).mp hfirst⟩
  · rintro ⟨rest, rfl, hplain, hends⟩
    exact (firstChars_append_eq_iff hplain rest).mpr hends

theorem lists_withBeginning (settings : Settings) (beginning : String) :
    Lists settings.get? (IsFound beginning) (settings.withBeginning beginning) where
  mem_iff := by
    intro key value
    rw [withBeginning, List.mem_filter, decide_eq_true_eq, firstChars_eq_iff,
      Table.get?_eq_some_iff]
  ascending := settings.ascending.filter _

theorem Lists.hasBeginning_iff {stored : String → Option String} {rows : List (String × String)}
    (h : Lists stored (IsFound beginning) rows) :
    Lists stored (HasBeginning beginning) rows ↔
      ∀ rest, (stored (beginning ++ rest)).isSome → IsCutOff beginning rest := by
  constructor
  · intro hlists rest hstored
    obtain ⟨value, hvalue⟩ := Option.isSome_iff_exists.mp hstored
    have hrow := (hlists.mem_iff _ _).mpr ⟨hvalue, rest, rfl⟩
    obtain ⟨-, rest', hsame, hcut⟩ := (h.mem_iff _ _).mp hrow
    rw [String.append_right_inj] at hsame
    exact hsame ▸ hcut
  · intro hall
    refine ⟨fun key value => ?_, h.ascending⟩
    rw [h.mem_iff]
    constructor
    · rintro ⟨hvalue, rest, hkey, -⟩
      exact ⟨hvalue, rest, hkey⟩
    · rintro ⟨hvalue, rest, rfl⟩
      exact ⟨hvalue, rest, rfl, hall rest (hvalue ▸ rfl)⟩

end Settings

namespace Disk

open Settings

/-- Whatever has been set and removed, a beginning finds the stored keys of which the cut leaves
nothing else; these are all stored keys with the beginning if and only if that is so for each of
them. -/
theorem beginning_finds_stored (connection : Connection) {disk : Disk} {settings : Settings}
    (h : disk.settings connection = .ok settings) (edits : List Edit) (beginning : String) :
    ∃ after, (editAll connection edits disk).settings connection = .ok after ∧
      let stored := Edit.stored settings.get? (accepted connection disk edits)
      Lists stored (IsFound beginning) (after.withBeginning beginning) ∧
      (Lists stored (HasBeginning beginning) (after.withBeginning beginning) ↔
        ∀ rest, (stored (beginning ++ rest)).isSome → IsCutOff beginning rest) := by
  refine ⟨_, settings_editAll h edits, ?_⟩
  have hlists :=
    lists_withBeginning ((accepted connection disk edits).foldl Edit.apply settings) beginning
  have hstored := funext (Edit.get?_foldl_apply (accepted connection disk edits) settings)
  rw [hstored] at hlists
  exact ⟨hlists, hlists.hasBeginning_iff⟩

def accented : List Edit :=
  [.set "é.a" "1", .set "harvester.é.root" "r", .set "é.b" "2", .set "é" "3", .remove "é.b"]

def accentedSettings : Settings :=
  accented.foldl Edit.apply Table.empty

theorem accented_finds :
    unnamed.2.settings unnamed.1 = .ok Table.empty ∧
      accepted unnamed.1 unnamed.2 accented = accented ∧
      accentedSettings.withBeginning "harvester." = [("harvester.é.root", "r")] ∧
      accentedSettings.withBeginning "é" = [("é", "3")] ∧
      Lists (Edit.stored Table.empty.get? accented) (IsFound "é")
        (accentedSettings.withBeginning "é") := by
  obtain ⟨after, hafter, hlists, -⟩ :=
    beginning_finds_stored unnamed.1 settings_unnamed accented "é"
  obtain rfl : accentedSettings = after :=
    Except.ok.inj ((settings_editAll_unnamed accented).symm.trans hafter)
  rw [accepted_unnamed] at hlists
  exact ⟨settings_unnamed, accepted_unnamed accented, by decide +kernel, by decide +kernel, hlists⟩

/-- The key that goes on after its first character, which has two bytes, is stored and not found by
it. -/
theorem accented_key_missed :
    ∃ after, (editAll unnamed.1 accented unnamed.2).settings unnamed.1 = .ok after ∧
      Edit.stored Table.empty.get? accented "é.a" = some "1" ∧
      ¬ Lists (Edit.stored Table.empty.get? accented) (HasBeginning "é")
        (after.withBeginning "é") := by
  refine ⟨accentedSettings, settings_editAll_unnamed accented, by decide +kernel, ?_⟩
  intro hlists
  have hrow := (hlists.mem_iff "é.a" "1").mpr ⟨by decide +kernel, ".a", rfl⟩
  exact absurd hrow (by decide +kernel)

end Disk

end CatalogSync
