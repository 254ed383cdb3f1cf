import CatalogSync.Proofs.Json.Members
import CatalogSync.Proofs.Json.Recognition
import CatalogSync.Proofs.Snapshot.Changes
import CatalogSync.Proofs.Snapshot.Codec

namespace CatalogSync

open Json

/-- How a text may give a fingerprint: by the names of its parts, perhaps with other members beside
them, or as a pair. -/
inductive Fingerprint.GivenBy : Source → Fingerprint → Prop where
  | names {members : List (Literal × Source)} {fingerprint : Fingerprint}
    (hnames : NamesAreTexts members)
      (hsize : valuesNamed "size" members = [.number (numeralOf fingerprint.size.toNat)])
      (hmodified : valuesNamed "modified_ms" members =
        [.number (numeralOf fingerprint.modified.toInt)]) :
      GivenBy (.object members) fingerprint
  | pair (fingerprint : Fingerprint) :
      GivenBy (.array [.number (numeralOf fingerprint.size.toNat),
        .number (numeralOf fingerprint.modified.toInt)]) fingerprint

/-- A member whose name is a path, with the fingerprint of what is there. -/
def ListingEntry.GivenBy (member : Literal × Source) (entry : ListingEntry) : Prop :=
  member.1.text? = some entry.path ∧ entry.fingerprint.GivenBy member.2

section Fingerprints

variable {source size modified : Source} {fingerprint : Fingerprint}

theorem Fingerprint.parts_eq_some_iff (hsize : size.IsWritten) (hmodified : modified.IsWritten) :
    (do return (⟨UInt64.ofNat (← size.below? UInt64.size), Int64.ofInt (← modified.int64?)⟩ :
        Fingerprint)) = some fingerprint ↔
      size = .number (numeralOf fingerprint.size.toNat) ∧
        modified = .number (numeralOf fingerprint.modified.toInt) := by
  simp only [Option.bind_eq_bind, Option.bind_eq_some_iff, Option.pure_def, Option.some.injEq,
    below?_eq_some_iff hsize, int64?_eq_some_iff hmodified]
  constructor
  · rintro ⟨n, ⟨rfl, hn⟩, m, ⟨rfl, hlow, hhigh⟩, rfl⟩
    have hn' : (UInt64.ofNat n).toNat = n := UInt64.toNat_ofNat_of_lt' hn
    have hm' : (Int64.ofInt m).toInt = m := Int64.toInt_ofInt_of_le hlow hhigh
    exact ⟨by rw [hn'], by rw [hm']⟩
  · rintro ⟨rfl, rfl⟩
    refine ⟨_, ⟨rfl, fingerprint.size.toNat_lt⟩, _, ⟨rfl, fingerprint.modified.le_toInt, ?_⟩, ?_⟩
    · have := fingerprint.modified.toInt_lt
      omega
    · simp

theorem Fingerprint.ofSource?_eq_some_iff_fields :
    Fingerprint.ofSource? source = some fingerprint ↔
      ∃ size modified, source.fields? ["size", "modified_ms"] = some [some size, some modified] ∧
        (do return (⟨UInt64.ofNat (← size.below? UInt64.size), Int64.ofInt (← modified.int64?)⟩ :
          Fingerprint)) = some fingerprint := by
  rw [Fingerprint.ofSource?, Option.bind_eq_bind, Option.bind_eq_some_iff]
  constructor
  · rintro ⟨fields, hfields, hread⟩
    split at hread
    · exact ⟨_, _, hfields, hread⟩
    · cases hread
  · rintro ⟨size, modified, hfields, hread⟩
    exact ⟨_, hfields, hread⟩

theorem Fingerprint.ofSource?_eq_some_iff (h : source.IsWritten) :
    Fingerprint.ofSource? source = some fingerprint ↔ fingerprint.GivenBy source := by
  rw [Fingerprint.ofSource?_eq_some_iff_fields]
  constructor
  · rintro ⟨size, modified, hfields, hread⟩
    cases source with
    | array items =>
      obtain rfl := fields?_array_pair_iff.mp hfields
      rw [Fingerprint.parts_eq_some_iff (h.item (by simp)) (h.item (by simp))] at hread
      rw [hread.1, hread.2]
      exact .pair fingerprint
    | object members =>
      by_cases hnames : NamesAreTexts members
      · obtain ⟨hsize, hmodified⟩ := (fields?_object_pair_iff hnames).mp hfields
        rw [Fingerprint.parts_eq_some_iff (h.valueNamed (by rw [hsize]; simp))
          (h.valueNamed (by rw [hmodified]; simp))] at hread
        exact .names hnames (hread.1 ▸ hsize) (hread.2 ▸ hmodified)
      · rw [fields?_object_of_not hnames] at hfields
        cases hfields
    | _ => cases hfields
  · rintro (⟨hnames, hsize, hmodified⟩ | _)
    · refine ⟨_, _, (fields?_object_pair_iff hnames).mpr ⟨hsize, hmodified⟩, ?_⟩
      exact (Fingerprint.parts_eq_some_iff (h.valueNamed (by rw [hsize]; simp))
        (h.valueNamed (by rw [hmodified]; simp))).mpr ⟨rfl, rfl⟩
    · refine ⟨_, _, fields?_array_pair_iff.mpr rfl, ?_⟩
      exact (Fingerprint.parts_eq_some_iff (h.item (by simp)) (h.item (by simp))).mpr ⟨rfl, rfl⟩

end Fingerprints

namespace Snapshot

variable {members : List (Literal × Source)} {snapshot : Snapshot} {n : Nat}

theorem versionOf?_object (hnames : NamesAreTexts members)
    (hversion : valuesNamed "version" members = [.number (numeralOf n)]) (hn : n < UInt32.size) :
    versionOf? (.object members) = some n := by
  have hread : (Source.number (numeralOf n)).below? UInt32.size = some n := below?_source_num hn
  rw [versionOf?, (fields?_object_singleton_iff hnames).mpr hversion, Option.bind_eq_bind,
    Option.bind_some]
  exact hread

theorem versionOf?_object_of_not (hnames : ¬ NamesAreTexts members) :
    versionOf? (.object members) = none := by
  rw [versionOf?, fields?_object_of_not hnames]
  rfl

theorem forall₂_givenBy_iff {inner : List (Literal × Source)} {entries : List ListingEntry}
    (h : ∀ member ∈ inner, member.2.IsWritten) :
    List.Forall₂ (fun member entry => member.1.text? = some entry.path ∧
        Fingerprint.ofSource? member.2 = some entry.fingerprint) inner entries ↔
      List.Forall₂ ListingEntry.GivenBy inner entries := by
  induction inner generalizing entries with
  | nil => rw [List.forall₂_nil_left_iff, List.forall₂_nil_left_iff]
  | cons member inner ih =>
    obtain ⟨hmember, hinner⟩ := List.forall_mem_cons.mp h
    cases entries with
    | nil => simp
    | cons entry entries =>
      rw [List.forall₂_cons, List.forall₂_cons, ih hinner,
        Fingerprint.ofSource?_eq_some_iff hmember]
      exact Iff.rfl

theorem table?_fingerprint_eq_some_iff {source : Source} (h : source.IsWritten) :
    source.table? Fingerprint.ofSource? = some snapshot.table ↔
      ∃ inner entries, source = .object inner ∧ List.Forall₂ ListingEntry.GivenBy inner entries ∧
        snapshot = ofListing entries := by
  rw [table?_eq_some_iff]
  constructor
  · rintro ⟨inner, pairs, rfl, hpairs, htable⟩
    obtain ⟨entries, rfl⟩ : ∃ entries : List ListingEntry,
        pairs = entries.map fun entry => (entry.path, entry.fingerprint) :=
      ⟨pairs.map fun pair => ⟨pair.1, pair.2⟩, by rw [List.map_map]; exact (List.map_id pairs).symm⟩
    rw [List.forall₂_map_right_iff] at hpairs
    refine ⟨inner, entries, rfl, (forall₂_givenBy_iff fun _ hmember => h.member hmember).mp hpairs,
      ?_⟩
    rw [ofListing, ← htable]
  · rintro ⟨inner, entries, rfl, hentries, rfl⟩
    refine ⟨inner, entries.map fun entry => (entry.path, entry.fingerprint), rfl, ?_, rfl⟩
    rw [List.forall₂_map_right_iff]
    exact (forall₂_givenBy_iff fun _ hmember => h.member hmember).mpr hentries

theorem ofSource?_object_eq_some_iff (h : (Source.object members).IsWritten)
    (hnames : NamesAreTexts members)
    (hversion : valuesNamed "version" members = [.number (numeralOf n)]) (hn : n < UInt32.size) :
    ofSource? (.object members) = some snapshot ↔
      ∃ inner entries, valuesNamed "entries" members = [.object inner] ∧
        List.Forall₂ ListingEntry.GivenBy inner entries ∧ snapshot = ofListing entries := by
  have hread : (Source.number (numeralOf n)).below? UInt32.size = some n := below?_source_num hn
  rw [ofSource?, Option.bind_eq_bind, Option.bind_eq_some_iff]
  constructor
  · rintro ⟨fields, hfields, hfound⟩
    split at hfound
    · rename_i found given
      obtain ⟨hfoundVersion, hgiven⟩ := (fields?_object_pair_iff hnames).mp hfields
      simp only [Option.bind_eq_bind, Option.bind_eq_some_iff, Option.pure_def,
        Option.some.injEq] at hfound
      obtain ⟨_, _, table, htable, rfl⟩ := hfound
      -- What stands in a text is written by the grammar, so that the numbers in it are plain
      -- digits.
      have hwritten := h.valueNamed
        (show given ∈ valuesNamed "entries" members by rw [hgiven]; simp)
      have hfingerprints : given.table? Fingerprint.ofSource? = some (Snapshot.mk table).table :=
        htable
      obtain ⟨inner, entries, rfl, hentries, hsame⟩ :=
        (table?_fingerprint_eq_some_iff hwritten).mp hfingerprints
      exact ⟨inner, entries, hgiven, hentries, hsame⟩
    · cases hfound
  · rintro ⟨inner, entries, hgiven, hentries, rfl⟩
    have hwritten := h.valueNamed
      (show Source.object inner ∈ valuesNamed "entries" members by rw [hgiven]; simp)
    have htable := (table?_fingerprint_eq_some_iff hwritten).mpr ⟨inner, entries, rfl, hentries,
      rfl⟩
    refine ⟨_, (fields?_object_pair_iff hnames).mpr ⟨hversion, hgiven⟩, ?_⟩
    simp only [hread, htable, Option.bind_eq_bind, Option.bind_some]
    rfl

section Texts

variable {input : Bytes} (htext : Holds input (.object members))
include htext

theorem decode_of_names (hnames : NamesAreTexts members)
    (hversion : valuesNamed "version" members = [.number (numeralOf n)]) (hn : n < UInt32.size) :
    decode input =
      if n = 1 then
        match ofSource? (.object members) with
        | some snapshot => .ok snapshot
        | none => .error .malformed
      else .error (.unsupportedVersion n) := by
  rw [decode, parse?_eq_some_iff.mpr htext]
  simp only [versionOf?_object hnames hversion hn]
  rfl

theorem decode_of_not_names (hnames : ¬ NamesAreTexts members) :
    decode input = .error .malformed := by
  rw [decode, parse?_eq_some_iff.mpr htext]
  simp only [versionOf?_object_of_not hnames]

theorem decode_eq_ok_iff (hnames : NamesAreTexts members)
    (hversion : valuesNamed "version" members = [.number (numeralOf (1 : Nat))]) :
    decode input = .ok snapshot ↔
      ∃ inner entries, valuesNamed "entries" members = [.object inner] ∧
        List.Forall₂ ListingEntry.GivenBy inner entries ∧ snapshot = ofListing entries := by
  rw [decode_of_names htext hnames hversion (by decide), if_pos rfl,
    ← ofSource?_object_eq_some_iff htext.isWritten hnames hversion (by decide)]
  cases ofSource? (.object members) <;> simp

theorem decode_eq_malformed (hnames : NamesAreTexts members)
    (hversion : valuesNamed "version" members = [.number (numeralOf (1 : Nat))])
    (hnone : ∀ snapshot, decode input ≠ .ok snapshot) : decode input = .error .malformed := by
  rw [decode_of_names htext hnames hversion (by decide), if_pos rfl] at hnone ⊢
  cases hread : ofSource? (.object members) with
  | none => rfl
  | some snapshot =>
    rw [hread] at hnone
    exact absurd rfl (hnone snapshot)

end Texts

theorem eq_ofListing_iff {entries : List ListingEntry} :
    snapshot = ofListing entries ↔ ∀ path, snapshot.get? path = lastFingerprint? entries path := by
  constructor
  · rintro rfl
    exact get?_ofListing entries
  · intro h
    exact ext_get? fun path => (h path).trans (get?_ofListing entries path).symm

/-- The text of an object with exactly one version in plain digits, whatever else is in it and in
whatever order. Another version than one is told by its number. With version one the text is read
exactly if there is one member for the entries, an object whose members each give a fingerprint; a
path that is given more than once has its last one. All other texts of version one are malformed,
and so are those in which a name is no text. -/
theorem versioned_texts_are_classified {input : Bytes} (htext : Holds input (.object members))
    (hversion : valuesNamed "version" members = [.number (numeralOf n)]) (hn : n < 2 ^ 32) :
    (NamesAreTexts members →
      (n ≠ 1 → decode input = .error (.unsupportedVersion n)) ∧
      (n = 1 →
        (∀ snapshot, decode input = .ok snapshot ↔
          ∃ inner entries, valuesNamed "entries" members = [.object inner] ∧
            List.Forall₂ ListingEntry.GivenBy inner entries ∧
            ∀ path, snapshot.get? path = lastFingerprint? entries path) ∧
        ((∀ snapshot, decode input ≠ .ok snapshot) → decode input = .error .malformed))) ∧
    (¬ NamesAreTexts members → decode input = .error .malformed) := by
  refine ⟨fun hnames => ⟨?_, ?_⟩, decode_of_not_names htext⟩
  · intro hne
    rw [decode_of_names htext hnames hversion hn, if_neg hne]
  · rintro rfl
    refine ⟨fun snapshot => ?_, decode_eq_malformed htext hnames hversion⟩
    simp only [← eq_ofListing_iff]
    exact decode_eq_ok_iff htext hnames hversion

/-- A text of a later layout, with entries that are no longer what they were. -/
def later : Bytes :=
  Bytes.ofText (" \x7b\"entries\" : [7], \"\\u0076ersion\": 2 ,\"made\":\x7b\"version\":1," ++
    "\"\":\"\\ud800\"\x7d,\"entries\":null\x7d\n")

def laterMembers : List (Literal × Source) :=
  [(literalOf "entries", .array [.number (numeralOf 7)]),
    (.unit 0x76 :: literalOf "ersion", .number (numeralOf 2)),
    (literalOf "made",
      .object [(literalOf "version", .number (numeralOf 1)), ([], .text [.unit 0xD800])]),
    (literalOf "entries", .null)]

theorem later_version_is_told :
    Holds later (.object laterMembers) ∧
      valuesNamed "version" laterMembers = [.number (numeralOf (2 : Nat))] ∧ 2 < 2 ^ 32 ∧
      NamesAreTexts laterMembers ∧ decode later = .error (.unsupportedVersion 2) := by
  have hone : numeralOf 1 = ⟨false, [1], true⟩ := by decide +kernel
  have htwo : numeralOf 2 = ⟨false, [2], true⟩ := by decide +kernel
  have hseven : numeralOf 7 = ⟨false, [7], true⟩ := by decide +kernel
  have hholds : Holds later (.object laterMembers) := by
    rw [← parse?_eq_some_iff, laterMembers, hone, htwo, hseven]
    rfl
  have hversion : valuesNamed "version" laterMembers = [.number (numeralOf (2 : Nat))] := rfl
  have hnames : NamesAreTexts laterMembers :=
    exists_members?_iff.mp ⟨_, show (Source.object laterMembers).members? =
      some (List.zip ["entries", "version", "made", "entries"]
        (laterMembers.map Prod.snd)) from rfl⟩
  refine ⟨hholds, hversion, by decide, hnames, ?_⟩
  exact ((versioned_texts_are_classified hholds hversion (by decide)).1 hnames).1 (by decide)

/-- A text with a later version, and with half of a pair of units as a name. -/
def halved : Bytes := Bytes.ofText "\x7b\"version\":2,\"\\ud800\":0\x7d"

def halvedMembers : List (Literal × Source) :=
  [(literalOf "version", .number (numeralOf 2)), ([.unit 0xD800], .number (numeralOf 0))]

/-- The version beside a name that is no text is not told. -/
theorem halved_version_is_not_told :
    Holds halved (.object halvedMembers) ∧
      valuesNamed "version" halvedMembers = [.number (numeralOf (2 : Nat))] ∧
      decode halved = .error .malformed ∧ decode halved ≠ .error (.unsupportedVersion 2) := by
  have hzero : numeralOf 0 = ⟨false, [0], true⟩ := by decide +kernel
  have htwo : numeralOf 2 = ⟨false, [2], true⟩ := by decide +kernel
  have hholds : Holds halved (.object halvedMembers) := by
    rw [← parse?_eq_some_iff, halvedMembers, hzero, htwo]
    rfl
  have hmalformed : decode halved = .error .malformed := by decide +kernel
  refine ⟨hholds, rfl, hmalformed, ?_⟩
  rw [hmalformed]
  intro h
  cases h

end Snapshot

end CatalogSync
