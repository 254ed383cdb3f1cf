import CatalogSync.Catalog.Directory
import CatalogSync.Proofs.Disk.Ways
import CatalogSync.Proofs.Uuid

namespace CatalogSync

namespace Uuid

section Reading

theorem hexValue?_hexDigit : ∀ d < 16, Bytes.hexValue? (Bytes.hexDigit d) = some d := by decide

theorem mapM_hexValue? {ds : List Nat} (hds : ∀ d ∈ ds, d < 16) :
    (ds.map Bytes.hexDigit).mapM Bytes.hexValue? = some ds := by
  induction ds with
  | nil => rfl
  | cons d ds ih =>
    obtain ⟨hd, hds⟩ := List.forall_mem_cons.mp hds
    rw [List.map_cons, List.mapM_cons, hexValue?_hexDigit d hd, ih hds]
    rfl

theorem lt_of_mem_hexDigits {id : Uuid} {d : Nat} (h : d ∈ id.hexDigits) : d < 16 := by
  obtain ⟨i, -, rfl⟩ := List.mem_map.mp h
  exact Nat.mod_lt _ (by decide)

theorem foldl_hexDigits (k n : Nat) :
    ((List.range k).map fun i => (n >>> (4 * (k - 1 - i))) % 16).foldl (fun n d => 16 * n + d) 0 =
      n % 16 ^ k := by
  induction k generalizing n with
  | zero => simp [Nat.mod_one]
  | succ k ih =>
    -- All digits but the last one are those of the number without its last digit.
    have hfront : (List.range k).map (fun i => (n >>> (4 * (k + 1 - 1 - i))) % 16) =
        (List.range k).map fun i => ((n >>> 4) >>> (4 * (k - 1 - i))) % 16 := by
      refine List.map_congr_left ?_
      intro i hi
      have hplace : 4 * (k + 1 - 1 - i) = 4 + 4 * (k - 1 - i) := by
        have := List.mem_range.mp hi
        omega
      rw [hplace, Nat.shiftRight_add]
    rw [List.range_succ, List.map_append, hfront, List.foldl_append, ih]
    simp only [List.map_cons, List.map_nil, List.foldl_cons, List.foldl_nil, Nat.add_sub_cancel,
      Nat.sub_self, Nat.mul_zero, Nat.shiftRight_zero]
    have hshift : n >>> 4 = n / 16 := Nat.shiftRight_eq_div_pow n 4
    have hplaces : n % 16 ^ (k + 1) = n % 16 + 16 * (n / 16 % 16 ^ k) := by
      rw [Nat.pow_succ', Nat.mod_mul]
    rw [hplaces, hshift]
    omega

theorem ofDigits?_hexDigits (id : Uuid) :
    ofDigits? (id.hexDigits.map Bytes.hexDigit) = some id := by
  have hnumber : id.hexDigits.foldl (fun n d => 16 * n + d) 0 = id.bits.toNat := by
    have hlt := id.bits.isLt
    have hplaces := foldl_hexDigits 32 id.bits.toNat
    rw [Nat.mod_eq_of_lt (by omega)] at hplaces
    exact hplaces
  rw [ofDigits?, List.length_map, length_hexDigits, if_pos rfl,
    mapM_hexValue? fun d hd => lt_of_mem_hexDigits hd, Option.map_some, hnumber, BitVec.ofNat_toNat]
  simp

theorem ofHyphenated?_grouped {cs : List Char} (hlength : cs.length = 32) (hplain : '-' ∉ cs) :
    ofHyphenated? (grouped cs) = ofDigits? cs := by
  have hgroup : ∀ start length : Nat, '-' ∉ (cs.drop start).take length :=
    fun start length hmem => hplain (List.mem_of_mem_drop (List.mem_of_mem_take hmem))
  have hfirst : '-' ∉ cs.take 8 := fun hmem => hplain (List.mem_of_mem_take hmem)
  have hpieces : Text.splitOn '-' (grouped cs) = [cs.take 8, (cs.drop 8).take 4,
      (cs.drop 12).take 4, (cs.drop 16).take 4, (cs.drop 20).take 12] := by
    simp only [grouped, List.append_assoc, List.cons_append]
    rw [Text.splitOn_append_cons hfirst, Text.splitOn_append_cons (hgroup 8 4),
      Text.splitOn_append_cons (hgroup 12 4), Text.splitOn_append_cons (hgroup 16 4),
      Text.splitOn_of_not_mem (hgroup 20 12)]
  have hwhole : cs.take 8 ++ (cs.drop 8).take 4 ++ (cs.drop 12).take 4 ++ (cs.drop 16).take 4 ++
      (cs.drop 20).take 12 = cs := by
    rw [← List.take_add, ← List.take_add, ← List.take_add, ← List.take_add,
      List.take_of_length_le (by omega)]
  rw [ofHyphenated?, hpieces]
  simp only [List.map_cons, List.map_nil, List.length_take, List.length_drop, hlength, hwhole]
  rfl

theorem length_grouped {cs : List Char} (h : cs.length = 32) : (grouped cs).length = 36 := by
  simp [grouped, h]

theorem eq_or_mem_of_mem_grouped {cs : List Char} {c : Char} (h : c ∈ grouped cs) :
    c = '-' ∨ c ∈ cs := by
  have hgroup : ∀ start length : Nat, c ∈ (cs.drop start).take length → c ∈ cs :=
    fun _ _ hmem => List.mem_of_mem_drop (List.mem_of_mem_take hmem)
  have hfirst : c ∈ cs.take 8 → c ∈ cs := List.mem_of_mem_take
  simp only [grouped, List.mem_append, List.mem_cons] at h
  tauto

/-- The characters of a written identifier. -/
def textDigits : List Char := "0123456789abcdef-".toList

theorem mem_textDigits {id : Uuid} {c : Char} (h : c ∈ id.text.toList) : c ∈ textDigits := by
  have hdigit : ∀ d < 16, Bytes.hexDigit d ∈ textDigits := by decide
  have hdigits : ∀ c ∈ id.hexDigits.map Bytes.hexDigit, c ∈ textDigits := by
    intro c hc
    obtain ⟨d, hd, rfl⟩ := List.mem_map.mp hc
    exact hdigit d (lt_of_mem_hexDigits hd)
  rw [text_eq_grouped, String.toList_ofList] at h
  obtain rfl | hmem := eq_or_mem_of_mem_grouped h
  · decide
  · exact hdigits c hmem

theorem ofText?_text (id : Uuid) : ofText? id.text = some id := by
  have hlength : (id.hexDigits.map Bytes.hexDigit).length = 32 := by
    rw [List.length_map, length_hexDigits]
  have hplain : '-' ∉ id.hexDigits.map Bytes.hexDigit := by
    intro hmem
    obtain ⟨d, hd, hhyphen⟩ := List.mem_map.mp hmem
    exact (by decide : ∀ d < 16, Bytes.hexDigit d ≠ '-') d (lt_of_mem_hexDigits hd) hhyphen
  rw [text_eq_grouped, ofText?, String.toList_ofList]
  simp only [length_grouped hlength]
  rw [ofHyphenated?_grouped hlength hplain, ofDigits?_hexDigits]

theorem ofText_text (id : Uuid) : Bytes.ofText id.text = id.text.toList.map Char.toUInt8 := by
  have hencode : ∀ c ∈ textDigits, String.utf8EncodeChar c = [c.toUInt8] :=
    List.map_inj_left.mp (by decide)
  have hbytes := Bytes.ofText_ofList id.text.toList
  rw [String.ofList_toList] at hbytes
  rw [hbytes, List.map_eq_flatMap]
  exact List.flatMap_congr fun c hc => hencode c (mem_textDigits hc)

theorem length_text (id : Uuid) : id.text.toList.length = 36 := by
  rw [text_eq_grouped, String.toList_ofList]
  exact length_grouped (by rw [List.length_map, length_hexDigits])

end Reading

end Uuid

namespace Disk

theorem isEntryPath_join {dir path : String} (hdir : dir ≠ "")
    (hpath : path.toList.head? ≠ some '/') :
    IsEntryPath (Bytes.ofText dir) (Bytes.ofText path) (Bytes.ofText (Path.join dir path)) := by
  have hempty : dir.isEmpty = false := by simpa using hdir
  have hslash : Bytes.ofText "/" = [Path.slash] := by decide
  rw [Path.join, if_neg hpath, hempty, Bool.false_or]
  split
  · rename_i hlast
    obtain ⟨front, hfront⟩ := List.getLast?_eq_some_iff.mp (of_decide_eq_true hlast)
    have hwhole : dir = String.ofList front ++ "/" := by
      rw [← String.toList_inj, hfront]
      simp
    refine ⟨Bytes.ofText (String.ofList front), ?_, .inr ?_⟩
    · rw [hwhole, Bytes.ofText_append, Bytes.ofText_append, hslash, List.append_assoc]
      rfl
    · rw [hwhole, Bytes.ofText_append, hslash]
  · refine ⟨Bytes.ofText dir, ?_, .inl rfl⟩
    rw [Bytes.ofText_append, Bytes.ofText_append, hslash, List.append_assoc]
    rfl

theorem IsEntryPath.append {directory name path : Bytes} (h : IsEntryPath directory name path)
    (ending : Bytes) : IsEntryPath directory (name ++ ending) (path ++ ending) := by
  obtain ⟨front, rfl, hfront⟩ := h
  exact ⟨front, by simp, hfront⟩

end Disk

namespace DirectoryCatalog

section Names

/-- The name of the file of a record. -/
def recordName (uuid : Uuid) : Bytes :=
  Bytes.ofText (uuid.text ++ ".json")

/-- The name of the file that a record is written to before it takes its place. -/
def draftName (uuid : Uuid) : Bytes :=
  recordName uuid ++ Bytes.ofText ".tmp"

/-- The file that a record is written to before it takes its place. -/
def draftFile (catalog : DirectoryCatalog) (uuid : Uuid) : Path :=
  catalog.recordFile uuid ++ Bytes.ofText ".tmp"

theorem isName_text_append (uuid : Uuid) {ending : Bytes} (hlength : ending.length ≤ 200)
    (hslash : Path.slash ∉ ending) (hnull : 0 ∉ ending) :
    Disk.IsName (Bytes.ofText uuid.text ++ ending) := by
  have htext : ∀ b ∈ Bytes.ofText uuid.text, b ∈ Uuid.textDigits.map Char.toUInt8 := by
    intro b hb
    rw [Uuid.ofText_text] at hb
    obtain ⟨c, hc, rfl⟩ := List.mem_map.mp hb
    exact List.mem_map_of_mem (Uuid.mem_textDigits hc)
  have htextSlash : Path.slash ∉ Bytes.ofText uuid.text := mt (htext _) (by decide)
  have htextNull : 0 ∉ Bytes.ofText uuid.text := mt (htext _) (by decide)
  have hwhole : (Bytes.ofText uuid.text ++ ending).length = 36 + ending.length := by
    rw [List.length_append, Uuid.ofText_text, List.length_map, Uuid.length_text]
  constructor
  · exact List.ne_nil_of_length_pos (by omega)
  · exact fun h => by simp [h, Path.dot] at hwhole; omega
  · exact fun h => by simp [h, Path.dotDot] at hwhole; omega
  · exact List.mem_append.not.mpr (not_or.mpr ⟨htextSlash, hslash⟩)
  · exact List.mem_append.not.mpr (not_or.mpr ⟨htextNull, hnull⟩)
  · rw [hwhole, Path.maxNameLength]
    omega

theorem isName_recordName (uuid : Uuid) : Disk.IsName (recordName uuid) := by
  rw [recordName, Bytes.ofText_append]
  exact isName_text_append uuid (by decide) (by decide) (by decide)

theorem isName_draftName (uuid : Uuid) : Disk.IsName (draftName uuid) := by
  rw [draftName, recordName, Bytes.ofText_append, List.append_assoc]
  exact isName_text_append uuid (by decide) (by decide) (by decide)

theorem isEntryPath_recordFile {catalog : DirectoryCatalog} (hdir : catalog.dir ≠ "")
    (uuid : Uuid) :
    Disk.IsEntryPath (Bytes.ofText catalog.dir) (recordName uuid) (catalog.recordFile uuid) := by
  refine Disk.isEntryPath_join hdir ?_
  intro hhead
  rw [String.toList_append, List.head?_append_of_ne_nil] at hhead
  · have hmem := Uuid.mem_textDigits (List.mem_of_head? hhead)
    exact absurd hmem (by decide)
  · exact List.ne_nil_of_length_pos (by rw [Uuid.length_text]; decide)

theorem length_draftFile_le {catalog : DirectoryCatalog} (hdir : catalog.dir ≠ "") (uuid : Uuid) :
    (catalog.draftFile uuid).length ≤ (Bytes.ofText catalog.dir).length + 46 := by
  have hname : (recordName uuid).length = 41 := by
    rw [recordName, Bytes.ofText_append, List.length_append, Uuid.ofText_text, List.length_map,
      Uuid.length_text]
    rfl
  have hending : (Bytes.ofText ".tmp").length = 4 := by decide
  obtain ⟨front, hpath, hfront⟩ := isEntryPath_recordFile hdir uuid
  have hle : front.length ≤ (Bytes.ofText catalog.dir).length := by
    obtain h | h := hfront
    · rw [h]
    · rw [h, List.length_append]
      exact Nat.le_add_right _ _
  rw [draftFile, hpath]
  simp only [List.length_append, List.length_cons, hname, hending]
  omega

theorem idOfName?_eq_some_iff {name : Bytes} {id : String} :
    idOfName? name = some id ↔ name = Bytes.ofText (id ++ ".json") := by
  simp only [idOfName?, Option.bind_eq_some_iff, Text.stripEnd?_eq_some]
  constructor
  · rintro ⟨_, hname, rfl⟩
    exact (Bytes.ofText_of_toText? hname).symm
  · rintro rfl
    exact ⟨_, Bytes.toText?_ofText _, rfl⟩

theorem idOfName?_recordName (uuid : Uuid) : idOfName? (recordName uuid) = some uuid.text :=
  idOfName?_eq_some_iff.mpr rfl

theorem idOfName?_draftName (uuid : Uuid) : idOfName? (draftName uuid) = none := by
  rw [Option.eq_none_iff_forall_ne_some]
  intro id hid
  rw [idOfName?_eq_some_iff, draftName, recordName, ← Bytes.ofText_append, Bytes.ofText_inj] at hid
  have hlast := congrArg (fun text => text.toList.getLast?) hid
  simp at hlast

theorem recordName_injective : Function.Injective recordName := by
  intro a b h
  have hids := idOfName?_recordName b
  rw [← h, idOfName?_recordName] at hids
  exact Uuid.text_injective (Option.some.inj hids)

theorem recordName_ne_draftName (uuid other : Uuid) : recordName uuid ≠ draftName other := by
  intro h
  have hid := idOfName?_draftName other
  rw [← h, idOfName?_recordName] at hid
  cases hid

end Names

end DirectoryCatalog

end CatalogSync
