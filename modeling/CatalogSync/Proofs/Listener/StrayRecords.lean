import CatalogSync.Proofs.Listener.LostWrites
import CatalogSync.Proofs.Listener.Mirror

/-!
Which live records nobody knows of. A record that was issued while its mapping was lost stays for
good, and no row ever leads to it; every other live record is the one that the row of its location
names.
-/

namespace CatalogSync

/-- The row that was lost, if it was to map its key to an id that the key was not mapped to. -/
def LostWrite.stray? (write : LostWrite) : Option Correlation :=
  (write.wanted.bind Correlation.decode?).filter fun wanted =>
    (write.before.bind Correlation.decode?).map Correlation.downstreamId ≠
      some wanted.downstreamId

namespace Site

/-- The lost rows that would have led to a new record. -/
def strays (site : Site) : List Correlation :=
  site.mappings.lost.filterMap LostWrite.stray?

/-- The id is that in the row of the location. -/
def IsMapped (site : Site) (id location : String) : Prop :=
  ∃ row, site.row? (correlationId location) = some row ∧ row.downstreamId = id

/-- The live records at a location. -/
def recordsAt (site : Site) (location : String) : List String :=
  (site.adapter.records.entries.filter fun entry => entry.2 = location).map Prod.fst

def mappedAt (site : Site) (location : String) : List String :=
  (((site.row? (correlationId location)).map Correlation.downstreamId).filter fun id =>
    site.record? id = some location).toList

def straysAt (site : Site) (location : String) : List String :=
  (site.strays.filter fun row => row.location = location).map Correlation.downstreamId

/-- The row that is to be written, if it is to lead the location to another record than before. -/
def diverting? (site : Site) (location : String) (wanted : Option Correlation) :
    Option Correlation :=
  wanted.filter fun row =>
    (site.row? (correlationId location)).map Correlation.downstreamId ≠ some row.downstreamId

/-- A live record is either mapped or a stray, and each stray is a live record of its own. -/
structure Inventory (site : Site) : Prop where
  live : ∀ row ∈ site.strays, site.record? row.downstreamId = some row.location
  distinct : (site.strays.map Correlation.downstreamId).Nodup
  unmapped : ∀ row ∈ site.strays, ∀ key other, site.row? key = some other →
    other.downstreamId ≠ row.downstreamId
  key : ∀ key row location, site.row? key = some row →
    site.record? row.downstreamId = some location → correlationId location = key
  found : ∀ id location, site.record? id = some location → site.IsMapped id location ∨
    ∃ row ∈ site.strays, row.downstreamId = id

/-- The adapter has given the record of a location up and another one, which may be the same, in
exchange for it. -/
structure Exchanges (site middle : Site) (location : String) (wanted : Option Correlation) :
    Prop where
  mappings : middle.mappings = site.mappings
  record : ∀ id, middle.record? id =
    if some id = wanted.map Correlation.downstreamId then some location
    else if some id = (site.row? (correlationId location)).map Correlation.downstreamId then none
    else site.record? id
  valid : ∀ row, wanted = some row → row.recordedAt.IsValid
  located : ∀ row, wanted = some row → row.location = location
  known : ∀ row, wanted = some row → row.downstreamId = site.nextId ∧
      middle.supply.issued = site.supply.issued + 1 ∨
    some row.downstreamId =
      (site.row? (correlationId location)).map Correlation.downstreamId

variable {fails : Nat → Bool} {site middle after : Site} {location : String}
  {wanted : Option Correlation}

theorem exchanges_created {time : Time.Timestamp} (htime : time.IsValid)
    (hrow : site.row? (correlationId location) = none) :
    Exchanges site ((site.note (.create location)).issue location) location
      (some ⟨site.nextId, location, time⟩) := by
  refine ⟨rfl, ?_, isValid_of_some htime, ?_, ?_⟩
  · intro id
    rw [record?_issue, record?_note, hrow]
    simp only [Option.map_some, Option.map_none, Option.some.injEq, reduceCtorEq, if_false]
    rfl
  · rintro _ ⟨⟩
    rfl
  · rintro _ ⟨⟩
    exact Or.inl ⟨rfl, rfl⟩

theorem exchanges_updated {row : Correlation} {time : Time.Timestamp} (htime : time.IsValid)
    (hrow : site.row? (correlationId location) = some row) :
    Exchanges site ((site.note (.update location row.downstreamId)).put row.downstreamId location)
      location (some ⟨row.downstreamId, location, time⟩) := by
  refine ⟨rfl, ?_, isValid_of_some htime, ?_, ?_⟩
  · intro id
    rw [record?_put, record?_note, hrow]
    simp only [Option.map_some, Option.some.injEq]
    split
    · rfl
    · rfl
  · rintro _ ⟨⟩
    rfl
  · rintro _ ⟨⟩
    rw [hrow]
    exact Or.inr rfl

theorem exchanges_reissued {row : Correlation} {time : Time.Timestamp} (htime : time.IsValid)
    (hrow : site.row? (correlationId location) = some row) :
    Exchanges site
      (((site.note (.update location row.downstreamId)).drop row.downstreamId).issue location)
      location (some ⟨site.nextId, location, time⟩) := by
  refine ⟨rfl, ?_, isValid_of_some htime, ?_, ?_⟩
  · intro id
    rw [record?_issue, record?_drop, record?_note, hrow]
    simp only [Option.map_some, Option.some.injEq]
    rfl
  · rintro _ ⟨⟩
    rfl
  · rintro _ ⟨⟩
    exact Or.inl ⟨rfl, rfl⟩

theorem exchanges_deleted {row : Correlation}
    (hrow : site.row? (correlationId location) = some row) :
    Exchanges site ((site.note (.delete row.downstreamId)).drop row.downstreamId) location
      none := by
  refine ⟨rfl, ?_, isValid_of_none, ?_, ?_⟩
  · intro id
    rw [record?_drop, record?_note, hrow]
    simp only [Option.map_some, Option.map_none, Option.some.injEq, reduceCtorEq, if_false]
  · intro _ hnone
    cases hnone
  · intro _ hnone
    cases hnone

/-- A call changes nothing but the log of the adapter, or it exchanges the record of its location
and writes the row of the location. -/
theorem exchanges_of_callback {kind : ChangeKind} {answer : Outcome ListenerError Unit × Site}
    (hstep : Callback fails site location kind answer) :
    answer.2 = site ∨ (∃ call, answer.2 = site.note call) ∨
      ∃ middle wanted, Exchanges site middle location wanted ∧
        answer = middle.write fails (correlationId location) wanted := by
  cases hstep with
  | known | unknown => exact Or.inl rfl
  | refusedCreate | refusedUpdate | refusedDelete => exact Or.inr (Or.inl ⟨_, rfl⟩)
  | created time htime hrow =>
    exact Or.inr (Or.inr ⟨_, _, exchanges_created htime hrow, rfl⟩)
  | updated row time htime hrow =>
    exact Or.inr (Or.inr ⟨_, _, exchanges_updated htime hrow, rfl⟩)
  | reissued row time htime hrow =>
    exact Or.inr (Or.inr ⟨_, _, exchanges_reissued htime hrow, rfl⟩)
  | deleted row hrow => exact Or.inr (Or.inr ⟨_, _, exchanges_deleted hrow, rfl⟩)

theorem stray?_lost (hvalid : ∀ row, wanted = some row → row.recordedAt.IsValid) :
    LostWrite.stray? ⟨correlationId location,
      site.mappings.memory.blobs.get? (correlationId location), wanted.map Correlation.encode⟩ =
        site.diverting? location wanted := by
  have hwanted : (wanted.map Correlation.encode).bind Correlation.decode? = wanted := by
    cases wanted with
    | none => rfl
    | some row => exact Correlation.decode?_encode (hvalid row rfl)
  rw [LostWrite.stray?, hwanted, diverting?, row?]

theorem strays_lose (h : Exchanges site middle location wanted)
    (hfails : fails middle.mappings.writes = true) :
    (middle.write fails (correlationId location) wanted).2.strays =
      site.strays ++ (site.diverting? location wanted).toList := by
  rw [strays, lost_write, if_pos hfails, h.mappings, List.filterMap_append, strays,
    ← stray?_lost h.valid]
  refine congrArg (List.filterMap LostWrite.stray? site.mappings.lost ++ ·) ?_
  rw [List.filterMap_cons]
  cases LostWrite.stray? _ <;> rfl

theorem strays_replace (h : Exchanges site middle location wanted)
    (hfails : fails middle.mappings.writes = false) :
    (middle.write fails (correlationId location) wanted).2.strays = site.strays := by
  rw [strays, lost_write, hfails, h.mappings, strays]
  rfl

theorem Exchanges.row? (h : Exchanges site middle location wanted) (key : String) :
    middle.row? key = site.row? key := by
  rw [Site.row?, h.mappings, Site.row?]

theorem Exchanges.row?_lose (h : Exchanges site middle location wanted)
    (hfails : fails middle.mappings.writes = true) (key : String) :
    (middle.write fails (correlationId location) wanted).2.row? key = site.row? key := by
  rw [row?_write fails middle _ h.valid, hfails, h.row?]
  simp

theorem Exchanges.row?_replace (h : Exchanges site middle location wanted)
    (hfails : fails middle.mappings.writes = false) (key : String) :
    (middle.write fails (correlationId location) wanted).2.row? key =
      if key = correlationId location then wanted else site.row? key := by
  rw [row?_write fails middle _ h.valid, hfails, h.row?]
  simp

theorem Exchanges.diverting (h : Exchanges site middle location wanted)
    (hfresh : middle.supply.IsFresh) {row : Correlation}
    (hrow : site.diverting? location wanted = some row) :
    wanted = some row ∧ row.downstreamId = site.nextId ∧
      UuidSupply.IsFresh ⟨site.supply.issued + 1⟩ := by
  obtain ⟨hwanted, hother⟩ := Option.filter_eq_some_iff.mp hrow
  rcases h.known row hwanted with ⟨hnext, hissued⟩ | hold
  · exact ⟨hwanted, hnext, hfresh.mono (Nat.le_of_eq hissued.symm)⟩
  · exact absurd hold.symm (of_decide_eq_true hother)

theorem Exchanges.record?_of_ne (h : Exchanges site middle location wanted) {id : String}
    (hnew : some id ≠ wanted.map Correlation.downstreamId)
    (hold : some id ≠ (site.row? (correlationId location)).map Correlation.downstreamId) :
    middle.record? id = site.record? id := by
  rw [h.record, if_neg hnew, if_neg hold]

theorem Exchanges.record?_wanted (h : Exchanges site middle location wanted) {row : Correlation}
    (hwanted : wanted = some row) : middle.record? row.downstreamId = some location := by
  rw [h.record, if_pos (by rw [hwanted, Option.map_some])]

section Kept

variable (hsite : site.WellFormed) (haccounts : site.Accounts) (hinventory : site.Inventory)
  (h : Exchanges site middle location wanted) (hfresh : middle.supply.IsFresh)

include hsite hinventory in
theorem ne_nextId_of_stray (hissued : UuidSupply.IsFresh ⟨site.supply.issued + 1⟩)
    {row : Correlation} (hrow : row ∈ site.strays) : row.downstreamId ≠ site.nextId := by
  intro hsame
  have hlive := hinventory.live row hrow
  rw [hsame, record?_nextId hsite hissued] at hlive
  cases hlive

include hsite hinventory h hfresh in
theorem Exchanges.stray_ne {row row' : Correlation} (hrow : row ∈ site.strays)
    (hwanted : wanted = some row') : row'.downstreamId ≠ row.downstreamId := by
  intro hsame
  rcases h.known row' hwanted with ⟨hnext, hissued⟩ | hold
  · have hfresh' : UuidSupply.IsFresh ⟨site.supply.issued + 1⟩ :=
      hfresh.mono (Nat.le_of_eq hissued.symm)
    exact ne_nextId_of_stray hsite hinventory hfresh' hrow (hsame.symm.trans hnext)
  · obtain ⟨own, hown, hid⟩ := Option.map_eq_some_iff.mp hold.symm
    exact hinventory.unmapped row hrow _ own hown (hid.trans hsame)

include hsite hinventory h hfresh in
theorem Exchanges.record?_stray {row : Correlation} (hrow : row ∈ site.strays) :
    middle.record? row.downstreamId = some row.location := by
  rw [h.record?_of_ne, hinventory.live row hrow]
  · intro hsame
    obtain ⟨row', hwanted, hid⟩ := Option.map_eq_some_iff.mp hsame.symm
    exact h.stray_ne hsite hinventory hfresh hrow hwanted hid
  · intro hsame
    obtain ⟨own, hown, hid⟩ := Option.map_eq_some_iff.mp hsame.symm
    exact hinventory.unmapped row hrow _ own hown hid

include haccounts h hfresh in
theorem Exchanges.record?_other {key : String} {row : Correlation}
    (hkey : key ≠ correlationId location) (hrow : site.row? key = some row) :
    middle.record? row.downstreamId = site.record? row.downstreamId := by
  have hold : some row.downstreamId ≠
      (site.row? (correlationId location)).map Correlation.downstreamId := by
    intro hsame
    obtain ⟨own, hown, hid⟩ := Option.map_eq_some_iff.mp hsame.symm
    exact hkey (haccounts.unique _ _ row own hrow hown hid.symm)
  refine h.record?_of_ne ?_ hold
  intro hsame
  obtain ⟨row', hwanted, hid⟩ := Option.map_eq_some_iff.mp hsame.symm
  rcases h.known row' hwanted with ⟨hnext, hissued⟩ | hown
  · have hfresh' : UuidSupply.IsFresh ⟨site.supply.issued + 1⟩ :=
      hfresh.mono (Nat.le_of_eq hissued.symm)
    exact ne_nextId haccounts hfresh' hrow (hid.symm.trans hnext)
  · exact hold (hid ▸ hown)

include hsite hinventory h hfresh in
theorem Exchanges.nodup_strays :
    ((site.strays ++ (site.diverting? location wanted).toList).map
      Correlation.downstreamId).Nodup := by
  rw [List.map_append, List.nodup_append]
  refine ⟨hinventory.distinct, ?_, ?_⟩
  · cases site.diverting? location wanted with
    | none => exact List.nodup_nil
    | some row => exact List.nodup_singleton _
  · rintro _ hstray _ hlost rfl
    obtain ⟨row, hmem, hid⟩ := List.mem_map.mp hstray
    obtain ⟨row', hmem', hid'⟩ := List.mem_map.mp hlost
    obtain ⟨-, hnext, hissued⟩ := h.diverting hfresh (Option.mem_toList.mp hmem')
    exact ne_nextId_of_stray hsite hinventory hissued hmem (hid.trans (hid'.symm.trans hnext))

include h in
/-- The row of the location still names the record that has been given up, unless the adapter has
kept its id. -/
theorem Exchanges.eq_location {row : Correlation} {found : String}
    (hrow : site.row? (correlationId location) = some row)
    (hfound : middle.record? row.downstreamId = some found) : found = location := by
  rw [h.record, hrow] at hfound
  split at hfound
  · cases hfound
    rfl
  · rw [Option.map_some, if_pos rfl] at hfound
    cases hfound

include hinventory h in
theorem Exchanges.mapped_or_stray {id found : String} (hfound : middle.record? id = some found) :
    site.IsMapped id found ∨
      ∃ row ∈ site.strays ++ (site.diverting? location wanted).toList, row.downstreamId = id := by
  rw [h.record] at hfound
  split at hfound
  · rename_i hid
    cases hfound
    obtain ⟨row, hwanted, rfl⟩ := Option.map_eq_some_iff.mp hid.symm
    by_cases hold : (site.row? (correlationId location)).map Correlation.downstreamId =
        some row.downstreamId
    · exact Or.inl (Option.map_eq_some_iff.mp hold)
    · refine Or.inr ⟨row, List.mem_append_right _ (Option.mem_toList.mpr ?_), rfl⟩
      exact Option.filter_eq_some_iff.mpr ⟨hwanted, decide_eq_true hold⟩
  · split at hfound
    · cases hfound
    · rcases hinventory.found id found hfound with hmapped | ⟨row, hmem, hid⟩
      · exact Or.inl hmapped
      · exact Or.inr ⟨row, List.mem_append_left _ hmem, hid⟩

include hsite haccounts hinventory h hfresh in
theorem inventory_of_lost (hfails : fails middle.mappings.writes = true) :
    (middle.write fails (correlationId location) wanted).2.Inventory := by
  have hstrays := strays_lose h hfails
  have hrow := h.row?_lose hfails
  refine ⟨?_, hstrays ▸ h.nodup_strays hsite hinventory hfresh, ?_, ?_, ?_⟩
  · intro row hmem
    rw [hstrays, List.mem_append, Option.mem_toList] at hmem
    rw [record?_write]
    rcases hmem with hmem | hmem
    · exact h.record?_stray hsite hinventory hfresh hmem
    · obtain ⟨hwanted, -, -⟩ := h.diverting hfresh hmem
      rw [h.record?_wanted hwanted, h.located row hwanted]
  · intro row hmem key other hother
    rw [hstrays, List.mem_append, Option.mem_toList] at hmem
    rw [hrow] at hother
    rcases hmem with hmem | hmem
    · exact hinventory.unmapped row hmem key other hother
    · obtain ⟨-, hnext, hissued⟩ := h.diverting hfresh hmem
      rw [hnext]
      exact ne_nextId haccounts hissued hother
  · intro key row found hkey hfound
    rw [hrow] at hkey
    rw [record?_write] at hfound
    by_cases hown : key = correlationId location
    · subst hown
      rw [h.eq_location hkey hfound]
    · rw [h.record?_other haccounts hfresh hown hkey] at hfound
      exact hinventory.key key row found hkey hfound
  · intro id found hfound
    rw [record?_write] at hfound
    rw [IsMapped, hrow, hstrays]
    exact h.mapped_or_stray hinventory hfound

include hsite haccounts hinventory h hfresh in
theorem inventory_of_written (hfails : fails middle.mappings.writes = false) :
    (middle.write fails (correlationId location) wanted).2.Inventory := by
  have hrow := h.row?_replace hfails
  have hstrays := strays_replace h hfails
  refine ⟨?_, ?_, ?_, ?_, ?_⟩
  · intro row hmem
    rw [hstrays] at hmem
    rw [record?_write]
    exact h.record?_stray hsite hinventory hfresh hmem
  · rw [hstrays]
    exact hinventory.distinct
  · intro row hmem key other hother
    rw [hstrays] at hmem
    rw [hrow] at hother
    split at hother
    · exact h.stray_ne hsite hinventory hfresh hmem hother
    · exact hinventory.unmapped row hmem key other hother
  · intro key row found hkey hfound
    rw [hrow] at hkey
    rw [record?_write] at hfound
    split at hkey
    · rename_i hown
      rw [h.record?_wanted hkey] at hfound
      cases hfound
      exact hown.symm
    · rename_i hown
      rw [h.record?_other haccounts hfresh hown hkey] at hfound
      exact hinventory.key key row found hkey hfound
  · intro id found hfound
    rw [record?_write, h.record] at hfound
    rw [IsMapped, hrow, hstrays]
    split at hfound
    · rename_i hid
      cases hfound
      obtain ⟨row, hwanted, rfl⟩ := Option.map_eq_some_iff.mp hid.symm
      exact Or.inl ⟨row, by rw [if_pos rfl, hwanted], rfl⟩
    · split at hfound
      · cases hfound
      · rename_i hold
        rcases hinventory.found id found hfound with ⟨row, hmapped, rfl⟩ | hstray
        · refine Or.inl ⟨row, ?_, rfl⟩
          rw [if_neg, hmapped]
          intro hown
          rw [← hown, hmapped, Option.map_some] at hold
          exact hold rfl
        · exact Or.inr hstray

end Kept

theorem inventory_of_callback {kind : ChangeKind} {answer : Outcome ListenerError Unit × Site}
    (hsite : site.WellFormed) (haccounts : site.Accounts) (hinventory : site.Inventory)
    (hstep : Callback fails site location kind answer) (hfresh : answer.2.supply.IsFresh) :
    answer.2.Inventory := by
  rcases exchanges_of_callback hstep with hsame | ⟨call, hsame⟩ | ⟨middle, wanted, h, rfl⟩
  · rw [hsame]
    exact hinventory
  · rw [hsame]
    exact ⟨hinventory.live, hinventory.distinct, hinventory.unmapped, hinventory.key,
      hinventory.found⟩
  · rw [supply_write] at hfresh
    cases hfails : fails middle.mappings.writes with
    | true => exact inventory_of_lost hsite haccounts hinventory h hfresh hfails
    | false => exact inventory_of_written hsite haccounts hinventory h hfresh hfails

theorem inventory_empty : Site.empty.Inventory := by
  refine ⟨?_, List.nodup_nil, ?_, ?_, ?_⟩
  · intro _ hstray
    cases hstray
  · intro _ hstray
    cases hstray
  · intro _ _ _ hrow
    cases hrow
  · intro _ _ hrecord
    cases hrecord

section Copies

theorem mem_recordsAt_iff (site : Site) (location id : String) :
    id ∈ site.recordsAt location ↔ site.record? id = some location := by
  simp only [recordsAt, List.mem_map, List.mem_filter, decide_eq_true_eq, record?,
    Table.get?_eq_some_iff]
  constructor
  · rintro ⟨⟨_, _⟩, ⟨hentry, rfl⟩, rfl⟩
    exact hentry
  · intro hentry
    exact ⟨(id, location), ⟨hentry, rfl⟩, rfl⟩

theorem nodup_recordsAt (site : Site) (location : String) : (site.recordsAt location).Nodup :=
  List.Nodup.sublist (List.filter_sublist.map Prod.fst) (Table.nodup_keys site.adapter.records)

theorem mem_mappedAt_iff (site : Site) (location id : String) :
    id ∈ site.mappedAt location ↔ site.IsMapped id location ∧ site.record? id = some location := by
  rw [mappedAt, Option.mem_toList, Option.filter_eq_some_iff, Option.map_eq_some_iff,
    decide_eq_true_eq, IsMapped]

/-- The live records at a location are the one that is mapped, if there is one, and the strays. -/
theorem Inventory.recordsAt_perm (h : site.Inventory) (location : String) :
    (site.recordsAt location).Perm (site.mappedAt location ++ site.straysAt location) := by
  have hnodup : (site.mappedAt location ++ site.straysAt location).Nodup := by
    refine List.nodup_append.mpr ⟨?_, h.distinct.sublist (List.filter_sublist.map _), ?_⟩
    · rw [mappedAt]
      cases Option.filter _ _ with
      | none => exact List.nodup_nil
      | some id => exact List.nodup_singleton id
    · rintro id hmapped _ hstray rfl
      obtain ⟨⟨row, hrow, hid⟩, -⟩ := (mem_mappedAt_iff site location id).mp hmapped
      obtain ⟨row', hmem, hid'⟩ := List.mem_map.mp hstray
      exact h.unmapped row' (List.mem_filter.mp hmem).1 _ row hrow (hid.trans hid'.symm)
  refine (List.perm_ext_iff_of_nodup (nodup_recordsAt site location) hnodup).mpr fun id => ?_
  rw [List.mem_append, mem_recordsAt_iff, mem_mappedAt_iff]
  constructor
  · intro hlive
    rcases h.found id location hlive with hmapped | ⟨row, hmem, rfl⟩
    · exact Or.inl ⟨hmapped, hlive⟩
    · rw [h.live row hmem, Option.some.injEq] at hlive
      exact Or.inr (List.mem_map_of_mem (List.mem_filter.mpr ⟨hmem, decide_eq_true hlive⟩))
  · rintro (⟨-, hlive⟩ | hstray)
    · exact hlive
    · obtain ⟨row, hmem, rfl⟩ := List.mem_map.mp hstray
      obtain ⟨hmem, hlocation⟩ := List.mem_filter.mp hmem
      rw [h.live row hmem, of_decide_eq_true hlocation]

theorem Inventory.all_mapped_iff (h : site.Inventory) :
    (∀ id location, site.record? id = some location → site.IsMapped id location) ↔
      site.strays = [] := by
  constructor
  · intro hmapped
    refine List.eq_nil_iff_forall_not_mem.mpr fun row hmem => ?_
    obtain ⟨other, hother, hid⟩ := hmapped _ _ (h.live row hmem)
    exact h.unmapped row hmem _ other hother hid
  · intro hnone id location hlive
    rcases h.found id location hlive with hmapped | ⟨row, hmem, -⟩
    · exact hmapped
    · rw [hnone] at hmem
      cases hmem

end Copies

end Site

end CatalogSync
