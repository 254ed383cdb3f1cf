import CatalogSync.Proofs.Listener.Callback
import Mathlib.Data.List.Nodup

/-!
While its store works, the map of a persistent listener mirrors what is downstream: each mapped id
is that of a live record, each live record is mapped under the key of its location, and no two of
them have the same location.
-/

namespace CatalogSync.Site

/-- Rows and live records belong together, one to one. -/
structure Mirrors (site : Site) : Prop where
  row_of_record : ∀ id location, site.record? id = some location →
    ∃ row, site.row? (correlationId location) = some row ∧ row.downstreamId = id
  record_of_row : ∀ key row, site.row? key = some row →
    correlationId row.location = key ∧ site.record? row.downstreamId = some row.location

namespace Mirrors

variable {site after : Site}

theorem empty : Site.empty.Mirrors := by
  constructor
  · intro _ _ hrecord
    cases hrecord
  · intro _ _ hrow
    cases hrow

theorem key_unique (h : site.Mirrors) {key other : String} {row row' : Correlation}
    (hrow : site.row? key = some row) (hrow' : site.row? other = some row')
    (hid : row.downstreamId = row'.downstreamId) : key = other := by
  obtain ⟨hkey, hrecord⟩ := h.record_of_row key row hrow
  obtain ⟨hother, hrecord'⟩ := h.record_of_row other row' hrow'
  rw [hid, hrecord'] at hrecord
  rw [← hkey, ← hother, Option.some.inj hrecord]

theorem exchange (h : site.Mirrors) (location : String) (row? : Option Correlation)
    (hrow : ∀ key, after.row? key =
      if key = correlationId location then row? else site.row? key)
    (hrecord : ∀ id, after.record? id =
      if some id = row?.map Correlation.downstreamId then some location
      else if some id = (site.row? (correlationId location)).map Correlation.downstreamId then none
      else site.record? id)
    (hlocation : ∀ row, row? = some row → row.location = location)
    (hid : ∀ row, row? = some row → site.record? row.downstreamId = none ∨
      some row.downstreamId =
        (site.row? (correlationId location)).map Correlation.downstreamId) : after.Mirrors := by
  refine ⟨?_, ?_⟩
  · intro id found hfound
    rw [hrecord] at hfound
    split at hfound
    · rename_i hnew
      obtain ⟨row, rfl, hdownstream⟩ := Option.map_eq_some_iff.mp hnew.symm
      cases hfound
      exact ⟨row, by rw [hrow, if_pos rfl], hdownstream⟩
    · split at hfound
      · cases hfound
      · rename_i hold
        obtain ⟨row, hfoundRow, hdownstream⟩ := h.row_of_record id found hfound
        have hkey : correlationId found ≠ correlationId location := by
          intro heq
          apply hold
          rw [← heq, hfoundRow, Option.map_some, hdownstream]
        exact ⟨row, by rw [hrow, if_neg hkey, hfoundRow], hdownstream⟩
  · intro key row hkeyRow
    rw [hrow] at hkeyRow
    split at hkeyRow
    · rename_i hkey
      refine ⟨by rw [hlocation row hkeyRow, hkey], ?_⟩
      rw [hrecord, hkeyRow, Option.map_some, if_pos rfl, hlocation row hkeyRow]
    · rename_i hkey
      obtain ⟨hrowKey, hlive⟩ := h.record_of_row key row hkeyRow
      have hold : some row.downstreamId ≠
          (site.row? (correlationId location)).map Correlation.downstreamId := by
        intro hsame
        obtain ⟨row', hrow', hdownstream⟩ := Option.map_eq_some_iff.mp hsame.symm
        exact hkey (h.key_unique hkeyRow hrow' hdownstream.symm)
      have hnew : some row.downstreamId ≠ row?.map Correlation.downstreamId := by
        intro hsame
        obtain ⟨row', hrow', hdownstream⟩ := Option.map_eq_some_iff.mp hsame.symm
        rcases hid row' hrow' with hdead | hkept
        · rw [hdownstream, hlive] at hdead
          cases hdead
        · rw [hdownstream] at hkept
          exact hold hkept
      rw [hrecord, if_neg hnew, if_neg hold]
      exact ⟨hrowKey, hlive⟩

theorem mapped (h : site.Mirrors) (location : String) {id : String} (time : Time.Timestamp)
    (hrow : ∀ key, after.row? key =
      if key = correlationId location then some ⟨id, location, time⟩ else site.row? key)
    (hrecord : ∀ other, after.record? other =
      if other = id then some location
      else if some other = (site.row? (correlationId location)).map Correlation.downstreamId then
        none
      else site.record? other)
    (hid : site.record? id = none ∨
      some id = (site.row? (correlationId location)).map Correlation.downstreamId) :
    after.Mirrors := by
  refine h.exchange location (some ⟨id, location, time⟩) hrow (fun other => ?_) ?_ ?_
  · simpa only [Option.map_some, Option.some.injEq] using hrecord other
  · rintro _ ⟨⟩
    rfl
  · rintro _ ⟨⟩
    exact hid

theorem unmapped (h : site.Mirrors) (location : String)
    (hrow : ∀ key, after.row? key =
      if key = correlationId location then none else site.row? key)
    (hrecord : ∀ other, after.record? other =
      if some other = (site.row? (correlationId location)).map Correlation.downstreamId then none
      else site.record? other) : after.Mirrors :=
  h.exchange location none hrow hrecord nofun nofun

end Mirrors

theorem record?_nextId {site : Site} (h : site.WellFormed)
    (hfresh : UuidSupply.IsFresh ⟨site.supply.issued + 1⟩) : site.record? site.nextId = none := by
  cases hrecord : site.record? site.nextId with
  | none => rfl
  | some location =>
    obtain ⟨n, hn, hid⟩ := h.issued _ location hrecord
    exact absurd hid.symm (hfresh n site.supply.issued hn (Nat.lt_succ_self _))

/-- A schedule that lets every write succeed. -/
def never : Nat → Bool := fun _ => false

theorem row?_write_never (site : Site) (key : String) {wanted : Option Correlation}
    (htime : ∀ row, wanted = some row → row.recordedAt.IsValid) (other : String) :
    (site.write never key wanted).2.row? other =
      if other = key then wanted else site.row? other := by
  rw [row?_write never site key htime]
  simp [never]

/-- No callback breaks the mirror, as long as ids are fresh and the store works. -/
theorem mirrors_of_callback {site : Site} {location : String} {kind : ChangeKind}
    {answer : Outcome ListenerError Unit × Site} (hsite : site.WellFormed) (h : site.Mirrors)
    (hstep : Callback never site location kind answer) (hfresh : answer.2.supply.IsFresh) :
    answer.2.Mirrors := by
  cases hstep with
  | known | unknown => exact h
  | refusedCreate | refusedUpdate | refusedDelete => exact ⟨h.row_of_record, h.record_of_row⟩
  | created time htime hrow hbehavior =>
    rw [supply_write] at hfresh
    refine h.mapped location time (fun key => ?_) (fun id => ?_)
      (Or.inl (record?_nextId hsite hfresh))
    · rw [row?_write_never _ _ (isValid_of_some htime), row?_issue, row?_note]
    · rw [record?_write, record?_issue, record?_note, hrow]
      rfl
  | updated row time htime hrow hlive hbehavior hstays =>
    refine h.mapped location time (fun key => ?_) (fun id => ?_) (Or.inr (by rw [hrow]; rfl))
    · rw [row?_write_never _ _ (isValid_of_some htime), row?_put, row?_note]
    · rw [record?_write, record?_put, record?_note, hrow]
      simp only [Option.map_some, Option.some.injEq]
      split
      · rfl
      · rfl
  | reissued row time htime hrow hlive hbehavior =>
    rw [supply_write] at hfresh
    refine h.mapped location time (fun key => ?_) (fun id => ?_)
      (Or.inl (record?_nextId hsite hfresh))
    · rw [row?_write_never _ _ (isValid_of_some htime), row?_issue, row?_drop, row?_note]
    · rw [record?_write, record?_issue, record?_drop, record?_note, hrow]
      simp only [Option.map_some, Option.some.injEq]
      rfl
  | deleted row hrow hlive hbehavior =>
    refine h.unmapped location (fun key => ?_) (fun id => ?_)
    · rw [row?_write_never _ _ isValid_of_none, row?_drop, row?_note]
    · rw [record?_write, record?_drop, record?_note, hrow]
      simp only [Option.map_some, Option.some.injEq]

section Runs

variable (clock : Site → Time.Timestamp)

/-- What a site can go through: calls of its listener, in any order and about anything, and changes
of what the adapter does. -/
inductive Act where
  | call (kind : ChangeKind) (resource : Resource) (content : Accessor Site)
  | behave (behavior : AdapterBehavior)

def perform (site : Site) : Act → Site
  | .call kind resource content => (handle never clock kind resource content site).2
  | .behave behavior => { site with adapter := { site.adapter with behavior := behavior } }

def reach (acts : List Act) : Site :=
  acts.foldl (perform clock) .empty

/-- The listener finds an id under a key of its map. -/
def Maps (site : Site) (key id : String) : Prop :=
  (listener never clock).downstreamId key site = (.ok (some id), site)

/-- The map and the adapter agree, as far as can be told by asking the listener and looking at the
live records. -/
structure Mirrored (site : Site) : Prop where
  answers : ∀ key, ∃ id?, (listener never clock).downstreamId key site = (.ok id?, site)
  live : ∀ key id, Maps clock site key id → site.record? id ≠ none
  injective : ∀ key other id, Maps clock site key id → Maps clock site other id → key = other
  surjective : ∀ id, site.record? id ≠ none → ∃ key, Maps clock site key id
  rows : ∀ key row, (listener never clock).find? key site = (.ok (some row), site) →
    correlationId row.location = key ∧ site.record? row.downstreamId = some row.location
  count : (listener never clock).mappedCount site = (.ok site.adapter.records.size, site)
  single : ∀ id other location, site.record? id = some location →
    site.record? other = some location → id = other

end Runs

variable {clock : Site → Time.Timestamp}

theorem wellFormed_perform (hclock : ∀ site, (clock site).IsValid) {site : Site}
    (hsite : site.WellFormed) (act : Act) : (perform clock site act).WellFormed := by
  cases act with
  | call kind resource content =>
    exact wellFormed_of_callback hsite (callback_handle hclock hsite kind resource content)
  | behave behavior => exact ⟨hsite.readable, hsite.issued⟩

theorem issued_le_perform (hclock : ∀ site, (clock site).IsValid) {site : Site}
    (hsite : site.WellFormed) (act : Act) :
    site.supply.issued ≤ (perform clock site act).supply.issued := by
  cases act with
  | call kind resource content =>
    exact issued_le_of_callback (callback_handle hclock hsite kind resource content)
  | behave behavior => exact Nat.le_refl _

theorem mirrors_perform (hclock : ∀ site, (clock site).IsValid) {site : Site}
    (hsite : site.WellFormed) (h : site.Mirrors) (act : Act)
    (hfresh : (perform clock site act).supply.IsFresh) : (perform clock site act).Mirrors := by
  cases act with
  | call kind resource content =>
    exact mirrors_of_callback hsite h (callback_handle hclock hsite kind resource content) hfresh
  | behave behavior => exact ⟨h.row_of_record, h.record_of_row⟩

theorem issued_le_foldl (hclock : ∀ site, (clock site).IsValid) (acts : List Act) {site : Site}
    (hsite : site.WellFormed) :
    site.supply.issued ≤ (acts.foldl (perform clock) site).supply.issued := by
  induction acts generalizing site with
  | nil => exact Nat.le_refl _
  | cons act acts ih =>
    exact Nat.le_trans (issued_le_perform hclock hsite act)
      (ih (wellFormed_perform hclock hsite act))

theorem mirrors_foldl (hclock : ∀ site, (clock site).IsValid) (acts : List Act) {site : Site}
    (hsite : site.WellFormed) (h : site.Mirrors)
    (hfresh : (acts.foldl (perform clock) site).supply.IsFresh) :
    (acts.foldl (perform clock) site).WellFormed ∧ (acts.foldl (perform clock) site).Mirrors := by
  induction acts generalizing site with
  | nil => exact ⟨hsite, h⟩
  | cons act acts ih =>
    have hnext := wellFormed_perform hclock hsite act
    have hissued := issued_le_foldl hclock acts hnext
    exact ih hnext (mirrors_perform hclock hsite h act (hfresh.mono hissued)) hfresh

theorem downstreamId_listener {site : Site} (hsite : site.WellFormed) (key : String) :
    (listener never clock).downstreamId key site =
      (.ok ((site.row? key).map Correlation.downstreamId), site) := by
  have hfind : (listener never clock).find? key site = _ := find?_listener hsite key
  simp only [PersistentListener.downstreamId, bind, StateT.bind, hfind]
  rfl

theorem maps_iff {site : Site} (hsite : site.WellFormed) (key id : String) :
    Maps clock site key id ↔ ∃ row, site.row? key = some row ∧ row.downstreamId = id := by
  rw [Maps, downstreamId_listener hsite, Prod.mk.injEq, Except.ok.injEq, Option.map_eq_some_iff]
  exact and_iff_left rfl

theorem mem_keys_iff {site : Site} (hsite : site.WellFormed) (key : String) :
    key ∈ site.mappings.memory.blobs.keys ↔ ∃ row, site.row? key = some row := by
  rw [Table.mem_keys_iff, row?]
  constructor
  · rintro ⟨blob, hblob⟩
    obtain ⟨row, hrow⟩ := hsite.readable key blob hblob
    exact ⟨row, by rw [hblob, Option.bind_some, hrow]⟩
  · rintro ⟨row, hrow⟩
    obtain ⟨blob, hblob, -⟩ := Option.bind_eq_some_iff.mp hrow
    exact ⟨blob, hblob⟩

theorem length_keys_eq_size {site : Site} (hsite : site.WellFormed) (h : site.Mirrors) :
    site.mappings.memory.blobs.keys.length = site.adapter.records.size := by
  -- An id that no row has stands in for keys that are not mapped; it is never looked at.
  let idOf : String → String := fun key => ((site.row? key).map Correlation.downstreamId).getD ""
  have hidOf : ∀ key row, site.row? key = some row → idOf key = row.downstreamId := by
    intro key row hrow
    simp only [idOf, hrow, Option.map_some, Option.getD_some]
  have hnodup : (site.mappings.memory.blobs.keys.map idOf).Nodup := by
    refine List.Nodup.map_on ?_ (Table.nodup_keys _)
    intro key hkey other hother hsame
    obtain ⟨row, hrow⟩ := (mem_keys_iff hsite key).mp hkey
    obtain ⟨row', hrow'⟩ := (mem_keys_iff hsite other).mp hother
    rw [hidOf key row hrow, hidOf other row' hrow'] at hsame
    exact h.key_unique hrow hrow' hsame
  have hperm : (site.mappings.memory.blobs.keys.map idOf).Perm site.adapter.records.keys := by
    refine (List.perm_ext_iff_of_nodup hnodup (Table.nodup_keys _)).mpr fun id => ?_
    rw [List.mem_map, Table.mem_keys_iff]
    constructor
    · rintro ⟨key, hkey, rfl⟩
      obtain ⟨row, hrow⟩ := (mem_keys_iff hsite key).mp hkey
      rw [hidOf key row hrow]
      exact ⟨row.location, (h.record_of_row key row hrow).2⟩
    · rintro ⟨location, hlive⟩
      obtain ⟨row, hrow, rfl⟩ := h.row_of_record id location hlive
      exact ⟨correlationId location, (mem_keys_iff hsite _).mpr ⟨row, hrow⟩, hidOf _ row hrow⟩
  rw [← Table.length_keys, ← hperm.length_eq, List.length_map]

theorem mirrored_of_mirrors {site : Site} (hsite : site.WellFormed) (h : site.Mirrors) :
    Mirrored clock site := by
  refine ⟨?_, ?_, ?_, ?_, ?_, ?_, ?_⟩
  · intro key
    exact ⟨_, downstreamId_listener hsite key⟩
  · intro key id hmaps
    obtain ⟨row, hrow, rfl⟩ := (maps_iff hsite key id).mp hmaps
    rw [(h.record_of_row key row hrow).2]
    exact Option.some_ne_none _
  · intro key other id hmaps hmaps'
    obtain ⟨row, hrow, hid⟩ := (maps_iff hsite key id).mp hmaps
    obtain ⟨row', hrow', hid'⟩ := (maps_iff hsite other id).mp hmaps'
    exact h.key_unique hrow hrow' (hid.trans hid'.symm)
  · intro id hlive
    obtain ⟨location, hrecord⟩ := Option.ne_none_iff_exists'.mp hlive
    obtain ⟨row, hrow, hid⟩ := h.row_of_record id location hrecord
    exact ⟨correlationId location, (maps_iff hsite _ id).mpr ⟨row, hrow, hid⟩⟩
  · intro key row hfind
    rw [find?_listener hsite, Prod.mk.injEq, Except.ok.injEq] at hfind
    exact h.record_of_row key row hfind.1
  · have hkeys : (listener never clock).mappedCount site =
        (.ok site.mappings.memory.blobs.keys.length, site) := rfl
    rw [hkeys, length_keys_eq_size hsite h]
  · intro id other location hrecord hrecord'
    obtain ⟨row, hrow, rfl⟩ := h.row_of_record id location hrecord
    obtain ⟨row', hrow', rfl⟩ := h.row_of_record other location hrecord'
    rw [hrow] at hrow'
    rw [Option.some.inj hrow']

/-- In every site that can be reached with fresh ids the map mirrors what is downstream. -/
theorem map_mirrors_live_records (clock : Site → Time.Timestamp)
    (hclock : ∀ site, (clock site).IsValid) (acts : List Act)
    (hfresh : (reach clock acts).supply.IsFresh) : Mirrored clock (reach clock acts) := by
  obtain ⟨hsite, h⟩ := mirrors_foldl hclock acts WellFormed.empty Mirrors.empty hfresh
  exact mirrored_of_mirrors hsite h

/-- Two resources are created. Then an update of the first one fails, and the second one is
deleted. -/
def leftWithOne : List Act :=
  [.call .created ⟨"r/a", Table.empty⟩ (.unavailable "r/a"),
    .call .created ⟨"r/b", Table.empty⟩ (.unavailable "r/b"), .behave .failUpdate,
    .call .modified ⟨"r/a", Table.empty⟩ (.unavailable "r/a"),
    .call .deleted ⟨"r/b", Table.empty⟩ (.unavailable "r/b")]

theorem leftWithOne_mirrored :
    (reach stopped leftWithOne).supply.issued = 2 ∧
      (reach stopped leftWithOne).adapter.calls.length = 4 ∧
      (reach stopped leftWithOne).adapter.records.entries.map Prod.snd = ["r/a"] ∧
      Mirrored stopped (reach stopped leftWithOne) := by
  have hrun : (reach stopped leftWithOne).supply.issued = 2 ∧
      (reach stopped leftWithOne).adapter.calls.length = 4 ∧
      (reach stopped leftWithOne).adapter.records.entries.map Prod.snd = ["r/a"] := by
    decide +kernel
  obtain ⟨hissued, hcalls, hrecords⟩ := hrun
  refine ⟨hissued, hcalls, hrecords, ?_⟩
  refine map_mirrors_live_records stopped isValid_stopped leftWithOne (UuidSupply.isFresh_of_le ?_)
  rw [hissued]
  decide

end CatalogSync.Site
