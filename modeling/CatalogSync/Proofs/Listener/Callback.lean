import CatalogSync.Proofs.Listener.Site
import CatalogSync.Proofs.Uuid

namespace CatalogSync.Site

/-- The map holds nothing but rows, and the ids of live records have been issued. -/
structure WellFormed (site : Site) : Prop where
  readable : ∀ key blob, site.mappings.memory.blobs.get? key = some blob →
    ∃ row, Correlation.decode? blob = some row
  issued : ∀ id location, site.record? id = some location →
    ∃ n < site.supply.issued, id = (UuidSupply.nth n).text

/-- The answer to a call about a location, and the site after it. -/
inductive Callback (fails : Nat → Bool) (site : Site) (location : String) :
    ChangeKind → Outcome ListenerError Unit × Site → Prop where
  | known (row : Correlation) (hrow : site.row? (correlationId location) = some row) :
      Callback fails site location .created (.ok (), site)
  | unknown (kind : ChangeKind) (hkind : kind ≠ .created)
      (hrow : site.row? (correlationId location) = none) :
      Callback fails site location kind (.ok (), site)
  | refusedCreate (hrow : site.row? (correlationId location) = none)
      (hbehavior : site.adapter.behavior = .failCreate) :
      Callback fails site location .created (.ok (), site.note (.create location))
  | refusedUpdate (row : Correlation) (hrow : site.row? (correlationId location) = some row)
      (hrefused : site.adapter.behavior = .failUpdate ∨ site.record? row.downstreamId = none) :
      Callback fails site location .modified
        (.ok (), site.note (.update location row.downstreamId))
  | refusedDelete (row : Correlation) (hrow : site.row? (correlationId location) = some row)
      (hrefused : site.adapter.behavior = .failDelete ∨ site.record? row.downstreamId = none) :
      Callback fails site location .deleted (.ok (), site.note (.delete row.downstreamId))
  | created (time : Time.Timestamp) (htime : time.IsValid)
      (hrow : site.row? (correlationId location) = none)
      (hbehavior : site.adapter.behavior ≠ .failCreate) :
      Callback fails site location .created
        (((site.note (.create location)).issue location).write fails (correlationId location)
          (some ⟨site.nextId, location, time⟩))
  | updated (row : Correlation) (time : Time.Timestamp) (htime : time.IsValid)
      (hrow : site.row? (correlationId location) = some row)
      (hlive : site.record? row.downstreamId ≠ none)
      (hbehavior : site.adapter.behavior ≠ .failUpdate)
      (hstays : site.adapter.behavior ≠ .reissueIdOnUpdate) :
      Callback fails site location .modified
        (((site.note (.update location row.downstreamId)).put row.downstreamId location).write fails
          (correlationId location) (some ⟨row.downstreamId, location, time⟩))
  | reissued (row : Correlation) (time : Time.Timestamp) (htime : time.IsValid)
      (hrow : site.row? (correlationId location) = some row)
      (hlive : site.record? row.downstreamId ≠ none)
      (hbehavior : site.adapter.behavior = .reissueIdOnUpdate) :
      Callback fails site location .modified
        ((((site.note (.update location row.downstreamId)).drop row.downstreamId).issue
          location).write fails (correlationId location) (some ⟨site.nextId, location, time⟩))
  | deleted (row : Correlation) (hrow : site.row? (correlationId location) = some row)
      (hlive : site.record? row.downstreamId ≠ none)
      (hbehavior : site.adapter.behavior ≠ .failDelete) :
      Callback fails site location .deleted
        (((site.note (.delete row.downstreamId)).drop row.downstreamId).write fails
          (correlationId location) none)

variable {fails : Nat → Bool} {clock : Site → Time.Timestamp}

theorem isValid_of_some {id location : String} {time : Time.Timestamp} (htime : time.IsValid) :
    ∀ row, some (⟨id, location, time⟩ : Correlation) = some row → row.recordedAt.IsValid := by
  rintro row ⟨⟩
  exact htime

theorem isValid_of_none :
    ∀ row, (none : Option Correlation) = some row → row.recordedAt.IsValid := by
  intro _ hnone
  cases hnone

theorem load_listener (site : Site) (key : String) :
    (listener fails clock).store.load key site =
      (.ok (site.mappings.memory.blobs.get? key), site) := rfl

theorem find?_listener {site : Site} (hsite : site.WellFormed) (key : String) :
    (listener fails clock).find? key site = (.ok (site.row? key), site) := by
  simp only [PersistentListener.find?, bind, StateT.bind, load_listener, row?]
  cases hblob : site.mappings.memory.blobs.get? key with
  | none => rfl
  | some blob =>
    obtain ⟨row, hrow⟩ := hsite.readable key blob hblob
    simp only [hrow, Option.bind_some]
    rfl

theorem save_listener (site : Site) (key id location : String) :
    (listener fails clock).save key id location site =
      site.write fails key (some ⟨id, location, clock site⟩) := by
  cases hfails : fails site.mappings.writes with
  | true =>
    simp only [write, hfails, if_true]
    simp only [PersistentListener.save, listener, BlobStore.over, Part.lift,
      ScheduledStore.blobStore, ScheduledStore.write, mappingsPart, MemoryStore.store, hfails,
      if_true]
    rfl
  | false =>
    simp only [write, hfails, Bool.false_eq_true, if_false]
    simp only [PersistentListener.save, listener, BlobStore.over, Part.lift,
      ScheduledStore.blobStore, ScheduledStore.write, mappingsPart, MemoryStore.store, hfails,
      Bool.false_eq_true, if_false]
    rfl

theorem remove_listener (site : Site) (key : String) :
    (do
      match ← (listener fails clock).store.delete key with
      | .error e => return .error (.persistence e)
      | .ok _ => return .ok () : StateM Site (Outcome ListenerError Unit)) site =
      site.write fails key none := by
  cases hfails : fails site.mappings.writes with
  | true =>
    simp only [write, hfails, if_true]
    simp only [bind, StateT.bind, listener, BlobStore.over, Part.lift, ScheduledStore.blobStore,
      ScheduledStore.write, mappingsPart, MemoryStore.delete, hfails, if_true]
    rfl
  | false =>
    simp only [write, hfails, Bool.false_eq_true, if_false]
    simp only [bind, StateT.bind, listener, BlobStore.over, Part.lift, ScheduledStore.blobStore,
      ScheduledStore.write, mappingsPart, MemoryStore.delete, hfails, Bool.false_eq_true, if_false]
    rfl

theorem isEmpty_nextId (site : Site) : site.nextId.isEmpty = false :=
  Uuid.isEmpty_text _

theorem isEmpty_of_record {site : Site} (hsite : site.WellFormed) {id : String}
    (hlive : site.record? id ≠ none) : id.isEmpty = false := by
  obtain ⟨location, hrecord⟩ := Option.ne_none_iff_exists'.mp hlive
  obtain ⟨n, -, rfl⟩ := hsite.issued id location hrecord
  exact Uuid.isEmpty_text _

theorem contains_records (site : Site) (id : String) :
    site.adapter.records.contains id = true ↔ site.record? id ≠ none :=
  Option.isSome_iff_ne_none

theorem update_of_refused {site : Site} {id : String} (location : String)
    (h : site.adapter.behavior = .failUpdate ∨ site.record? id = none) :
    ∃ e, RecordingAdapter.update location id (site.adapter, site.supply) =
      (.error e, site.adapter.note (.update location id), site.supply) := by
  unfold RecordingAdapter.update
  by_cases hfailing : (site.adapter.note (.update location id)).behavior = .failUpdate
  · exact ⟨_, if_pos hfailing⟩
  · have hdead : ¬ (site.adapter.note (.update location id)).records.contains id := by
      intro hlive
      rcases h with h | h
      · exact hfailing h
      · exact (contains_records site id).mp hlive h
    exact ⟨_, (if_neg hfailing).trans (if_neg hdead)⟩

theorem update_of_reissue {site : Site} {id : String} (location : String)
    (hlive : site.record? id ≠ none) (hbehavior : site.adapter.behavior = .reissueIdOnUpdate) :
    RecordingAdapter.update location id (site.adapter, site.supply) =
      let after := ((site.note (.update location id)).drop id).issue location
      (.ok site.nextId, after.adapter, after.supply) := by
  unfold RecordingAdapter.update
  have hlive' := (contains_records site id).mpr hlive
  have hfailing : ¬ site.adapter.behavior = .failUpdate := by
    rw [hbehavior]
    exact nofun
  exact (if_neg hfailing).trans ((if_pos hlive').trans (if_pos hbehavior))

theorem update_of_succeed {site : Site} {id : String} (location : String)
    (hlive : site.record? id ≠ none) (hbehavior : site.adapter.behavior ≠ .failUpdate)
    (hstays : site.adapter.behavior ≠ .reissueIdOnUpdate) :
    RecordingAdapter.update location id (site.adapter, site.supply) =
      (.ok id, ((site.note (.update location id)).put id location).adapter, site.supply) := by
  unfold RecordingAdapter.update
  have hlive' := (contains_records site id).mpr hlive
  exact (if_neg hbehavior).trans ((if_pos hlive').trans (if_neg hstays))

theorem delete_of_refused {site : Site} {id : String}
    (h : site.adapter.behavior = .failDelete ∨ site.record? id = none) :
    ∃ e, RecordingAdapter.delete id site.adapter =
      (.error e, site.adapter.note (.delete id)) := by
  unfold RecordingAdapter.delete
  by_cases hfailing : (site.adapter.note (.delete id)).behavior = .failDelete
  · exact ⟨_, if_pos hfailing⟩
  · have hdead : ¬ (site.adapter.note (.delete id)).records.contains id := by
      intro hlive
      rcases h with h | h
      · exact hfailing h
      · exact (contains_records site id).mp hlive h
    exact ⟨_, (if_neg hfailing).trans (if_neg hdead)⟩

theorem delete_of_succeed {site : Site} {id : String} (hlive : site.record? id ≠ none)
    (hbehavior : site.adapter.behavior ≠ .failDelete) :
    RecordingAdapter.delete id site.adapter =
      (.ok (), ((site.note (.delete id)).drop id).adapter) := by
  unfold RecordingAdapter.delete
  exact (if_neg hbehavior).trans (if_pos ((contains_records site id).mpr hlive))

theorem delete_listener (site : Site) (id : String) :
    (listener fails clock).adapter.delete id site =
      let step := RecordingAdapter.delete id site.adapter
      (.ofExcept step.1, { site with adapter := step.2 }) := rfl

def withAdapter (site : Site) (state : RecordingAdapter.WithSupply) : Site :=
  { site with adapter := state.1, supply := state.2 }

theorem handle_created {site : Site} (hsite : site.WellFormed) (resource : Resource)
    (content : Accessor Site) :
    handle fails clock .created resource content site =
      match site.row? resource.correlationId with
      | some _ => (.ok (), site)
      | none =>
        let step := RecordingAdapter.create resource.location (site.adapter, site.supply)
        (listener fails clock).saveAnswer resource (.ofExcept step.1)
          (site.withAdapter step.2) := by
  have hfind : (listener fails clock).find? resource.correlationId site = _ :=
    find?_listener hsite resource.correlationId
  simp only [handle, Reading.run, PersistentListener.onCreate, bind, StateT.bind, Reading.onWorld,
    hfind]
  cases site.row? resource.correlationId <;> rfl

theorem handle_modified {site : Site} (hsite : site.WellFormed) (resource : Resource)
    (content : Accessor Site) :
    handle fails clock .modified resource content site =
      match site.row? resource.correlationId with
      | none => (.ok (), site)
      | some row =>
        let step := RecordingAdapter.update resource.location row.downstreamId
          (site.adapter, site.supply)
        (listener fails clock).saveAnswer resource (.ofExcept step.1)
          (site.withAdapter step.2) := by
  have hfind : (listener fails clock).find? resource.correlationId site = _ :=
    find?_listener hsite resource.correlationId
  simp only [handle, Reading.run, PersistentListener.onUpdate, bind, StateT.bind, Reading.onWorld,
    hfind]
  cases site.row? resource.correlationId <;> rfl

theorem saveAnswer_listener (site : Site) {id : String} (resource : Resource)
    (hid : id.isEmpty = false) :
    (listener fails clock).saveAnswer resource (.ok id) site =
      site.write fails resource.correlationId (some ⟨id, resource.location, clock site⟩) := by
  simp only [PersistentListener.saveAnswer, hid, Bool.false_eq_true, if_false, save_listener]

theorem callback_created (hclock : ∀ site, (clock site).IsValid) {site : Site}
    (hsite : site.WellFormed) (resource : Resource) (content : Accessor Site) :
    Callback fails site resource.location .created
      (handle fails clock .created resource content site) := by
  rw [handle_created hsite]
  cases hrow : site.row? resource.correlationId with
  | some row => exact .known row hrow
  | none =>
    by_cases hbehavior : site.adapter.behavior = .failCreate
    · have hstep : RecordingAdapter.create resource.location (site.adapter, site.supply) =
          (.error (.storage "simulated create failure"),
            site.adapter.note (.create resource.location), site.supply) := if_pos hbehavior
      simp only [hstep]
      exact .refusedCreate hrow hbehavior
    · have hstep : RecordingAdapter.create resource.location (site.adapter, site.supply) = _ :=
        if_neg hbehavior
      simp only [hstep]
      show Callback fails site resource.location .created
        ((listener fails clock).saveAnswer resource (.ok site.nextId)
          ((site.note (.create resource.location)).issue resource.location))
      rw [saveAnswer_listener _ resource site.isEmpty_nextId]
      exact .created _ (hclock _) hrow hbehavior

theorem callback_modified (hclock : ∀ site, (clock site).IsValid) {site : Site}
    (hsite : site.WellFormed) (resource : Resource) (content : Accessor Site) :
    Callback fails site resource.location .modified
      (handle fails clock .modified resource content site) := by
  rw [handle_modified hsite]
  cases hrow : site.row? resource.correlationId with
  | none => exact .unknown .modified nofun hrow
  | some row =>
    by_cases hrefused : site.adapter.behavior = .failUpdate ∨ site.record? row.downstreamId = none
    · obtain ⟨e, hstep⟩ := update_of_refused resource.location hrefused
      simp only [hstep]
      exact .refusedUpdate row hrow hrefused
    · obtain ⟨hbehavior, hlive⟩ := not_or.mp hrefused
      by_cases hreissue : site.adapter.behavior = .reissueIdOnUpdate
      · simp only [update_of_reissue resource.location hlive hreissue]
        show Callback fails site resource.location .modified
          ((listener fails clock).saveAnswer resource (.ok site.nextId)
            (((site.note (.update resource.location row.downstreamId)).drop
              row.downstreamId).issue resource.location))
        rw [saveAnswer_listener _ resource site.isEmpty_nextId]
        exact .reissued row _ (hclock _) hrow hlive hreissue
      · simp only [update_of_succeed resource.location hlive hbehavior hreissue]
        show Callback fails site resource.location .modified
          ((listener fails clock).saveAnswer resource (.ok row.downstreamId)
            ((site.note (.update resource.location row.downstreamId)).put
              row.downstreamId resource.location))
        rw [saveAnswer_listener _ resource (isEmpty_of_record hsite hlive)]
        exact .updated row _ (hclock _) hrow hlive hbehavior hreissue

theorem callback_deleted {site : Site} (hsite : site.WellFormed) (location : String) :
    Callback fails site location .deleted
      ((listener fails clock).onDelete ⟨location⟩ site) := by
  have hfind : (listener fails clock).find? (correlationId location) site = _ :=
    find?_listener hsite (correlationId location)
  simp only [PersistentListener.onDelete, DeletedResource.correlationId, bind, StateT.bind, hfind]
  cases hrow : site.row? (correlationId location) with
  | none => exact .unknown .deleted nofun hrow
  | some row =>
    simp only [StateT.bind, delete_listener]
    by_cases hrefused : site.adapter.behavior = .failDelete ∨ site.record? row.downstreamId = none
    · obtain ⟨e, hstep⟩ := delete_of_refused hrefused
      simp only [hstep]
      exact .refusedDelete row hrow hrefused
    · obtain ⟨hbehavior, hlive⟩ := not_or.mp hrefused
      simp only [delete_of_succeed hlive hbehavior]
      have hcallback : Callback fails site location .deleted _ :=
        .deleted row hrow hlive hbehavior
      rw [← @remove_listener fails clock] at hcallback
      exact hcallback

/-- Whatever the listener is told, it does one of the things listed, provided that its clock tells
times that can be written down. -/
theorem callback_handle (hclock : ∀ site, (clock site).IsValid) {site : Site}
    (hsite : site.WellFormed) (kind : ChangeKind) (resource : Resource) (content : Accessor Site) :
    Callback fails site resource.location kind
      (handle fails clock kind resource content site) := by
  cases kind with
  | created => exact callback_created hclock hsite resource content
  | modified => exact callback_modified hclock hsite resource content
  | deleted => exact callback_deleted hsite resource.location

namespace WellFormed

variable {site : Site}

theorem empty : Site.empty.WellFormed := by
  constructor
  · intro _ _ hblob
    cases hblob
  · intro _ _ hrecord
    cases hrecord

theorem note (h : site.WellFormed) (call : AdapterCall) : (site.note call).WellFormed :=
  ⟨h.readable, h.issued⟩

theorem put (h : site.WellFormed) {id : String} (hlive : site.record? id ≠ none)
    (location : String) : (site.put id location).WellFormed := by
  refine ⟨h.readable, ?_⟩
  intro other found hfound
  rw [record?_put] at hfound
  split at hfound
  · rename_i heq
    obtain ⟨before, hbefore⟩ := Option.ne_none_iff_exists'.mp hlive
    rw [heq]
    exact h.issued id before hbefore
  · exact h.issued other found hfound

theorem drop (h : site.WellFormed) (id : String) : (site.drop id).WellFormed := by
  refine ⟨h.readable, ?_⟩
  intro other found hfound
  rw [record?_drop] at hfound
  split at hfound
  · cases hfound
  · exact h.issued other found hfound

theorem issue (h : site.WellFormed) (location : String) : (site.issue location).WellFormed := by
  refine ⟨h.readable, ?_⟩
  intro other found hfound
  rw [record?_issue] at hfound
  split at hfound
  · rename_i heq
    exact ⟨site.supply.issued, Nat.lt_succ_self _, heq⟩
  · obtain ⟨n, hn, hid⟩ := h.issued other found hfound
    exact ⟨n, Nat.lt_succ_of_lt hn, hid⟩

theorem write (h : site.WellFormed) (key : String) {wanted : Option Correlation}
    (htime : ∀ row, wanted = some row → row.recordedAt.IsValid) :
    (site.write fails key wanted).2.WellFormed := by
  unfold Site.write
  split
  · exact ⟨h.readable, h.issued⟩
  · refine ⟨?_, h.issued⟩
    intro other blob hblob
    cases wanted with
    | none =>
      simp only [ScheduledStore.replace, Option.map_none, Table.get?_erase] at hblob
      split at hblob
      · cases hblob
      · exact h.readable other blob hblob
    | some row =>
      simp only [ScheduledStore.replace, Option.map_some, Table.get?_insert] at hblob
      split at hblob
      · cases hblob
        exact ⟨row, Correlation.decode?_encode (htime row rfl)⟩
      · exact h.readable other blob hblob

end WellFormed

theorem write_answer (site : Site) (key : String) (wanted : Option Correlation) :
    (site.write fails key wanted).1 = .ok () ∨
      ∃ e, (site.write fails key wanted).1 = .error (.persistence e) := by
  unfold write
  split
  · exact Or.inr ⟨_, rfl⟩
  · exact Or.inl rfl

theorem callback_answer {site : Site} {location : String} {kind : ChangeKind}
    {answer : Outcome ListenerError Unit × Site}
    (hstep : Callback fails site location kind answer) :
    answer.1 = .ok () ∨ ∃ e, answer.1 = .error (.persistence e) := by
  cases hstep with
  | known | unknown | refusedCreate | refusedUpdate | refusedDelete => exact Or.inl rfl
  | created | updated | reissued | deleted => exact write_answer _ _ _

theorem row?_write_ne (site : Site) {key other : String} {wanted : Option Correlation}
    (hvalid : ∀ row, wanted = some row → row.recordedAt.IsValid) (hne : other ≠ key) :
    (site.write fails key wanted).2.row? other = site.row? other := by
  rw [row?_write fails site key hvalid]
  simp [hne]

theorem row?_of_callback_ne {site : Site} {location other : String} {kind : ChangeKind}
    {answer : Outcome ListenerError Unit × Site} (hne : other ≠ correlationId location)
    (hstep : Callback fails site location kind answer) :
    answer.2.row? other = site.row? other := by
  cases hstep with
  | known | unknown | refusedCreate | refusedUpdate | refusedDelete => rfl
  | created time htime | updated row time htime | reissued row time htime =>
    exact row?_write_ne _ (isValid_of_some htime) hne
  | deleted => exact row?_write_ne _ isValid_of_none hne

theorem behavior_of_callback {site : Site} {location : String} {kind : ChangeKind}
    {answer : Outcome ListenerError Unit × Site}
    (hstep : Callback fails site location kind answer) :
    answer.2.adapter.behavior = site.adapter.behavior := by
  cases hstep with
  | known | unknown | refusedCreate | refusedUpdate | refusedDelete => rfl
  | created | updated | reissued | deleted => rw [adapter_write]; rfl

theorem row?_write_of_ok {site after : Site} {key : String} {wanted : Option Correlation}
    (hvalid : ∀ row, wanted = some row → row.recordedAt.IsValid)
    (hwrite : site.write fails key wanted = (.ok (), after)) : after.row? key = wanted := by
  have hrow := row?_write fails site key hvalid key
  rw [hwrite] at hrow
  cases hfails : fails site.mappings.writes with
  | true =>
    simp only [write, hfails, if_true] at hwrite
    cases hwrite
  | false => simpa [hfails] using hrow

theorem lost_of_callback {site : Site} {location : String} {kind : ChangeKind}
    {answer : Outcome ListenerError Unit × Site}
    (hstep : Callback fails site location kind answer) :
    site.mappings.lost <+: answer.2.mappings.lost := by
  have hwrite : ∀ (middle : Site) (key : String) (wanted : Option Correlation),
      middle.mappings = site.mappings →
        site.mappings.lost <+: (middle.write fails key wanted).2.mappings.lost := by
    intro middle key wanted hsame
    rw [lost_write, hsame]
    split
    · exact List.prefix_append _ _
    · exact List.prefix_rfl
  cases hstep with
  | known | unknown | refusedCreate | refusedUpdate | refusedDelete => exact List.prefix_rfl
  | created | updated | reissued | deleted => exact hwrite _ _ _ rfl

theorem issued_le_of_callback {site : Site} {location : String} {kind : ChangeKind}
    {answer : Outcome ListenerError Unit × Site}
    (hstep : Callback fails site location kind answer) :
    site.supply.issued ≤ answer.2.supply.issued := by
  cases hstep with
  | known | unknown | refusedCreate | refusedUpdate | refusedDelete => exact Nat.le_refl _
  | created | reissued =>
    rw [supply_write]
    exact Nat.le_succ _
  | updated | deleted =>
    rw [supply_write]
    exact Nat.le_refl _

theorem wellFormed_of_callback {site : Site} {location : String} {kind : ChangeKind}
    {answer : Outcome ListenerError Unit × Site} (h : site.WellFormed)
    (hstep : Callback fails site location kind answer) : answer.2.WellFormed := by
  cases hstep with
  | known | unknown => exact h
  | refusedCreate | refusedUpdate | refusedDelete => exact h.note _
  | created time htime => exact ((h.note _).issue _).write _ (isValid_of_some htime)
  | updated row time htime hrow hlive =>
    exact ((h.note _).put hlive _).write _ (isValid_of_some htime)
  | reissued row time htime =>
    exact (((h.note _).drop _).issue _).write _ (isValid_of_some htime)
  | deleted => exact ((h.note _).drop _).write _ isValid_of_none

end CatalogSync.Site
