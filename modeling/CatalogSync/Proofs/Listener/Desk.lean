import CatalogSync.Ingest.Recording
import CatalogSync.Listener.Persistent
import CatalogSync.Proofs.Listener.Correlation
import CatalogSync.Store.Memory

/-!
A persistent listener between a map that can be read and written and an adapter that may answer
anything. The desk writes down what the adapter is asked and how it answers. Of each call it is said
what the adapter is asked, which is a matter of the map, and what becomes of the map, which is a
matter of the answer.
-/

namespace CatalogSync

section Parts

variable {σ s α : Type}

/-- Access as a part of the state has it. What fetching does to the rest is left aside. -/
def Accessor.within (part : Part σ s) (world : σ) (accessor : Accessor σ) : Accessor s where
  fetch := fun state =>
    let (outcome, after) := accessor.fetch (part.set state world)
    (outcome, part.get after)
  outcome := accessor.outcome

def Part.liftReading (part : Part σ s) (action : StateM (Reading s) α) :
    StateM (Reading σ) α := fun reading =>
  let (answer, after) :=
    action ⟨reading.content.within part reading.world, part.get reading.world⟩
  (answer, ⟨⟨reading.content.fetch, after.content.outcome⟩, part.set after.world reading.world⟩)

end Parts

/-- What an adapter is asked, with its answer. -/
inductive Exchange where
  | create (location : String) (answer : Outcome IngestError String)
  | update (location id : String) (answer : Outcome IngestError String)
  | delete (id : String) (answer : Outcome IngestError Unit)
  deriving DecidableEq

namespace Exchange

def call : Exchange → AdapterCall
  | create location _ => .create location
  | update location id _ => .update location id
  | delete id _ => .delete id

/-- The id that is answered. An empty one is none. -/
def answeredId? : Outcome IngestError String → Option String
  | .ok id => if id.isEmpty then none else some id
  | .error _ | .panicked => none

def brokeDown {α : Type} : Outcome IngestError α → Bool
  | .panicked => true
  | .ok _ | .error _ => false

def issued? : Exchange → Option String
  | create _ answer | update _ _ answer => answeredId? answer
  | delete _ _ => none

def removes : Exchange → Bool
  | delete _ (.ok ()) => true
  | _ => false

def isBreakdown : Exchange → Bool
  | create _ answer | update _ _ answer => brokeDown answer
  | delete _ answer => brokeDown answer

/-- What a location is mapped to after an exchange about it. -/
def settle (before : Option String) (exchange : Exchange) : Option String :=
  if exchange.removes then none else exchange.issued?.or before

end Exchange

/-- What there is to ask about a location that is mapped to an id, or to none. -/
def AdapterCall.due (location : String) : ChangeKind → Option String → List AdapterCall
  | .created, none => [.create location]
  | .modified, some id => [.update location id]
  | .deleted, some id => [.delete id]
  | _, _ => []

structure Desk (τ : Type) where
  mappings : MemoryStore
  exchanges : List Exchange
  downstream : τ

namespace Desk

variable {τ : Type}

def empty (downstream : τ) : Desk τ := ⟨.empty, [], downstream⟩

def mappingsPart : Part (Desk τ) MemoryStore :=
  ⟨Desk.mappings, fun mappings desk => { desk with mappings := mappings }⟩

def downstreamPart : Part (Desk τ) τ :=
  ⟨Desk.downstream, fun downstream desk => { desk with downstream := downstream }⟩

def note (exchange : Exchange) : StateM (Desk τ) Unit := fun desk =>
  ((), { desk with exchanges := desk.exchanges ++ [exchange] })

def noted (adapter : Adapter τ) : Adapter (Desk τ) where
  create := fun resource => do
    let answer ← downstreamPart.liftReading (adapter.create resource)
    Reading.onWorld (note (.create resource.location answer))
    return answer
  update := fun resource id => do
    let answer ← downstreamPart.liftReading (adapter.update resource id)
    Reading.onWorld (note (.update resource.location id answer))
    return answer
  delete := fun id => do
    let answer ← downstreamPart.lift (adapter.delete id)
    note (.delete id answer)
    return answer

def listener (adapter : Adapter τ) (clock : Desk τ → Time.Timestamp) :
    PersistentListener (Desk τ) where
  name := "desk"
  adapter := noted adapter
  store := MemoryStore.blobStore.over mappingsPart
  clock := clock

def handle (adapter : Adapter τ) (clock : Desk τ → Time.Timestamp) (kind : ChangeKind)
    (resource : Resource) (content : Accessor (Desk τ)) :
    StateM (Desk τ) (Outcome ListenerError Unit) :=
  match kind with
  | .created => Reading.run ((listener adapter clock).onCreate resource) content
  | .modified => Reading.run ((listener adapter clock).onUpdate resource) content
  | .deleted => (listener adapter clock).onDelete ⟨resource.location⟩

def row? (desk : Desk τ) (key : String) : Option Correlation :=
  (desk.mappings.blobs.get? key).bind Correlation.decode?

def id? (desk : Desk τ) (key : String) : Option String :=
  (desk.row? key).map Correlation.downstreamId

/-- The map can be written to, and holds nothing but rows. -/
structure Sound (desk : Desk τ) : Prop where
  writable : desk.mappings.failsWrites = false
  readable : ∀ key blob, desk.mappings.blobs.get? key = some blob →
    ∃ row, Correlation.decode? blob = some row

/-- The adapter has been asked, and the map has not been touched yet. -/
def asked (desk : Desk τ) (exchange : Exchange) (downstream : τ) : Desk τ :=
  { desk with exchanges := desk.exchanges ++ [exchange], downstream := downstream }

def put (desk : Desk τ) (key : String) (row : Correlation) : Desk τ :=
  { desk with
    mappings := { desk.mappings with blobs := desk.mappings.blobs.insert key row.encode } }

def drop (desk : Desk τ) (key : String) : Desk τ :=
  { desk with mappings := { desk.mappings with blobs := desk.mappings.blobs.erase key } }

/-- What a call about a location comes to, with the exchanges it takes. -/
structure Handled (desk : Desk τ) (kind : ChangeKind) (location : String)
    (answer : Outcome ListenerError Unit × Desk τ) (made : List Exchange) : Prop where
  exchanges : answer.2.exchanges = desk.exchanges ++ made
  calls : made.map Exchange.call = AdapterCall.due location kind (desk.id? (correlationId location))
  reply : answer.1 = if made.any Exchange.isBreakdown then .panicked else .ok ()
  ids : ∀ key, answer.2.id? key =
    if key = correlationId location then made.foldl Exchange.settle (desk.id? key)
    else desk.id? key
  sound : answer.2.Sound

variable {adapter : Adapter τ} {clock : Desk τ → Time.Timestamp} {desk : Desk τ}

section Lookups

theorem sound_empty (downstream : τ) : (empty downstream).Sound := by
  refine ⟨rfl, ?_⟩
  intro _ _ hblob
  cases hblob

theorem Sound.put (h : desk.Sound) (key : String) {row : Correlation}
    (htime : row.recordedAt.IsValid) : (desk.put key row).Sound := by
  refine ⟨h.writable, ?_⟩
  intro other blob hblob
  simp only [Desk.put, Table.get?_insert] at hblob
  split at hblob
  · cases hblob
    exact ⟨row, Correlation.decode?_encode htime⟩
  · exact h.readable other blob hblob

theorem Sound.drop (h : desk.Sound) (key : String) : (desk.drop key).Sound := by
  refine ⟨h.writable, ?_⟩
  intro other blob hblob
  simp only [Desk.drop, Table.get?_erase] at hblob
  split at hblob
  · cases hblob
  · exact h.readable other blob hblob

theorem id?_put (desk : Desk τ) (key : String) {row : Correlation}
    (htime : row.recordedAt.IsValid) (other : String) :
    (desk.put key row).id? other = if other = key then some row.downstreamId
      else desk.id? other := by
  simp only [id?, row?, put, Table.get?_insert]
  split
  · rw [Option.bind_some, Correlation.decode?_encode htime, Option.map_some]
  · rfl

theorem id?_drop (desk : Desk τ) (key other : String) :
    (desk.drop key).id? other = if other = key then none else desk.id? other := by
  simp only [id?, row?, drop, Table.get?_erase]
  split <;> rfl

theorem load_listener (desk : Desk τ) (key : String) :
    (listener adapter clock).store.load key desk = (.ok (desk.mappings.blobs.get? key), desk) := rfl

theorem find?_listener (h : desk.Sound) (key : String) :
    (listener adapter clock).find? key desk = (.ok (desk.row? key), desk) := by
  simp only [PersistentListener.find?, bind, StateT.bind, load_listener, row?]
  cases hblob : desk.mappings.blobs.get? key with
  | none => rfl
  | some blob =>
    obtain ⟨row, hrow⟩ := h.readable key blob hblob
    simp only [hrow, Option.bind_some]
    rfl

theorem downstreamId_listener (h : desk.Sound) (key : String) :
    (listener adapter clock).downstreamId key desk = (.ok (desk.id? key), desk) := by
  simp only [PersistentListener.downstreamId, bind, StateT.bind, find?_listener h]
  rfl

theorem save_listener (h : desk.Sound) (key id location : String) :
    (listener adapter clock).save key id location desk =
      (.ok (), desk.put key ⟨id, location, clock desk⟩) := by
  simp only [PersistentListener.save, listener, BlobStore.over, Part.lift, MemoryStore.blobStore,
    mappingsPart, MemoryStore.store, put, h.writable, Bool.false_eq_true, if_false]

theorem delete_listener (h : desk.Sound) (key : String) :
    (listener adapter clock).store.delete key desk =
      (.ok (desk.mappings.blobs.contains key), desk.drop key) := by
  simp only [listener, BlobStore.over, Part.lift, MemoryStore.blobStore, mappingsPart,
    MemoryStore.delete, drop, h.writable, Bool.false_eq_true, if_false]

end Lookups

section Calls

variable {kind : ChangeKind} {location : String}

theorem handled_of_nothing_due (h : desk.Sound)
    (hdue : AdapterCall.due location kind (desk.id? (correlationId location)) = []) :
    Handled desk kind location (.ok (), desk) [] := by
  refine ⟨?_, hdue.symm, rfl, ?_, h⟩
  · rw [List.append_nil]
  · intro key
    split <;> rfl

theorem handled_of_kept (h : desk.Sound) {exchange : Exchange} (downstream : τ)
    (hdue : [exchange.call] = AdapterCall.due location kind (desk.id? (correlationId location)))
    (hissued : exchange.issued? = none) (hremoves : exchange.removes = false) :
    Handled desk kind location
      (if exchange.isBreakdown then .panicked else .ok (), desk.asked exchange downstream)
      [exchange] := by
  refine ⟨rfl, hdue, ?_, ?_, ⟨h.writable, h.readable⟩⟩
  · rw [List.any_cons, List.any_nil, Bool.or_false]
  · intro key
    rw [List.foldl_cons, List.foldl_nil, Exchange.settle, hremoves, hissued, Option.none_or,
      if_neg Bool.false_ne_true, ite_self]
    rfl

theorem handled_of_put (h : desk.Sound) {exchange : Exchange} (downstream : τ)
    (hdue : [exchange.call] = AdapterCall.due location kind (desk.id? (correlationId location)))
    (hbreakdown : exchange.isBreakdown = false) (hremoves : exchange.removes = false)
    {row : Correlation} (hissued : exchange.issued? = some row.downstreamId)
    (htime : row.recordedAt.IsValid) :
    Handled desk kind location
      (.ok (), (desk.asked exchange downstream).put (correlationId location) row) [exchange] := by
  have hsound : (desk.asked exchange downstream).Sound := ⟨h.writable, h.readable⟩
  refine ⟨rfl, hdue, ?_, ?_, hsound.put _ htime⟩
  · rw [List.any_cons, hbreakdown]
    rfl
  · intro key
    rw [id?_put _ _ htime, List.foldl_cons, List.foldl_nil, Exchange.settle, hremoves, hissued]
    rfl

theorem handled_of_drop (h : desk.Sound) {exchange : Exchange} (downstream : τ)
    (hdue : [exchange.call] = AdapterCall.due location kind (desk.id? (correlationId location)))
    (hbreakdown : exchange.isBreakdown = false) (hremoves : exchange.removes = true) :
    Handled desk kind location
      (.ok (), (desk.asked exchange downstream).drop (correlationId location)) [exchange] := by
  have hsound : (desk.asked exchange downstream).Sound := ⟨h.writable, h.readable⟩
  refine ⟨rfl, hdue, ?_, ?_, hsound.drop _⟩
  · rw [List.any_cons, hbreakdown]
    rfl
  · intro key
    rw [id?_drop, List.foldl_cons, List.foldl_nil, Exchange.settle, hremoves]
    rfl

theorem handled_saveAnswer (hclock : ∀ desk, (clock desk).IsValid) (h : desk.Sound)
    (resource : Resource) (answer : Outcome IngestError String) (downstream : τ)
    {exchange : Exchange} (hissued : exchange.issued? = Exchange.answeredId? answer)
    (hbreakdown : exchange.isBreakdown = Exchange.brokeDown answer)
    (hremoves : exchange.removes = false)
    (hdue : [exchange.call] =
      AdapterCall.due resource.location kind (desk.id? (correlationId resource.location))) :
    Handled desk kind resource.location
      ((listener adapter clock).saveAnswer resource answer (desk.asked exchange downstream))
      [exchange] := by
  cases answer with
  | ok id =>
    by_cases hempty : id.isEmpty = true
    · have hnone : Exchange.answeredId? (.ok id) = none := if_pos hempty
      have hkept := handled_of_kept h downstream hdue (hissued.trans hnone) hremoves
      rw [hbreakdown] at hkept
      rw [PersistentListener.saveAnswer, if_pos hempty]
      exact hkept
    -- The row is written as JSON and read back, which gives the id again if the time is a valid
    -- one.
    · have hid : Exchange.answeredId? (.ok id) = some id := if_neg hempty
      have hsound : (desk.asked exchange downstream).Sound := ⟨h.writable, h.readable⟩
      rw [PersistentListener.saveAnswer, if_neg hempty, save_listener hsound]
      exact handled_of_put h downstream hdue hbreakdown hremoves (hissued.trans hid) (hclock _)
  | error e =>
    have hkept := handled_of_kept h downstream hdue hissued hremoves
    rw [hbreakdown] at hkept
    exact hkept
  | panicked =>
    have hkept := handled_of_kept h downstream hdue hissued hremoves
    rw [hbreakdown] at hkept
    exact hkept

end Calls

section Handling

theorem exists_create (adapter : Adapter τ) (resource : Resource) (content : Accessor (Desk τ))
    (desk : Desk τ) : ∃ answer after downstream,
      (noted adapter).create resource ⟨content, desk⟩ =
        (answer, ⟨after, desk.asked (.create resource.location answer) downstream⟩) :=
  ⟨_, _, _, rfl⟩

theorem exists_update (adapter : Adapter τ) (resource : Resource) (id : String)
    (content : Accessor (Desk τ)) (desk : Desk τ) : ∃ answer after downstream,
      (noted adapter).update resource id ⟨content, desk⟩ =
        (answer, ⟨after, desk.asked (.update resource.location id answer) downstream⟩) :=
  ⟨_, _, _, rfl⟩

theorem exists_delete (adapter : Adapter τ) (id : String) (desk : Desk τ) :
    ∃ answer downstream, (noted adapter).delete id desk =
      (answer, desk.asked (.delete id answer) downstream) :=
  ⟨_, _, rfl⟩

theorem handled_created (hclock : ∀ desk, (clock desk).IsValid) (h : desk.Sound)
    (resource : Resource) (content : Accessor (Desk τ)) :
    ∃ made, Handled desk .created resource.location
      (handle adapter clock .created resource content desk) made := by
  have hfind : (listener adapter clock).find? resource.correlationId desk = _ :=
    find?_listener h resource.correlationId
  obtain ⟨answer, after, downstream, hcreate⟩ := exists_create adapter resource content desk
  have hcreate' : (listener adapter clock).adapter.create resource ⟨content, desk⟩ = _ := hcreate
  simp only [handle, Reading.run, PersistentListener.onCreate, bind, StateT.bind, Reading.onWorld,
    hfind]
  cases hrow : desk.row? resource.correlationId with
  | some row =>
    refine ⟨[], handled_of_nothing_due h ?_⟩
    show AdapterCall.due _ _ ((desk.row? resource.correlationId).map _) = []
    rw [hrow]
    rfl
  | none =>
    simp only [StateT.bind, Reading.onWorld, hcreate']
    refine ⟨_, handled_saveAnswer hclock h resource answer downstream rfl rfl rfl ?_⟩
    show _ = AdapterCall.due _ _ ((desk.row? resource.correlationId).map _)
    rw [hrow]
    rfl

theorem handled_modified (hclock : ∀ desk, (clock desk).IsValid) (h : desk.Sound)
    (resource : Resource) (content : Accessor (Desk τ)) :
    ∃ made, Handled desk .modified resource.location
      (handle adapter clock .modified resource content desk) made := by
  have hfind : (listener adapter clock).find? resource.correlationId desk = _ :=
    find?_listener h resource.correlationId
  simp only [handle, Reading.run, PersistentListener.onUpdate, bind, StateT.bind, Reading.onWorld,
    hfind]
  cases hrow : desk.row? resource.correlationId with
  | none =>
    refine ⟨[], handled_of_nothing_due h ?_⟩
    show AdapterCall.due _ _ ((desk.row? resource.correlationId).map _) = []
    rw [hrow]
    rfl
  | some row =>
    obtain ⟨answer, after, downstream, hupdate⟩ :=
      exists_update adapter resource row.downstreamId content desk
    have hupdate' : (listener adapter clock).adapter.update resource row.downstreamId
      ⟨content, desk⟩ = _ := hupdate
    simp only [StateT.bind, Reading.onWorld, hupdate']
    refine ⟨_, handled_saveAnswer hclock h resource answer downstream rfl rfl rfl ?_⟩
    show _ = AdapterCall.due _ _ ((desk.row? resource.correlationId).map _)
    rw [hrow]
    rfl

theorem handled_deleted (h : desk.Sound) (location : String) :
    ∃ made, Handled desk .deleted location
      ((listener adapter clock).onDelete ⟨location⟩ desk) made := by
  have hfind : (listener adapter clock).find? (correlationId location) desk = _ :=
    find?_listener h (correlationId location)
  simp only [PersistentListener.onDelete, DeletedResource.correlationId, bind, StateT.bind, hfind]
  cases hrow : desk.row? (correlationId location) with
  | none =>
    refine ⟨[], handled_of_nothing_due h ?_⟩
    rw [id?, hrow]
    rfl
  | some row =>
    obtain ⟨answer, downstream, hdelete⟩ := exists_delete adapter row.downstreamId desk
    have hdelete' : (listener adapter clock).adapter.delete row.downstreamId desk = _ := hdelete
    have hdue : [(Exchange.delete row.downstreamId answer).call] =
        AdapterCall.due location .deleted (desk.id? (correlationId location)) := by
      rw [id?, hrow]
      rfl
    have hsound : (desk.asked (.delete row.downstreamId answer) downstream).Sound :=
      ⟨h.writable, h.readable⟩
    simp only [StateT.bind, hdelete']
    cases answer with
    | ok _ =>
      have hdrop := @delete_listener _ adapter clock _ hsound (correlationId location)
      simp only [bind, StateT.bind, hdrop]
      exact ⟨_, handled_of_drop h downstream hdue rfl rfl⟩
    | error e => exact ⟨_, handled_of_kept h downstream hdue rfl rfl⟩
    | panicked => exact ⟨_, handled_of_kept h downstream hdue rfl rfl⟩

/-- Whatever the listener is told and whatever the adapter answers, it asks what is due, and the map
becomes what the answer makes of it. -/
theorem exists_handled (hclock : ∀ desk, (clock desk).IsValid) (h : desk.Sound)
    (kind : ChangeKind) (resource : Resource) (content : Accessor (Desk τ)) :
    ∃ made, Handled desk kind resource.location
      (handle adapter clock kind resource content desk) made := by
  cases kind with
  | created => exact handled_created hclock h resource content
  | modified => exact handled_modified hclock h resource content
  | deleted => exact handled_deleted h resource.location

end Handling

end Desk

end CatalogSync
