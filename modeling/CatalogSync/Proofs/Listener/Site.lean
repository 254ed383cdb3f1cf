import CatalogSync.Ingest.Recording
import CatalogSync.Lister.Basic
import CatalogSync.Listener.Persistent
import CatalogSync.Proofs.Listener.Correlation
import CatalogSync.Store.Memory

namespace CatalogSync

/-- A write that failed: what is under the key, and what was to be there. -/
structure LostWrite where
  key : String
  before : Option Bytes
  wanted : Option Bytes
  deriving DecidableEq

structure ScheduledStore where
  memory : MemoryStore
  writes : Nat
  lost : List LostWrite

namespace ScheduledStore

def empty : ScheduledStore := ⟨.empty, 0, []⟩

/-- Counts a write, which fails if the schedule says so. -/
def write {α : Type} (fails : Nat → Bool) (key : String) (wanted : Option Bytes)
    (action : StateM MemoryStore (Except StoreError α)) :
    StateM ScheduledStore (Except StoreError α) := fun s =>
  match action { s.memory with failsWrites := fails s.writes } with
  | (.ok answer, memory) => (.ok answer, ⟨memory, s.writes + 1, s.lost⟩)
  | (.error e, memory) =>
    (.error e, ⟨memory, s.writes + 1, s.lost ++ [⟨key, s.memory.blobs.get? key, wanted⟩]⟩)

def lose (s : ScheduledStore) (key : String) (wanted : Option Bytes) : ScheduledStore :=
  ⟨⟨s.memory.blobs, true⟩, s.writes + 1, s.lost ++ [⟨key, s.memory.blobs.get? key, wanted⟩]⟩

def replace (s : ScheduledStore) (key : String) (wanted : Option Bytes) : ScheduledStore :=
  ⟨⟨match wanted with
    | some blob => s.memory.blobs.insert key blob
    | none => s.memory.blobs.erase key, false⟩, s.writes + 1, s.lost⟩

def memoryPart : Part ScheduledStore MemoryStore :=
  ⟨ScheduledStore.memory, fun memory s => { s with memory := memory }⟩

def blobStore (fails : Nat → Bool) : BlobStore ScheduledStore where
  store := fun key blob => write fails key (some blob) (MemoryStore.store key blob)
  load := fun key => memoryPart.lift (MemoryStore.load key)
  delete := fun key => write fails key none (MemoryStore.delete key)
  keys := memoryPart.lift MemoryStore.keys

end ScheduledStore

structure Site where
  /-- What a listing answers. -/
  listed : Except ListerError (List ListingEntry)
  snapshots : MemoryStore
  mappings : ScheduledStore
  adapter : RecordingAdapter
  supply : UuidSupply

namespace Site

/-- Nothing is stored and no id has been issued. -/
def empty : Site := ⟨.ok [], .empty, .empty, .start .succeed, .start⟩

def snapshotsPart : Part Site MemoryStore :=
  ⟨Site.snapshots, fun store site => { site with snapshots := store }⟩

def mappingsPart : Part Site ScheduledStore :=
  ⟨Site.mappings, fun store site => { site with mappings := store }⟩

def adapterPart : Part Site RecordingAdapter :=
  ⟨Site.adapter, fun adapter site => { site with adapter := adapter }⟩

def supplyPart : Part Site UuidSupply :=
  ⟨Site.supply, fun supply site => { site with supply := supply }⟩

variable (fails : Nat → Bool) (clock : Site → Time.Timestamp)

def listener : PersistentListener Site where
  name := "site"
  adapter := RecordingAdapter.adapter adapterPart supplyPart
  store := (ScheduledStore.blobStore fails).over mappingsPart
  clock := clock

def handle (kind : ChangeKind) (resource : Resource) (content : Accessor Site) :
    StateM Site (Outcome ListenerError Unit) :=
  match kind with
  | .created => Reading.run ((listener fails clock).onCreate resource) content
  | .modified => Reading.run ((listener fails clock).onUpdate resource) content
  | .deleted => (listener fails clock).onDelete ⟨resource.location⟩

/-- The row of the map under a key, if there is one that can be read. -/
def row? (site : Site) (key : String) : Option Correlation :=
  (site.mappings.memory.blobs.get? key).bind Correlation.decode?

/-- The location of the live record with an id. -/
def record? (site : Site) (id : String) : Option String :=
  site.adapter.records.get? id

def nextId (site : Site) : String :=
  (UuidSupply.nth site.supply.issued).text

def note (site : Site) (call : AdapterCall) : Site :=
  { site with adapter := site.adapter.note call }

def put (site : Site) (id location : String) : Site :=
  { site with adapter := { site.adapter with records := site.adapter.records.insert id location } }

def drop (site : Site) (id : String) : Site :=
  { site with adapter := { site.adapter with records := site.adapter.records.erase id } }

def issue (site : Site) (location : String) : Site :=
  { site.put site.nextId location with supply := ⟨site.supply.issued + 1⟩ }

/-- Puts a row into the map or takes it out, unless the schedule makes that fail. -/
def write (site : Site) (key : String) (wanted : Option Correlation) :
    Outcome ListenerError Unit × Site :=
  if fails site.mappings.writes then
    (.error (.persistence MemoryStore.writeFailure),
      { site with mappings := site.mappings.lose key (wanted.map Correlation.encode) })
  else
    (.ok (), { site with mappings := site.mappings.replace key (wanted.map Correlation.encode) })

/-- A clock that has stopped at the start of 1970. -/
def stopped : Site → Time.Timestamp := fun _ => ⟨0, 0⟩

theorem isValid_stopped (site : Site) : (stopped site).IsValid := by
  have hepoch : (⟨0, 0⟩ : Time.Timestamp).IsValid := ⟨by decide, Or.inl (by decide)⟩
  exact hepoch

section Lookups

variable (site : Site) (id location key : String)

@[simp] theorem row?_note (call : AdapterCall) : (site.note call).row? key = site.row? key := rfl

@[simp] theorem row?_put : (site.put id location).row? key = site.row? key := rfl

@[simp] theorem row?_drop : (site.drop id).row? key = site.row? key := rfl

@[simp] theorem row?_issue : (site.issue location).row? key = site.row? key := rfl

@[simp] theorem record?_note (call : AdapterCall) :
    (site.note call).record? id = site.record? id := rfl

@[simp] theorem record?_put (other : String) :
    (site.put id location).record? other = if other = id then some location
      else site.record? other :=
  Table.get?_insert ..

@[simp] theorem record?_drop (other : String) :
    (site.drop id).record? other = if other = id then none else site.record? other :=
  Table.get?_erase ..

@[simp] theorem record?_issue (other : String) :
    (site.issue location).record? other =
      if other = site.nextId then some location else site.record? other :=
  Table.get?_insert ..

@[simp] theorem adapter_write (wanted : Option Correlation) :
    (site.write fails key wanted).2.adapter = site.adapter := by
  unfold write
  split <;> rfl

@[simp] theorem supply_write (wanted : Option Correlation) :
    (site.write fails key wanted).2.supply = site.supply := by
  unfold write
  split <;> rfl

@[simp] theorem record?_write (wanted : Option Correlation) :
    (site.write fails key wanted).2.record? id = site.record? id := by
  rw [record?, adapter_write, record?]

theorem lost_write (wanted : Option Correlation) :
    (site.write fails key wanted).2.mappings.lost =
      if fails site.mappings.writes then site.mappings.lost ++
        [⟨key, site.mappings.memory.blobs.get? key, wanted.map Correlation.encode⟩]
      else site.mappings.lost := by
  unfold write
  split <;> rfl

theorem row?_write {wanted : Option Correlation}
    (htime : ∀ row, wanted = some row → row.recordedAt.IsValid) (other : String) :
    (site.write fails key wanted).2.row? other =
      if fails site.mappings.writes = false ∧ other = key then wanted else site.row? other := by
  cases hfails : fails site.mappings.writes with
  | true => simp [write, hfails, row?, ScheduledStore.lose]
  | false =>
    cases wanted with
    | none =>
      simp only [write, hfails, Bool.false_eq_true, if_false, row?, ScheduledStore.replace,
        Option.map_none, Table.get?_erase, true_and]
      split <;> rfl
    | some row =>
      simp only [write, hfails, Bool.false_eq_true, if_false, row?, ScheduledStore.replace,
        Option.map_some, Table.get?_insert, true_and]
      split
      · exact Correlation.decode?_encode (htime row rfl)
      · rfl

end Lookups

end Site

end CatalogSync
