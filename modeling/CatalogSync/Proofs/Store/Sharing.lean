import CatalogSync.Proofs.Disk.Databases
import CatalogSync.Proofs.Store.Refinement
import CatalogSync.Simulation.Workbench

/-!
Stores that share the file of one database. They are opened for any namespaces, asked, closed and
opened again, in any order. Main statement: every answer is the one that a store in memory for each
namespace gives, and no namespace notices what is done in another.
-/

namespace CatalogSync

/-- What can be done with the stores in one database, each of which goes by a label while it is
open. -/
inductive StoreAct where
  | openAs (label namespaceName : String)
  | close (label : String)
  | ask (label : String) (call : StoreCall)

inductive ActReply where
  | opened (result : Except StoreError Unit)
  | closed
  | answered (reply : StoreReply)
  /-- Nothing is open under the label. -/
  | unknown

def StoreAct.label : StoreAct → String
  | openAs label _ => label
  | close label => label
  | ask label _ => label

/-- The replies to acts, one after the other. -/
def replies {σ : Type} (perform : StoreAct → StateM σ ActReply) :
    List StoreAct → StateM σ (List ActReply)
  | [], state => ([], state)
  | act :: rest, state =>
    let (reply, next) := perform act state
    let (others, final) := replies perform rest next
    (reply :: others, final)

/-- A store in memory for every namespace, and the namespaces of the stores that are open. -/
structure Memories where
  namespaces : Table String
  memory : String → MemoryStore

namespace Memories

def part (namespaceName : String) : Part Memories MemoryStore where
  get := fun memories => memories.memory namespaceName
  set := fun store memories =>
    { memories with memory := Function.update memories.memory namespaceName store }

/-- Opening and closing changes nothing but the labels. -/
def perform : StoreAct → StateM Memories ActReply
  | .openAs label namespaceName => fun memories =>
    (.opened (.ok ()),
      { memories with namespaces := memories.namespaces.insert label namespaceName })
  | .close label => fun memories =>
    (.closed, { memories with namespaces := memories.namespaces.erase label })
  | .ask label call => do
    match (← get).namespaces.get? label with
    | none => return .unknown
    | some namespaceName =>
      return .answered (← (MemoryStore.blobStore.over (part namespaceName)).serve call)

variable {memories : Memories} {label namespaceName : String}

theorem perform_ask_unknown (h : memories.namespaces.get? label = none) (call : StoreCall) :
    perform (.ask label call) memories = (.unknown, memories) := by
  simp only [perform, bind, StateT.bind, get, getThe, MonadStateOf.get, StateT.get, pure, h]
  rfl

theorem perform_ask (h : memories.namespaces.get? label = some namespaceName)
    (call : StoreCall) :
    perform (.ask label call) memories =
      (.answered (MemoryStore.blobStore.serve call (memories.memory namespaceName)).1,
        { memories with
          memory := Function.update memories.memory namespaceName
            (MemoryStore.blobStore.serve call (memories.memory namespaceName)).2 }) := by
  simp only [perform, bind, StateT.bind, get, getThe, MonadStateOf.get, StateT.get, pure, h]
  rw [BlobStore.serve_over]
  rfl

/-- An act on another namespace leaves both the label and the memory of a namespace as they are. -/
theorem kept_of_ne (memories : Memories) (act : StoreAct) {label : String}
    (h : memories.namespaces.get? act.label ≠ memories.namespaces.get? label) :
    (perform act memories).2.namespaces.get? label = memories.namespaces.get? label ∧
      ∀ namespaceName, memories.namespaces.get? label = some namespaceName →
        (perform act memories).2.memory namespaceName = memories.memory namespaceName := by
  have hlabel : label ≠ act.label := by
    rintro rfl
    exact h rfl
  cases act with
  | openAs other namespaceName =>
    exact ⟨(Table.get?_insert _ _ _ _).trans (if_neg hlabel), fun _ _ => rfl⟩
  | close other => exact ⟨(Table.get?_erase _ _ _).trans (if_neg hlabel), fun _ _ => rfl⟩
  | ask other call =>
    cases hother : memories.namespaces.get? other with
    | none =>
      rw [perform_ask_unknown hother]
      exact ⟨rfl, fun _ _ => rfl⟩
    | some namespaceName =>
      rw [perform_ask hother]
      refine ⟨rfl, fun namespaceName' hnamespace => Function.update_of_ne ?_ _ _⟩
      rintro rfl
      exact h (hother.trans hnamespace.symm)

theorem perform_ask_of_ne (memories : Memories) (act : StoreAct) {label : String}
    (h : memories.namespaces.get? act.label ≠ memories.namespaces.get? label) (call : StoreCall) :
    (perform (.ask label call) (perform act memories).2).1 =
      (perform (.ask label call) memories).1 := by
  obtain ⟨hlabel, hmemory⟩ := kept_of_ne memories act h
  cases hnamespace : memories.namespaces.get? label with
  | none => rw [perform_ask_unknown hnamespace, perform_ask_unknown (hlabel.trans hnamespace)]
  | some namespaceName =>
    rw [perform_ask hnamespace, perform_ask (hlabel.trans hnamespace),
      hmemory namespaceName hnamespace]

/-- Nothing is open, and the namespaces are those of a database. -/
def ofDatabase (database : Database) : Memories :=
  ⟨Table.empty, database.memoryIn⟩

end Memories

namespace Simulation.Workbench

/-- An act on the stores in the database of a name. -/
def perform (database : String) : StoreAct → StateM Workbench ActReply
  | .openAs label namespaceName => do
    return .opened (← openStore label database namespaceName)
  | .close label => do
    closeStore label
    return .closed
  | .ask label call => do
    match (← get).stores.get? label with
    | none => return .unknown
    | some ref => return .answered (← onBench (ref.blobStore.serve call))

variable (w : Workbench)

def disk : Disk := w.world.bench.disk

def withDisk (disk : Disk) : Workbench :=
  { w with world := { w.world with bench := { w.world.bench with disk := disk } } }

theorem perform_openAs {database : String} {connection : Connection} {opened : Disk}
    (h : Disk.openBlobs (Bytes.ofText database) w.disk = (.ok connection, opened))
    (label namespaceName : String) :
    ∃ isUsed, perform database (.openAs label namespaceName) w =
      (.opened (.ok ()),
        { w.withDisk (opened.closeUnused isUsed) with
          stores := w.stores.insert label (StoreRef.ofConnection connection namespaceName) }) := by
  have hbench : Disk.openBlobs (Bytes.ofText database) (Bench.diskPart.get w.world.bench) =
      (.ok connection, opened) := h
  simp only [perform, openStore, onDisk, onBench, onWorld, World.onBench, Part.lift, bind,
    StateT.bind, hbench]
  exact ⟨_, rfl⟩

theorem perform_close (database label : String) :
    ∃ isUsed, perform database (.close label) w =
      (.closed,
        { w.withDisk (w.disk.closeUnused isUsed) with stores := w.stores.erase label }) :=
  ⟨_, rfl⟩

theorem perform_ask_unknown {label : String} (h : w.stores.get? label = none)
    (database : String) (call : StoreCall) :
    perform database (.ask label call) w = (.unknown, w) := by
  simp only [perform, bind, StateT.bind, get, getThe, MonadStateOf.get, StateT.get, pure, h]
  rfl

theorem perform_ask {label namespaceName : String} {number : Nat}
    (h : w.stores.get? label = some (.database number namespaceName false)) (database : String)
    (call : StoreCall) :
    perform database (.ask label call) w =
      (.answered ((Database.blobStore namespaceName).serve call
          ((Disk.database number).get w.disk)).1,
        w.withDisk ((Disk.database number).lift
          ((Database.blobStore namespaceName).serve call) w.disk).2) := by
  simp only [perform, bind, StateT.bind, get, getThe, MonadStateOf.get, StateT.get, pure, h]
  simp only [StoreRef.blobStore, Bool.false_eq_true, if_false, BlobStore.serve_over]
  rfl

end Simulation.Workbench

open Disk Simulation

/-- A workbench shows the same stores as memories do. Before the first opening the disk is as it
was. -/
structure Mirrors (name : Bytes) (names : List Bytes) (number : Nat) (start : Disk)
    (w : Workbench) (memories : Memories) : Prop where
  stores : ∀ label, w.stores.get? label =
    (memories.namespaces.get? label).map fun namespaceName => .database number namespaceName false
  database : (w.disk = start ∧ memories.namespaces = Table.empty ∧
      memories.memory = ((Disk.database number).get (openBlobs name start).2).memoryIn) ∨
    (AtRest (openBlobs name start).2 names number w.disk ∧
      memories.memory = ((Disk.database number).get w.disk).memoryIn)

section Sharing

variable {database : String} {names : List Bytes} {number : Nat} {start : Disk}
variable (h : Accommodates (Bytes.ofText database) names number start)

include h

theorem perform_mirrors (act : StoreAct) {w : Workbench} {memories : Memories}
    (hmirrors : Mirrors (Bytes.ofText database) names number start w memories) :
    (Workbench.perform database act w).1 = (Memories.perform act memories).1 ∧
      Mirrors (Bytes.ofText database) names number start (Workbench.perform database act w).2
        (Memories.perform act memories).2 := by
  obtain ⟨hstores, hdatabase⟩ := hmirrors
  cases act with
  | openAs label namespaceName =>
    have hopens : ∃ opened, openBlobs (Bytes.ofText database) w.disk =
        (.ok ⟨number, some names, false⟩, opened) ∧
        AtRest (openBlobs (Bytes.ofText database) start).2 names number opened ∧
        memories.memory = ((Disk.database number).get opened).memoryIn := by
      rcases hdatabase with ⟨hdisk, -, hmemory⟩ | ⟨hrest, hmemory⟩
      · exact ⟨_, Prod.ext (hdisk ▸ h.opens) rfl, hdisk ▸ h.atRest, hdisk ▸ hmemory⟩
      · obtain ⟨opened, hopened, hrest', hsame⟩ := hrest.openBlobs h.hasOpened
        exact ⟨opened, hopened, hrest', hsame ▸ hmemory⟩
    obtain ⟨opened, hopened, hrest, hmemory⟩ := hopens
    obtain ⟨isUsed, hperform⟩ := w.perform_openAs hopened label namespaceName
    obtain ⟨hrest', hsame⟩ := hrest.closeUnused h.hasOpened.hasBeside isUsed
    rw [hperform]
    refine ⟨rfl, fun other => ?_, Or.inr ⟨hrest', hmemory.trans (congrArg _ hsame.symm)⟩⟩
    simp only [Memories.perform, Table.get?_insert, hstores other]
    split <;> rfl
  | close label =>
    obtain ⟨isUsed, hperform⟩ := w.perform_close database label
    rw [hperform]
    refine ⟨rfl, fun other => ?_, ?_⟩
    · simp only [Memories.perform, Table.get?_erase, hstores other]
      split <;> rfl
    · rcases hdatabase with ⟨hdisk, hnamespaces, hmemory⟩ | ⟨hrest, hmemory⟩
      · refine Or.inl ⟨?_, congrArg (Table.erase · label) hnamespaces, hmemory⟩
        exact hdisk ▸ h.isClosed.closeUnused isUsed
      · obtain ⟨hrest', hsame⟩ := hrest.closeUnused h.hasOpened.hasBeside isUsed
        exact Or.inr ⟨hrest', hmemory.trans (congrArg _ hsame.symm)⟩
  | ask label call =>
    cases hlabel : memories.namespaces.get? label with
    | none =>
      rw [w.perform_ask_unknown (by rw [hstores, hlabel]; rfl)]
      rw [Memories.perform_ask_unknown hlabel]
      exact ⟨rfl, hstores, hdatabase⟩
    | some namespaceName =>
      rw [w.perform_ask (by rw [hstores, hlabel]; rfl), Memories.perform_ask hlabel]
      rcases hdatabase with ⟨-, hnamespaces, -⟩ | ⟨hrest, hmemory⟩
      · rw [hnamespaces] at hlabel
        cases hlabel
      · obtain ⟨hreply, heffect⟩ := Database.serve_blobStore
          ((Disk.database number).get w.disk) namespaceName call
        obtain ⟨hrest', hsame⟩ := hrest.lift ((Database.blobStore namespaceName).serve call)
        rw [hmemory]
        refine ⟨congrArg ActReply.answered hreply, hstores, Or.inr ⟨hrest', ?_⟩⟩
        exact heffect.symm.trans (congrArg _ hsame.symm)

theorem replies_mirrors (acts : List StoreAct) {w : Workbench} {memories : Memories}
    (hmirrors : Mirrors (Bytes.ofText database) names number start w memories) :
    (replies (Workbench.perform database) acts w).1 =
        (replies Memories.perform acts memories).1 ∧
      Mirrors (Bytes.ofText database) names number start
        (replies (Workbench.perform database) acts w).2
        (replies Memories.perform acts memories).2 := by
  induction acts generalizing w memories with
  | nil => exact ⟨rfl, hmirrors⟩
  | cons act rest ih =>
    obtain ⟨hreply, hnext⟩ := perform_mirrors h act hmirrors
    obtain ⟨hreplies, hfinal⟩ := ih hnext
    exact ⟨congrArg₂ List.cons hreply hreplies, hfinal⟩

end Sharing

/-- Stores that share the file of a database answer as stores in memory do of which there is one for
every namespace, whatever is opened, asked and closed, and in what order. What is done through other
namespaces than that of a store never changes an answer that it gives. -/
theorem stores_answer_as_memories {database : String} {names : List Bytes} {number : Nat}
    {start : Disk} (h : Accommodates (Bytes.ofText database) names number start)
    (acts : List StoreAct) :
    let memories := Memories.ofDatabase
      ((Disk.database number).get (openBlobs (Bytes.ofText database) start).2)
    let w := Workbench.start start
    (replies (Workbench.perform database) acts w).1 =
        (replies Memories.perform acts memories).1 ∧
      ∀ act label call,
        let namespaces := (replies Memories.perform acts memories).2.namespaces
        let after := (replies (Workbench.perform database) acts w).2
        namespaces.get? act.label ≠ namespaces.get? label →
          (Workbench.perform database (.ask label call)
            (Workbench.perform database act after).2).1 =
          (Workbench.perform database (.ask label call) after).1 := by
  intro memories w
  have hstart : Mirrors (Bytes.ofText database) names number start w memories :=
    ⟨fun _ => rfl, Or.inl ⟨rfl, rfl, rfl⟩⟩
  obtain ⟨hreplies, hafter⟩ := replies_mirrors h acts hstart
  refine ⟨hreplies, fun act label call hother => ?_⟩
  obtain ⟨-, hacted⟩ := perform_mirrors h act hafter
  rw [(perform_mirrors h (.ask label call) hacted).1,
    (perform_mirrors h (.ask label call) hafter).1]
  exact Memories.perform_ask_of_ne _ act hother call

theorem accommodates_start : Accommodates (Bytes.ofText "../data/stores")
    [Bytes.ofText "data", Bytes.ofText "stores"] 0 (Disk.start "/work" "/data") := by
  have hnone : (Disk.start "/work" "/data").databases = [] := by decide +kernel
  have hone : (openBlobs (Bytes.ofText "../data/stores")
      (Disk.start "/work" "/data")).2.databases.length = 1 := by decide +kernel
  refine ⟨⟨fun file hfile => ?_, by decide +kernel⟩, by decide +kernel,
    by rw [hone]; exact Nat.one_pos, by decide +kernel⟩
  rw [hnone] at hfile
  cases hfile

theorem reopened_stores_answer_as_memories :
    let acts : List StoreAct :=
      [.close "a", .openAs "a" "snapshots", .ask "a" (.store "k" [1]), .openAs "b" "snapshots",
        .openAs "c" "listener", .ask "c" (.store "k" []), .close "a", .ask "b" (.load "k"),
        .close "b", .close "c", .ask "c" .keys, .openAs "b" "listener", .openAs "a" "snapshots"]
    let start := Disk.start "/work" "/data"
    let memories := Memories.ofDatabase
      ((Disk.database 0).get (openBlobs (Bytes.ofText "../data/stores") start).2)
    let done := replies (Workbench.perform "../data/stores") acts (Workbench.start start)
    Accommodates (Bytes.ofText "../data/stores") [Bytes.ofText "data", Bytes.ofText "stores"] 0
        start ∧
      done.1 = (replies Memories.perform acts memories).1 ∧
      (Workbench.perform "../data/stores" (.ask "b" (.load "k"))
          (Workbench.perform "../data/stores" (.ask "a" (.delete "k")) done.2).2).1 =
        (Workbench.perform "../data/stores" (.ask "b" (.load "k")) done.2).1 := by
  intro acts start memories done
  obtain ⟨hreplies, hothers⟩ := stores_answer_as_memories accommodates_start acts
  refine ⟨accommodates_start, hreplies, hothers (.ask "a" (.delete "k")) "b" (.load "k") ?_⟩
  have ha : (replies Memories.perform acts memories).2.namespaces.get? "a" = some "snapshots" :=
    rfl
  have hb : (replies Memories.perform acts memories).2.namespaces.get? "b" = some "listener" :=
    rfl
  rw [StoreAct.label, ha, hb]
  decide

end CatalogSync
