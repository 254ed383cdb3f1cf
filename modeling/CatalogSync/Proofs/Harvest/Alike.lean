import CatalogSync.Proofs.Harvest.Steps

namespace CatalogSync

section Programs

variable {σ τ α β : Type}

/-- Programs that answer alike from states that belong together, and leave such states. -/
def Alike (R : σ → τ → Prop) (first : StateM σ α) (second : StateM τ α) : Prop :=
  ∀ s t, R s t → (first s).1 = (second t).1 ∧ R (first s).2 (second t).2

variable {R : σ → τ → Prop}

theorem alike_pure (a : α) : Alike R (pure a) (pure a) :=
  fun _ _ h => ⟨rfl, h⟩

theorem alike_bind {first : StateM σ α} {second : StateM τ α} {f : α → StateM σ β}
    {g : α → StateM τ β} (hfirst : Alike R first second) (hrest : ∀ a, Alike R (f a) (g a)) :
    Alike R (first >>= f) (second >>= g) := by
  intro s t h
  obtain ⟨hanswer, hstates⟩ := hfirst s t h
  have hlast := hrest (first s).1 _ _ hstates
  have hsecond : g (first s).1 (second t).2 = g (second t).1 (second t).2 := by
    rw [hanswer]
  rw [hsecond] at hlast
  exact hlast

end Programs

namespace Surroundings

open Harvester

/-- Two worlds belong together only if the surroundings give the same answers in them, and still
belong together when the same has been asked and stored in both. -/
structure Couples (R : World → World → Prop) (answers other : Answers) : Prop where
  note : ∀ {world twin}, R world twin → ∀ call, R (world.note call) (twin.note call)
  change : ∀ {world twin}, R world twin → ∀ blobs,
    R { world with blobs := blobs } { twin with blobs := blobs }
  blobs : ∀ {world twin}, R world twin → world.blobs = twin.blobs
  locate : answers.locate = other.locate
  checkRoot : ∀ {world twin}, R world twin →
    answers.checkRoot world.calls = other.checkRoot twin.calls
  list : ∀ {world twin}, R world twin → answers.list world.calls = other.list twin.calls
  loadError? : ∀ {world twin}, R world twin →
    answers.loadError? world.calls = other.loadError? twin.calls
  writeError? : ∀ {world twin}, R world twin →
    answers.writeError? world.calls = other.writeError? twin.calls
  notify : ∀ {world twin}, R world twin → answers.notify world.calls = other.notify twin.calls

variable {R : World → World → Prop} {answers other : Answers}

section Asking

theorem alike_tell (h : Couples R answers other) (notice : Notice) :
    Alike R (tell answers notice) (tell other notice) := by
  intro world twin hR
  have hnoted := h.note hR (.notify notice)
  exact ⟨h.notify hnoted, hnoted⟩

theorem alike_checkRoot (h : Couples R answers other) (root : String) :
    Alike R ((lister answers).checkRoot root) ((lister other).checkRoot root) :=
  fun _ _ hR => ⟨h.checkRoot hR, h.note hR _⟩

theorem alike_list (h : Couples R answers other) (root : String) :
    Alike R ((lister answers).list root) ((lister other).list root) := by
  intro world twin hR
  refine ⟨h.list hR, ?_⟩
  simp only [lister, h.list hR]
  exact h.note hR _

theorem alike_load (h : Couples R answers other) (key : String) :
    Alike R ((store answers).load key) ((store other).load key) := by
  intro world twin hR
  simp only [load_store, ← h.loadError? hR, h.blobs hR]
  cases answers.loadError? world.calls with
  | some e => exact ⟨rfl, h.note hR _⟩
  | none => exact ⟨rfl, h.note hR _⟩

theorem alike_store (h : Couples R answers other) (key : String) (blob : Bytes) :
    Alike R ((store answers).store key blob) ((store other).store key blob) := by
  intro world twin hR
  simp only [store, write, ← h.writeError? hR, ← h.blobs hR]
  cases answers.writeError? world.calls with
  | some e => exact ⟨rfl, h.note hR _⟩
  | none => exact ⟨rfl, h.change (h.note hR _) _⟩

end Asking

section Polls

theorem alike_addCounts {first second first' second' : StateM World (Except StoreError Nat)}
    (hfirst : Alike R first first') (hsecond : Alike R second second') :
    Alike R (addCounts first second) (addCounts first' second') := by
  refine alike_bind hfirst ?_
  rintro (e | failed)
  · exact alike_pure _
  · refine alike_bind hsecond ?_
    rintro (e | more)
    · exact alike_pure _
    · exact alike_pure _

theorem alike_countAll (h : Couples R answers other) (notices : List Notice) :
    Alike R (countAll (notices.map (tell answers))) (countAll (notices.map (tell other))) := by
  induction notices with
  | nil => exact alike_pure _
  | cons notice notices ih =>
    exact alike_addCounts (alike_bind (alike_tell h notice) fun _ => alike_pure _) ih

theorem alike_deliverAll (h : Couples R answers other) (root : String) (properties : Properties)
    (members : List ListenerId) (changes : List Change) :
    Alike R (deliverAll (lister answers) root properties (members.map (listener answers)) changes)
      (deliverAll (lister other) root properties (members.map (listener other)) changes) := by
  induction changes with
  | nil => exact alike_pure _
  | cons change changes ih =>
    have hnotices : noticesOf answers root members change =
      noticesOf other root members change := by
      rw [noticesOf, h.locate, noticesOf]
    rw [deliverAll_cons, deliverAll_cons, deliver_eq_countAll, deliver_eq_countAll, hnotices]
    exact alike_addCounts (alike_countAll h _) ih

theorem alike_commit (h : Couples R answers other) (harvester : Harvester) (changes : Diff)
    (report : PollReport) :
    Alike R (commit (store answers) harvester changes report)
      (commit (store other) harvester changes report) := by
  unfold commit
  split
  · exact alike_pure _
  · refine alike_bind (alike_store h _ _) ?_
    rintro (e | _)
    · exact alike_pure _
    · exact alike_pure _

theorem alike_poll (h : Couples R answers other) (harvester : Harvester) :
    Alike R (poll (lister answers) (store answers) (listener answers) harvester)
      (poll (lister other) (store other) (listener other) harvester) := by
  unfold poll
  cases harvester.beginPoll with
  | notRunning | idle => exact alike_pure _
  | listing root members =>
    refine alike_bind (alike_list h root) ?_
    rintro (e | listing)
    · exact alike_pure _
    · refine alike_bind (alike_deliverAll h _ _ _ _) ?_
      rintro (e | failures)
      · exact alike_pure _
      · exact alike_commit h _ _ _

end Polls

section Lifecycle

theorem alike_loadState (h : Couples R answers other) (harvester : Harvester) :
    Alike R (loadState (lister answers) (store answers) harvester)
      (loadState (lister other) (store other) harvester) := by
  unfold loadState
  cases harvester.config.validate with
  | error e => exact alike_pure _
  | ok _ =>
    refine alike_bind (alike_checkRoot h _) ?_
    rintro (e | _)
    · exact alike_pure _
    · refine alike_bind (alike_load h _) ?_
      rintro (e | blob)
      · exact alike_pure _
      · exact alike_pure _

theorem alike_bringUp (h : Couples R answers other) (harvester : Harvester) :
    Alike R (bringUp (lister answers) (store answers) harvester)
      (bringUp (lister other) (store other) harvester) := by
  refine alike_bind (alike_loadState h _) ?_
  rintro ⟨_ | _, after⟩
  · exact alike_pure _
  · exact alike_pure _

theorem alike_start (h : Couples R answers other) (harvester : Harvester) :
    Alike R (start (lister answers) (store answers) harvester)
      (start (lister other) (store other) harvester) := by
  unfold start
  split
  · exact alike_pure _
  · exact alike_bringUp h harvester

theorem alike_applyConfig (h : Couples R answers other) (harvester : Harvester)
    (config : HarvesterConfig) :
    Alike R (applyConfig (lister answers) (store answers) harvester config)
      (applyConfig (lister other) (store other) harvester config) := by
  unfold applyConfig
  split
  · exact alike_bringUp h _
  · exact alike_pure _

theorem alike_reconfigure (h : Couples R answers other) (harvester : Harvester)
    (config : HarvesterConfig) :
    Alike R (reconfigure (lister answers) (store answers) harvester config)
      (reconfigure (lister other) (store other) harvester config) := by
  unfold reconfigure
  cases harvester.checkConfig config with
  | error e => exact alike_pure _
  | ok _ => exact alike_applyConfig h harvester config

end Lifecycle

end Surroundings

end CatalogSync
