import CatalogSync.Proofs.Harvest.Poll
import CatalogSync.Proofs.Harvest.Surroundings
import CatalogSync.Proofs.Snapshot.Changes

namespace CatalogSync.Surroundings

open Harvester

variable {answers : Answers} {root : String}

/-- What was to be told has been told, unless the answer is an error. Nothing is stored by it. -/
structure Told (notices : List Notice) (world : World) (answer : Except StoreError Nat × World) :
    Prop where
  blobs : answer.2.blobs = world.blobs
  calls : ∃ told : List Notice, answer.2.calls = world.calls ++ told.map .notify ∧
    ∀ failures, answer.1 = .ok failures → told = notices

theorem told_nil (world : World) : Told [] world (.ok 0, world) := by
  refine ⟨rfl, [], ?_, ?_⟩
  · simp
  · intro _ _
    rfl

theorem told_countOf_tell (notice : Notice) (world : World) :
    Told [notice] world (countOf (tell answers notice) world) := by
  refine ⟨rfl, [notice], rfl, ?_⟩
  intro _ _
  rfl

theorem told_addCounts {first rest : StateM World (Except StoreError Nat)}
    {before after : List Notice} {world : World} (hfirst : Told before world (first world))
    (hrest : ∀ world, Told after world (rest world)) :
    Told (before ++ after) world (addCounts first rest world) := by
  obtain ⟨hblobs, told, hcalls, hall⟩ := hfirst
  rcases hanswer : first world with ⟨e | failed, middle⟩
  · rw [hanswer] at hblobs hcalls
    rw [addCounts_of_error hanswer]
    refine ⟨hblobs, told, hcalls, ?_⟩
    intro _ h
    cases h
  · rw [hanswer] at hblobs hcalls hall
    obtain ⟨hblobs', told', hcalls', hall'⟩ := hrest middle
    rw [addCounts_of_ok hanswer]
    have htold : told = before := hall failed rfl
    rcases hanswer' : rest middle with ⟨e | more, last⟩
    · rw [hanswer'] at hblobs' hcalls'
      refine ⟨hblobs'.trans hblobs, told ++ told', ?_, ?_⟩
      · rw [hcalls', hcalls, List.map_append, List.append_assoc]
      · intro _ h
        cases h
    · rw [hanswer'] at hblobs' hcalls' hall'
      refine ⟨hblobs'.trans hblobs, told ++ told', ?_, ?_⟩
      · rw [hcalls', hcalls, List.map_append, List.append_assoc]
      · intro _ _
        rw [htold, hall' more rfl]

theorem told_countAll (notices : List Notice) (world : World) :
    Told notices world (countAll (notices.map (tell answers)) world) := by
  induction notices generalizing world with
  | nil => exact told_nil world
  | cons notice notices ih => exact told_addCounts (told_countOf_tell notice world) ih

theorem deliver_eq_countAll (properties : Properties) (members : List ListenerId)
    (change : Change) :
    deliver (lister answers) root properties (members.map (listener answers)) change =
      countAll ((noticesOf answers root members change).map (tell answers)) := by
  obtain ⟨kind, path⟩ := change
  cases kind <;> simp only [deliver, callAll_eq_countAll, List.map_map, noticesOf]
  · have h := countAll_map_onWorld (members.map fun member =>
      tell answers ⟨member, .created, answers.locate root path⟩)
    rw [List.map_map] at h
    exact congrArg (fun call => Reading.run call _) h
  · have h := countAll_map_onWorld (members.map fun member =>
      tell answers ⟨member, .modified, answers.locate root path⟩)
    rw [List.map_map] at h
    exact congrArg (fun call => Reading.run call _) h
  · rfl

theorem told_deliverAll (properties : Properties) (members : List ListenerId)
    (changes : List Change) (world : World) :
    Told (changes.flatMap (noticesOf answers root members)) world
      (deliverAll (lister answers) root properties (members.map (listener answers)) changes
        world) := by
  induction changes generalizing world with
  | nil => exact told_nil world
  | cons change changes ih =>
    rw [deliverAll_cons, List.flatMap_cons]
    refine told_addCounts ?_ ih
    rw [deliver_eq_countAll]
    exact told_countAll _ world

/-- What a poll can do. -/
inductive Polled (answers : Answers) (stage : Stage) :
    Except HarvestError PollReport × Stage → Prop where
  | failed (e : HarvestError) (after : Stage) (hharvester : after.harvester = stage.harvester)
      (hblobs : after.world.blobs = stage.world.blobs) : Polled answers stage (.error e, after)
  | idle : Polled answers stage (.ok .ofIdle, stage)
  /-- The view of the tree is stored, unless it is the same as before. -/
  | completed (listing : List ListingEntry) (failures : Nat) (after : Stage) (last : List Call)
      (hrunning : stage.harvester.status = .polling)
      (hcalls : after.world.calls =
        stage.world.calls ++ ([.list stage.harvester.config.root (.ok listing)] ++
          ((diff stage.harvester.snapshot listing).changes.flatMap
            (noticesOf answers stage.harvester.config.root stage.harvester.members)).map .notify ++
          last))
      (hlast : noticesIn last = [])
      (hharvester : after.harvester =
        { stage.harvester with snapshot := some (Snapshot.ofListing listing) })
      (hblobs : after.world.blobs = stage.world.blobs.insert stage.harvester.snapshotKey
          (Snapshot.ofListing listing).encode ∨
        after.world.blobs = stage.world.blobs ∧
          stage.harvester.snapshot = some (Snapshot.ofListing listing)) :
      Polled answers stage
        (.ok (.ofDiff (diff stage.harvester.snapshot listing) failures), after)

theorem blobs_of_store_error {key : String} {blob : Bytes} {world after : World} {e : StoreError}
    (h : (store answers).store key blob world = (.error e, after)) : after.blobs = world.blobs := by
  simp only [store, write] at h
  split at h
  · cases h
    rfl
  · cases h

theorem store_ok {key : String} {blob : Bytes} {world after : World}
    (h : (store answers).store key blob world = (.ok (), after)) :
    after.blobs = world.blobs.insert key blob ∧ after.calls = world.calls ++ [.store key] := by
  simp only [store, write] at h
  split at h
  · cases h
  · cases h
    exact ⟨rfl, rfl⟩

theorem polled_commit {stage : Stage} {listing : List ListingEntry} {world : World} (failures : Nat)
    (hrunning : stage.harvester.status = .polling) (hblobs : world.blobs = stage.world.blobs)
    (hcalls : world.calls = stage.world.calls ++
      ([.list stage.harvester.config.root (.ok listing)] ++
        ((diff stage.harvester.snapshot listing).changes.flatMap
          (noticesOf answers stage.harvester.config.root stage.harvester.members)).map .notify)) :
    Polled answers stage (staged (commit (store answers) stage.harvester
      (diff stage.harvester.snapshot listing)
      (.ofDiff (diff stage.harvester.snapshot listing) failures) world)) := by
  rcases commit_cases (store answers) stage.harvester listing failures world with
    ⟨hsame, hcommit⟩ | ⟨e, after, hstore, hcommit⟩ | ⟨after, hstore, hcommit⟩
  · rw [hcommit]
    refine .completed listing failures _ [] hrunning ?_ rfl rfl (Or.inr ⟨hblobs, hsame⟩)
    rw [List.append_nil]
    exact hcalls
  · rw [hcommit]
    refine .failed _ _ rfl ?_
    rw [← hblobs]
    exact blobs_of_store_error hstore
  · rw [hcommit]
    obtain ⟨hafter, hlast⟩ := store_ok hstore
    refine .completed listing failures _ [.store stage.harvester.snapshotKey] hrunning ?_ rfl rfl
      (Or.inl ?_)
    · rw [← List.append_assoc, ← hcalls]
      exact hlast
    · rw [← hblobs]
      exact hafter

theorem polled_finishPoll {stage : Stage} (listed : Except ListerError (List ListingEntry))
    (hrunning : stage.harvester.status = .polling) :
    Polled answers stage (staged (finishPoll (lister answers) (store answers)
      (stage.harvester.members.map (listener answers)) stage.harvester stage.harvester.config.root
      listed (stage.world.note (.list stage.harvester.config.root listed)))) := by
  cases listed with
  | error e => exact .failed _ _ rfl rfl
  | ok listing =>
    have htold := @told_deliverAll answers stage.harvester.config.root stage.harvester.properties
      stage.harvester.members (diff stage.harvester.snapshot listing).changes
      (stage.world.note (.list stage.harvester.config.root (.ok listing)))
    rcases hanswer : deliverAll (lister answers) stage.harvester.config.root
      stage.harvester.properties (stage.harvester.members.map (listener answers))
      (diff stage.harvester.snapshot listing).changes
      (stage.world.note (.list stage.harvester.config.root (.ok listing)))
        with ⟨e | failures, middle⟩
    · rw [hanswer] at htold
      rw [finishPoll_of_aborted hanswer]
      exact .failed _ _ rfl htold.blobs
    · rw [hanswer] at htold
      rw [finishPoll_of_delivered hanswer]
      obtain ⟨hblobs, told, hcalls, hall⟩ := htold
      rw [hall failures rfl] at hcalls
      refine polled_commit failures hrunning hblobs ?_
      rw [hcalls, ← List.append_assoc]
      rfl

/-- A poll does one of these things, whatever the surroundings answer. -/
theorem polled_pollOnce (stage : Stage) : Polled answers stage (pollOnce answers stage) := by
  unfold pollOnce poll
  cases hbegin : stage.harvester.beginPoll with
  | notRunning => exact .failed _ _ rfl rfl
  | idle => exact .idle
  | listing root members =>
    obtain ⟨hrunning, rfl, rfl⟩ := beginPoll_listing hbegin
    exact polled_finishPoll _ hrunning

/-- What a start can do. Whatever it is, nothing is stored and nobody leaves. -/
structure Started (stage after : Stage) : Prop where
  blobs : after.world.blobs = stage.world.blobs
  config : after.harvester.config = stage.harvester.config
  members : after.harvester.members = stage.harvester.members
  running : after.harvester.status = .polling → after.harvester = stage.harvester ∨
    after.harvester.snapshotKey = persistenceKey stage.harvester.config.root ∧
    after.harvester.snapshot =
      storedSnapshot? (stage.world.blobs.get? (persistenceKey stage.harvester.config.root))

/-- What bringing up a harvester can do. It is either stopped or compares with what is stored. -/
inductive BroughtUp (h : Harvester) (world : World) :
    (Except HarvestError Unit × Harvester) × World → Prop where
  | failed (e : HarvestError) (key : String) (properties : Properties) (after : World)
      (hblobs : after.blobs = world.blobs) :
      BroughtUp h world ((.error e,
        { h with snapshotKey := key, properties := properties, status := .stopped }), after)
  | up (after : World) (hblobs : after.blobs = world.blobs) :
      BroughtUp h world ((.ok (),
        { h with
          snapshotKey := persistenceKey h.config.root
          properties := h.config.overrides.toProperties
          snapshot := storedSnapshot? (world.blobs.get? (persistenceKey h.config.root))
          status := .polling }), after)

theorem checkRoot_lister (root : String) (world : World) :
    (lister answers).checkRoot root world =
      (answers.checkRoot world.calls, world.note (.checkRoot root)) := rfl

theorem load_store (key : String) (world : World) :
    (store answers).load key world =
      match answers.loadError? world.calls with
      | some e => (.error e, world.note (.load key))
      | none => (.ok (world.blobs.get? key), world.note (.load key)) := rfl

theorem broughtUp_bringUp (h : Harvester) (world : World) :
    BroughtUp h world (bringUp (lister answers) (store answers) h world) := by
  unfold bringUp loadState
  cases h.config.validate with
  | error e => exact .failed _ h.snapshotKey h.properties world rfl
  | ok _ =>
    simp only [bind, StateT.bind, checkRoot_lister]
    cases answers.checkRoot world.calls with
    | error e => exact .failed _ h.snapshotKey h.properties _ rfl
    | ok _ =>
      simp only [StateT.bind, load_store]
      cases answers.loadError? (world.note (.checkRoot h.config.root)).calls with
      | some e => exact .failed _ _ _ _ rfl
      | none => exact .up _ rfl

theorem started_startOnce (stage : Stage) : Started stage (startOnce answers stage).2 := by
  unfold startOnce Harvester.start
  split
  · exact ⟨rfl, rfl, rfl, fun _ => Or.inl rfl⟩
  · have hbrought : BroughtUp stage.harvester stage.world _ := @broughtUp_bringUp answers _ _
    generalize bringUp (lister answers) (store answers) stage.harvester stage.world = answer
      at hbrought ⊢
    cases hbrought with
    | failed e key properties after hblobs => exact ⟨hblobs, rfl, rfl, nofun⟩
    | up after hblobs => exact ⟨hblobs, rfl, rfl, fun _ => Or.inr ⟨rfl, rfl⟩⟩

end CatalogSync.Surroundings
