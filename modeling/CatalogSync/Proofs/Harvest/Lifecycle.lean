import CatalogSync.Proofs.Harvest.Alike

namespace CatalogSync.Surroundings

open Harvester

/-- What a harvester can be told by those who own it. -/
inductive Command where
  | start
  | stop
  | reconfigure (config : HarvesterConfig)
  | register (listener : ListenerId) (name : String)
  | unregister (listener : ListenerId)
  | poll

inductive Reply where
  | done (result : Except HarvestError Unit)
  | polled (result : Except HarvestError PollReport)

section Run

variable (answers : Answers)

def reconfigureOnce (stage : Stage) (config : HarvesterConfig) : Except HarvestError Unit × Stage :=
  staged (stage.harvester.reconfigure (lister answers) (store answers) config stage.world)

def obey (stage : Stage) : Command → Reply × Stage
  | .start => (.done (startOnce answers stage).1, (startOnce answers stage).2)
  | .stop => (.done (.ok ()), { stage with harvester := stage.harvester.stop })
  | .reconfigure config =>
    (.done (reconfigureOnce answers stage config).1, (reconfigureOnce answers stage config).2)
  | .register member name =>
    match stage.harvester.register member name with
    | .ok harvester => (.done (.ok ()), { stage with harvester := harvester })
    | .error e => (.done (.error e), stage)
  | .unregister member =>
    (.done (.ok ()), { stage with harvester := stage.harvester.unregister member })
  | .poll => (.polled (pollOnce answers stage).1, (pollOnce answers stage).2)

def obeyAll (stage : Stage) (commands : List Command) : Stage :=
  commands.foldl (fun stage command => (obey answers stage command).2) stage

def replies : Stage → List Command → List Reply
  | _, [] => []
  | stage, command :: commands =>
    (obey answers stage command).1 :: replies (obey answers stage command).2 commands

end Run

/-- What a harvester that polls goes by is what its configuration and the store say. -/
structure Consistent (stage : Stage) : Prop where
  running : stage.harvester.status = .polling →
    stage.harvester.snapshotKey = persistenceKey stage.harvester.config.root ∧
    stage.harvester.properties = stage.harvester.config.overrides.toProperties ∧
    stage.harvester.snapshot =
      storedSnapshot? (stage.world.blobs.get? stage.harvester.snapshotKey)
  resting : stage.harvester.status ≠ .polling → stage.harvester.snapshot = none
  adopted : stage.harvester.policy = stage.harvester.config.policy ∧
    stage.harvester.interval = stage.harvester.config.interval

/-- What becomes of the store: nothing, or it gets the view of a listing of the root, under the key
of the root. -/
inductive Writes (stage after : Stage) : Prop where
  | nothing (hblobs : after.world.blobs = stage.world.blobs)
  | view (listing : List ListingEntry)
      (hlisted : .list stage.harvester.config.root (.ok listing) ∈
        after.world.calls.drop stage.world.calls.length)
      (hblobs : after.world.blobs = stage.world.blobs.insert
        (persistenceKey stage.harvester.config.root) (Snapshot.ofListing listing).encode)

variable {answers : Answers} {stage : Stage}

theorem consistent_ofConfig (config : HarvesterConfig) (world : World) :
    Consistent ⟨.ofConfig config, world⟩ := by
  refine ⟨?_, fun _ => rfl, rfl, rfl⟩
  intro hrunning
  cases hrunning

theorem eq_of_register {h after : Harvester} {member : ListenerId} {name : String}
    (hregister : h.register member name = .ok after) :
    ∃ members, after = { h with members := members } := by
  unfold register at hregister
  split at hregister
  · cases hregister
    exact ⟨h.members, rfl⟩
  · split at hregister
    · cases hregister
    · cases hregister
      exact ⟨_, rfl⟩

inductive Obeyed (answers : Answers) (stage : Stage) : Command → Reply × Stage → Prop where
  | refused (command : Command) (e : HarvestError) :
      Obeyed answers stage command (.done (.error e), stage)
  | running (hrunning : stage.harvester.status = .polling) :
      Obeyed answers stage .start (.done (.ok ()), stage)
  | started (answer : (Except HarvestError Unit × Harvester) × World)
      (hresting : stage.harvester.status ≠ .polling)
      (hbrought : BroughtUp stage.harvester stage.world answer) :
      Obeyed answers stage .start (.done (staged answer).1, (staged answer).2)
  | stopped : Obeyed answers stage .stop
      (.done (.ok ()), { stage with harvester := stage.harvester.stop })
  | adopted (config : HarvesterConfig) (answer : (Except HarvestError Unit × Harvester) × World)
      (hbrought : BroughtUp (stage.harvester.adopt config) stage.world answer) :
      Obeyed answers stage (.reconfigure config) (.done (staged answer).1, (staged answer).2)
  | registered (member : ListenerId) (name : String) (members : List ListenerId) :
      Obeyed answers stage (.register member name)
        (.done (.ok ()), { stage with harvester := { stage.harvester with members := members } })
  | unregistered (member : ListenerId) : Obeyed answers stage (.unregister member)
      (.done (.ok ()), { stage with harvester := stage.harvester.unregister member })
  | polled (answer : Except HarvestError PollReport × Stage)
      (hpolled : Polled answers stage answer) :
      Obeyed answers stage .poll (.polled answer.1, answer.2)

theorem obeyed_start (stage : Stage) : Obeyed answers stage .start (obey answers stage .start) := by
  rw [obey, startOnce, Harvester.start]
  split
  · rename_i hrunning
    exact .running hrunning
  · rename_i hresting
    exact .started _ hresting (broughtUp_bringUp _ _)

theorem obeyed_reconfigure (stage : Stage) (config : HarvesterConfig) :
    Obeyed answers stage (.reconfigure config) (obey answers stage (.reconfigure config)) := by
  rw [obey, reconfigureOnce, reconfigure]
  cases stage.harvester.checkConfig config with
  | error e => exact .refused _ e
  | ok _ =>
    cases hpolicy : stage.harvester.admitsPolicy config.policy with
    | false =>
      simp only [applyConfig, hpolicy, Bool.false_eq_true, if_false]
      exact .refused _ _
    | true =>
      simp only [applyConfig, hpolicy, if_true]
      exact .adopted config _ (broughtUp_bringUp _ _)

theorem obeyed_obey (stage : Stage) (command : Command) :
    Obeyed answers stage command (obey answers stage command) := by
  cases command with
  | start => exact obeyed_start stage
  | stop => exact .stopped
  | reconfigure config => exact obeyed_reconfigure stage config
  | register member name =>
    rw [obey]
    cases hregister : stage.harvester.register member name with
    | error e => exact .refused _ e
    | ok after =>
      obtain ⟨members, rfl⟩ := eq_of_register hregister
      exact .registered member name members
  | unregister member => exact .unregistered member
  | poll => exact .polled _ (polled_pollOnce stage)

theorem consistent_of_broughtUp {h : Harvester} {world : World}
    {answer : (Except HarvestError Unit × Harvester) × World} (hresting : h.snapshot = none)
    (hadopted : h.policy = h.config.policy ∧ h.interval = h.config.interval)
    (hbrought : BroughtUp h world answer) : Consistent (staged answer).2 := by
  cases hbrought with
  | failed e key properties after hblobs => exact ⟨nofun, fun _ => hresting, hadopted⟩
  | up after hblobs =>
    refine ⟨fun _ => ⟨rfl, rfl, ?_⟩, fun hresting => absurd rfl hresting, hadopted⟩
    exact congrArg (fun blobs => storedSnapshot? (Table.get? blobs _)) hblobs.symm

theorem consistent_of_polled {answer : Except HarvestError PollReport × Stage}
    (h : Consistent stage) (hpolled : Polled answers stage answer) : Consistent answer.2 := by
  cases hpolled with
  | failed e after hharvester hblobs =>
    refine ⟨?_, ?_, ?_⟩
    · rw [hharvester, hblobs]
      exact h.running
    · rw [hharvester]
      exact h.resting
    · rw [hharvester]
      exact h.adopted
  | idle => exact h
  | completed listing failures after last hrunning hcalls hlast hharvester hblobs =>
    obtain ⟨hkey, hproperties, hsnapshot⟩ := h.running hrunning
    refine ⟨?_, ?_, ?_⟩
    · intro _
      rw [hharvester]
      refine ⟨hkey, hproperties, ?_⟩
      rcases hblobs with hblobs | ⟨hblobs, hsame⟩
      · rw [hblobs, Table.get?_insert, if_pos rfl]
        exact (storedSnapshot?_encode (some (.ofListing listing))).symm
      · rw [hblobs, ← hsnapshot, hsame]
    · rw [hharvester]
      intro hresting
      exact absurd hrunning hresting
    · rw [hharvester]
      exact h.adopted

theorem consistent_obey (h : Consistent stage) (command : Command) :
    Consistent (obey answers stage command).2 := by
  have hobeyed := @obeyed_obey answers stage command
  generalize obey answers stage command = answer at hobeyed ⊢
  cases hobeyed with
  | refused | running => exact h
  | started answer hresting hbrought =>
    exact consistent_of_broughtUp (h.resting hresting) h.adopted hbrought
  | stopped => exact ⟨nofun, fun _ => rfl, h.adopted⟩
  | adopted config answer hbrought => exact consistent_of_broughtUp rfl ⟨rfl, rfl⟩ hbrought
  | registered | unregistered => exact ⟨h.running, h.resting, h.adopted⟩
  | polled answer hpolled => exact consistent_of_polled h hpolled

theorem consistent_obeyAll (h : Consistent stage) (commands : List Command) :
    Consistent (obeyAll answers stage commands) := by
  induction commands generalizing stage with
  | nil => exact h
  | cons command commands ih => exact ih (consistent_obey h command)

section Twins

def Twins (R : World → World → Prop) (stage twin : Stage) : Prop :=
  stage.harvester = twin.harvester ∧ R stage.world twin.world

variable {R : World → World → Prop} {other : Answers} {twin : Stage}

theorem twins_staged {α : Type} {first second : StateM World (α × Harvester)}
    (halike : Alike R first second) {world world' : World} (hR : R world world') :
    (staged (first world)).1 = (staged (second world')).1 ∧
      Twins R (staged (first world)).2 (staged (second world')).2 := by
  obtain ⟨hanswer, hworlds⟩ := halike world world' hR
  obtain ⟨hresult, hharvester⟩ := Prod.ext_iff.mp hanswer
  exact ⟨hresult, hharvester, hworlds⟩

theorem twins_obey (h : Couples R answers other) (htwins : Twins R stage twin) (command : Command) :
    (obey answers stage command).1 = (obey other twin command).1 ∧
      Twins R (obey answers stage command).2 (obey other twin command).2 := by
  obtain ⟨harvester, world⟩ := stage
  obtain ⟨_, world'⟩ := twin
  obtain ⟨rfl, hR⟩ := htwins
  cases command with
  | start =>
    obtain ⟨hanswer, hafter⟩ := twins_staged (alike_start h harvester) hR
    exact ⟨congrArg Reply.done hanswer, hafter⟩
  | stop | unregister => exact ⟨rfl, rfl, hR⟩
  | reconfigure config =>
    obtain ⟨hanswer, hafter⟩ := twins_staged (alike_reconfigure h harvester config) hR
    exact ⟨congrArg Reply.done hanswer, hafter⟩
  | register member name =>
    simp only [obey]
    cases harvester.register member name <;> exact ⟨rfl, rfl, hR⟩
  | poll =>
    obtain ⟨hanswer, hafter⟩ := twins_staged (alike_poll h harvester) hR
    exact ⟨congrArg Reply.polled hanswer, hafter⟩

theorem twins_obeyAll (h : Couples R answers other) (htwins : Twins R stage twin)
    (commands : List Command) :
    replies answers stage commands = replies other twin commands ∧
      Twins R (obeyAll answers stage commands) (obeyAll other twin commands) := by
  induction commands generalizing stage twin with
  | nil => exact ⟨rfl, htwins⟩
  | cons command commands ih =>
    obtain ⟨hreply, hafter⟩ := twins_obey h htwins command
    obtain ⟨hreplies, hlast⟩ := ih hafter
    rw [replies, replies, hreply, hreplies]
    exact ⟨rfl, hlast⟩

theorem couples_self (calls : List Call) :
    Couples (fun world twin => world = twin ∧ calls <+: world.calls) answers answers := by
  constructor
  case note =>
    rintro world _ ⟨rfl, hcalls⟩ call
    exact ⟨rfl, hcalls.trans (List.prefix_append _ _)⟩
  case change =>
    rintro world _ ⟨rfl, hcalls⟩ blobs
    exact ⟨rfl, hcalls⟩
  case locate => rfl
  all_goals
    rintro world _ ⟨rfl, -⟩
    rfl

theorem calls_obey (stage : Stage) (command : Command) :
    stage.world.calls <+: (obey answers stage command).2.world.calls := by
  have htwins : Twins (fun world twin => world = twin ∧ stage.world.calls <+: world.calls) stage
    stage := ⟨rfl, rfl, List.prefix_rfl⟩
  obtain ⟨-, -, -, hcalls⟩ := twins_obey (@couples_self answers stage.world.calls) htwins command
  exact hcalls

end Twins

section Stored

theorem blobs_of_broughtUp {h : Harvester} {world : World}
    {answer : (Except HarvestError Unit × Harvester) × World}
    (hbrought : BroughtUp h world answer) : answer.2.blobs = world.blobs := by
  cases hbrought with
  | failed _ _ _ _ hblobs => exact hblobs
  | up _ hblobs => exact hblobs

theorem writes_of_polled {answer : Except HarvestError PollReport × Stage} (h : Consistent stage)
    (hpolled : Polled answers stage answer) : Writes stage answer.2 := by
  cases hpolled with
  | failed e after hharvester hblobs => exact .nothing hblobs
  | idle => exact .nothing rfl
  | completed listing failures after last hrunning hcalls hlast hharvester hblobs =>
    rcases hblobs with hblobs | ⟨hblobs, -⟩
    · rw [(h.running hrunning).1] at hblobs
      refine .view listing ?_ hblobs
      rw [hcalls, List.drop_left]
      exact List.mem_append_left _ (List.mem_append_left _ List.mem_cons_self)
    · exact .nothing hblobs

theorem writes_obey (h : Consistent stage) (command : Command) :
    Writes stage (obey answers stage command).2 := by
  have hobeyed := @obeyed_obey answers stage command
  generalize obey answers stage command = answer at hobeyed ⊢
  cases hobeyed with
  | refused | running | stopped | registered | unregistered => exact .nothing rfl
  | started answer _ hbrought | adopted _ answer hbrought =>
    exact .nothing (blobs_of_broughtUp hbrought)
  | polled answer hpolled => exact writes_of_polled h hpolled

def IsView (root : String) (calls : List Call) (blob : Bytes) : Prop :=
  ∃ listing, .list root (.ok listing) ∈ calls ∧ blob = (Snapshot.ofListing listing).encode

/-- The roots that a harvester has had, or has been told to have. -/
def rootsOf (config : HarvesterConfig) (commands : List Command) : List String :=
  config.root :: commands.filterMap fun command =>
    match command with
    | .reconfigure config => some config.root
    | _ => none

theorem config_of_broughtUp {h : Harvester} {world : World}
    {answer : (Except HarvestError Unit × Harvester) × World}
    (hbrought : BroughtUp h world answer) : answer.1.2.config = h.config := by
  cases hbrought with
  | failed => rfl
  | up => rfl

theorem config_obey (stage : Stage) (command : Command) :
    (obey answers stage command).2.harvester.config = stage.harvester.config ∨
      ∃ config, command = .reconfigure config ∧
        (obey answers stage command).2.harvester.config = config := by
  have hobeyed := @obeyed_obey answers stage command
  generalize obey answers stage command = answer at hobeyed ⊢
  cases hobeyed with
  | refused | running | stopped | registered | unregistered => exact Or.inl rfl
  | started answer _ hbrought => exact Or.inl (config_of_broughtUp hbrought)
  | adopted config answer hbrought => exact Or.inr ⟨config, rfl, config_of_broughtUp hbrought⟩
  | polled answer hpolled =>
    apply Or.inl
    cases hpolled with
    | failed _ _ hharvester => rw [hharvester]
    | idle => rfl
    | completed _ _ _ _ _ _ _ hharvester => rw [hharvester]

theorem rootsOf_subset (stage : Stage) (command : Command) (commands : List Command) :
    rootsOf (obey answers stage command).2.harvester.config commands ⊆
      rootsOf stage.harvester.config (command :: commands) := by
  intro root hroot
  rcases List.mem_cons.mp hroot with rfl | hlater
  · rcases @config_obey answers stage command with hsame | ⟨config, rfl, hnew⟩
    · rw [hsame]
      exact List.mem_cons_self
    · rw [hnew]
      exact List.mem_cons_of_mem _ (List.mem_filterMap.mpr ⟨_, List.mem_cons_self, rfl⟩)
  · obtain ⟨later, hlater, hgiven⟩ := List.mem_filterMap.mp hlater
    exact List.mem_cons_of_mem _
      (List.mem_filterMap.mpr ⟨later, List.mem_cons_of_mem _ hlater, hgiven⟩)

theorem IsView.mono {root : String} {calls later : List Call} {blob : Bytes}
    (h : IsView root calls blob) (hcalls : calls <+: later) : IsView root later blob := by
  obtain ⟨listing, hlisted, hblob⟩ := h
  exact ⟨listing, hcalls.subset hlisted, hblob⟩

/-- What is stored for a root was there before or is a view of this very root. -/
theorem isView_obeyAll {root : String} {before? : Option Bytes} (commands : List Command)
    (hroots : ∀ other ∈ rootsOf stage.harvester.config commands,
      persistenceKey other = persistenceKey root → other = root)
    (h : Consistent stage)
    (hstored : ∀ blob, stage.world.blobs.get? (persistenceKey root) = some blob →
      before? = some blob ∨ IsView root stage.world.calls blob) :
    ∀ blob, (obeyAll answers stage commands).world.blobs.get? (persistenceKey root) = some blob →
      before? = some blob ∨ IsView root (obeyAll answers stage commands).world.calls blob := by
  induction commands generalizing stage with
  | nil => exact hstored
  | cons command commands ih =>
    have hcalls := @calls_obey answers stage command
    refine ih (fun other hother => hroots other (rootsOf_subset stage command commands hother))
      (consistent_obey h command) ?_
    intro blob hblob
    cases @writes_obey answers stage h command with
    | nothing hblobs =>
      rw [hblobs] at hblob
      exact (hstored blob hblob).imp_right fun hview => hview.mono hcalls
    | view listing hlisted hblobs =>
      rw [hblobs, Table.get?_insert] at hblob
      split at hblob
      -- The root that has been listed has the key of the one in question, so it is this one.
      · rename_i hkey
        rw [hroots _ List.mem_cons_self hkey.symm] at hlisted
        refine Or.inr ⟨listing, List.mem_of_mem_drop hlisted, ?_⟩
        exact (Option.some.inj hblob).symm
      · exact (hstored blob hblob).imp_right fun hview => hview.mono hcalls

end Stored

end CatalogSync.Surroundings
