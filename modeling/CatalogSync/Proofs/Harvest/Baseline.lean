import CatalogSync.Proofs.Harvest.Steps

/-!
What a completed poll has seen is what the next completed poll compares with, whatever happens in
between: the blob that is stored for the root, and the snapshot in memory while the harvester polls,
are always those of the last completed poll.
-/

namespace CatalogSync.Surroundings

open Harvester

variable {answers : Answers} {root : String}

/-- The view that the next completed poll compares with: that of the last one. -/
def baseline (polls : List CompletedPoll) : Option Snapshot :=
  polls.getLast?.map fun poll => Snapshot.ofListing poll.listing

/-- What is known of the tree is kept in the store and, while the harvester polls, in memory. -/
structure Keeps (root : String) (base : Option Snapshot) (stage : Stage) : Prop where
  stored : stage.world.blobs.get? (persistenceKey root) = base.map Snapshot.encode
  fixed : stage.harvester.config.root = root
  nodup : stage.harvester.members.Nodup
  memory : stage.harvester.status = .polling →
    stage.harvester.snapshotKey = persistenceKey root ∧ stage.harvester.snapshot = base

/-- A poll delivers every change from a view to its own listing to every listener, and counts it. -/
structure CompletedPoll.Delivers (locate : String → String → String) (root : String)
    (base : Option Snapshot) (poll : CompletedPoll) : Prop where
  notices : poll.notices = (diff base poll.listing).changes.flatMap fun change =>
    poll.members.map fun member => ⟨member, change.kind, locate root change.path⟩
  each : ∀ member ∈ poll.members, poll.notices.filter (fun notice => notice.listener = member) =
    (diff base poll.listing).changes.map fun change =>
      ⟨member, change.kind, locate root change.path⟩
  created : poll.report.created = (diff base poll.listing).count .created
  modified : poll.report.modified = (diff base poll.listing).count .modified
  deleted : poll.report.deleted = (diff base poll.listing).count .deleted

theorem noticesIn_append (calls more : List Call) :
    noticesIn (calls ++ more) = noticesIn calls ++ noticesIn more :=
  List.filterMap_append

theorem noticesIn_map_notify (notices : List Notice) :
    noticesIn (notices.map .notify) = notices := by
  induction notices with
  | nil => rfl
  | cons notice notices ih => exact congrArg (notice :: ·) ih

theorem filter_noticesOf {members : List ListenerId} (hnodup : members.Nodup)
    {member : ListenerId} (hmember : member ∈ members) (change : Change) :
    (noticesOf answers root members change).filter (fun notice => notice.listener = member) =
      [⟨member, change.kind, answers.locate root change.path⟩] := by
  have honce : members.filter (fun other => other = member) = [member] := by
    rw [List.filter_eq, List.count_eq_one_of_mem hnodup hmember]
    rfl
  rw [noticesOf, List.filter_map]
  exact congrArg (List.map _) honce

theorem filter_flatMap_noticesOf {members : List ListenerId} (hnodup : members.Nodup)
    {member : ListenerId} (hmember : member ∈ members) (changes : List Change) :
    (changes.flatMap (noticesOf answers root members)).filter
        (fun notice => notice.listener = member) =
      changes.map fun change => ⟨member, change.kind, answers.locate root change.path⟩ := by
  induction changes with
  | nil => rfl
  | cons change changes ih =>
    rw [List.flatMap_cons, List.filter_append, filter_noticesOf hnodup hmember, ih]
    rfl

theorem keeps_startOnce {base : Option Snapshot} {stage : Stage} (h : Keeps root base stage) :
    Keeps root base (startOnce answers stage).2 := by
  have hstarted : Started stage (startOnce answers stage).2 := started_startOnce stage
  refine ⟨?_, ?_, ?_, ?_⟩
  · rw [hstarted.blobs, h.stored]
  · rw [hstarted.config, h.fixed]
  · rw [hstarted.members]
    exact h.nodup
  · intro hrunning
    rcases hstarted.running hrunning with hsame | ⟨hkey, hsnapshot⟩
    · rw [hsame] at hrunning ⊢
      exact h.memory hrunning
    · rw [h.fixed] at hkey hsnapshot
      rw [h.stored, storedSnapshot?_encode] at hsnapshot
      exact ⟨hkey, hsnapshot⟩

theorem nodup_members_register {h after : Harvester} {id : ListenerId} {name : String}
    (hnodup : h.members.Nodup) (hregister : h.register id name = .ok after) :
    after.members.Nodup ∧ after = { h with members := after.members } := by
  unfold register at hregister
  split at hregister
  · cases hregister
    exact ⟨hnodup, rfl⟩
  · rename_i hnew
    split at hregister
    · cases hregister
    · cases hregister
      have habsent : id ∉ h.members := by
        simpa [hasListener] using hnew
      refine ⟨?_, rfl⟩
      rw [List.nodup_append]
      refine ⟨hnodup, List.nodup_singleton id, ?_⟩
      rintro member hmember _ hid rfl
      rw [List.mem_singleton] at hid
      exact habsent (hid ▸ hmember)

theorem keeps_perform {base : Option Snapshot} {stage : Stage} {act : Act}
    (h : Keeps root base stage) (hact : act ≠ .poll) :
    Keeps root base (perform answers root stage act) := by
  cases act with
  | start => exact keeps_startOnce h
  | stop => exact ⟨h.stored, h.fixed, h.nodup, nofun⟩
  | restart config => exact ⟨h.stored, rfl, List.nodup_nil, nofun⟩
  | register id name =>
    simp only [perform]
    cases hregister : stage.harvester.register id name with
    | error e => exact h
    | ok after =>
      obtain ⟨hnodup, hafter⟩ := nodup_members_register h.nodup hregister
      rw [hafter]
      exact ⟨h.stored, h.fixed, hnodup, h.memory⟩
  | unregister id => exact ⟨h.stored, h.fixed, h.nodup.filter _, h.memory⟩
  | poll => exact absurd rfl hact

/-- One poll: either it is not a completed one, and nothing that is known of the tree changes, or it
delivers the changes since the last completed one and what it has seen is known afterwards. -/
theorem keeps_pollOnce {base : Option Snapshot} {stage : Stage} (h : Keeps root base stage) :
    match completed? answers stage with
    | none => Keeps root base (pollOnce answers stage).2
    | some poll => poll.Delivers answers.locate root base ∧
        Keeps root (some (Snapshot.ofListing poll.listing)) (pollOnce answers stage).2 := by
  have hpolled : Polled answers stage _ := polled_pollOnce stage
  unfold completed?
  generalize pollOnce answers stage = answer at hpolled ⊢
  cases hpolled with
  | failed e after hharvester hblobs =>
    refine ⟨?_, ?_, ?_, ?_⟩
    · rw [hblobs, h.stored]
    · rw [hharvester, h.fixed]
    · rw [hharvester]
      exact h.nodup
    · rw [hharvester]
      exact h.memory
  | idle => exact h
  | completed listing failures after last hrunning hcalls hlast hharvester hblobs =>
    obtain ⟨hkey, hbase⟩ := h.memory hrunning
    rw [hkey, hbase] at hblobs
    rw [hbase, h.fixed] at hcalls
    rw [hbase]
    have hlisted : listedIn (after.world.calls.drop stage.world.calls.length) = listing := by
      rw [hcalls, List.drop_left]
      rfl
    have hnotices : noticesIn (after.world.calls.drop stage.world.calls.length) =
        (diff base listing).changes.flatMap (noticesOf answers root stage.harvester.members) := by
      rw [hcalls, List.drop_left, noticesIn_append, noticesIn_append, noticesIn_map_notify, hlast,
        List.append_nil]
      rfl
    refine ⟨?_, ?_, ?_, ?_, ?_⟩
    · simp only [hlisted, hnotices]
      refine ⟨rfl, ?_, rfl, rfl, rfl⟩
      intro member hmember
      exact filter_flatMap_noticesOf h.nodup hmember _
    · simp only [hlisted]
      rcases hblobs with hblobs | ⟨hblobs, hsame⟩
      · rw [hblobs, Table.get?_insert, if_pos rfl]
        rfl
      · rw [hblobs, h.stored, hsame]
    · rw [hharvester]
      exact h.fixed
    · rw [hharvester]
      exact h.nodup
    · rw [hharvester]
      intro _
      exact ⟨hkey, congrArg (fun listing => some (Snapshot.ofListing listing)) hlisted.symm⟩

theorem baseline_concat (polls : List CompletedPoll) (poll : CompletedPoll) :
    baseline (polls ++ [poll]) = some (Snapshot.ofListing poll.listing) := by
  rw [baseline, List.getLast?_concat]
  rfl

theorem completedPolls_cons_of_ne_poll {stage : Stage} {act : Act} {acts : List Act}
    (hact : act ≠ .poll) :
    completedPolls answers root stage (act :: acts) =
      completedPolls answers root (perform answers root stage act) acts := by
  cases act with
  | poll => exact absurd rfl hact
  | _ => rfl

theorem delivers_of_keeps {prior : List CompletedPoll} {stage : Stage}
    (h : Keeps root (baseline prior) stage) (acts : List Act) {k : Nat} {poll : CompletedPoll}
    (hpoll : (completedPolls answers root stage acts)[k]? = some poll) :
    poll.Delivers answers.locate root
      (baseline (prior ++ (completedPolls answers root stage acts).take k)) := by
  -- The polls that have been completed on the way to a stage are collected in `prior`.
  induction acts generalizing prior stage k with
  | nil => cases hpoll
  | cons act acts ih =>
    by_cases hact : act = .poll
    · subst hact
      have hkeeps := @keeps_pollOnce answers root _ _ h
      simp only [completedPolls] at hpoll ⊢
      cases hcompleted : completed? answers stage with
      | none =>
        rw [hcompleted] at hkeeps hpoll
        exact ih hkeeps hpoll
      | some first =>
        rw [hcompleted] at hkeeps hpoll
        obtain ⟨hdelivers, hkeeps⟩ := hkeeps
        cases k with
        | zero =>
          cases hpoll
          rw [List.take_zero, List.append_nil]
          exact hdelivers
        | succ k =>
          rw [← baseline_concat prior first] at hkeeps
          have hlater := ih hkeeps hpoll
          rw [List.append_assoc] at hlater
          exact hlater
    · rw [completedPolls_cons_of_ne_poll hact] at hpoll ⊢
      exact ih (keeps_perform h hact) hpoll

/-- In any run of one harvester for a root about which nothing is stored yet, each completed poll
delivers the changes since the completed one before it, and the first one all that it lists. -/
theorem completed_polls_deliver_changes (answers : Answers) (root : String)
    (config : HarvesterConfig) (world : World)
    (hworld : world.blobs.get? (persistenceKey root) = none) (acts : List Act) (k : Nat)
    (poll : CompletedPoll)
    (hpoll : (completedPolls answers root ⟨harvesterOf root config, world⟩ acts)[k]? = some poll) :
    poll.Delivers answers.locate root
      (baseline ((completedPolls answers root ⟨harvesterOf root config, world⟩ acts).take k)) := by
  have hstart : Keeps root (baseline []) ⟨harvesterOf root config, world⟩ :=
    ⟨hworld, rfl, List.nodup_nil, nofun⟩
  exact delivers_of_keeps hstart acts hpoll

/-- Surroundings in which a file appears after the first poll. -/
def growing : Answers where
  checkRoot := fun _ => .ok ()
  list := fun calls =>
    if calls.length < 4 then .ok [⟨"a", ⟨1, 1⟩⟩] else .ok [⟨"a", ⟨1, 1⟩⟩, ⟨"b", ⟨1, 1⟩⟩]
  locate := fun root path => root ++ "/" ++ path
  fetch := fun _ => .error (.unavailable "")
  loadError? := fun _ => none
  writeError? := fun _ => none
  notify := fun _ => .ok ()

/-- Its first two polls, for one listener. -/
def growingPolls : List CompletedPoll :=
  completedPolls growing "r" ⟨harvesterOf "r" (.ofRoot "h" "r"), ⟨Table.empty, []⟩⟩
    [.start, .register 0 "l", .poll, .poll]

theorem second_poll_of_growing_delivers :
    ∃ poll, growingPolls[1]? = some poll ∧ poll.notices = [⟨0, .created, "r/b"⟩] ∧
      poll.Delivers growing.locate "r" (baseline (growingPolls.take 1)) :=
  ⟨_, rfl, rfl, completed_polls_deliver_changes growing "r" (.ofRoot "h" "r") ⟨Table.empty, []⟩ rfl
    [.start, .register 0 "l", .poll, .poll] 1 _ rfl⟩

end CatalogSync.Surroundings
