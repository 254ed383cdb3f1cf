import CatalogSync.Proofs.Harvest.Baseline
import CatalogSync.Proofs.Harvest.Delivery

namespace CatalogSync.Surroundings

open Harvester

/-- What a listener has been told. -/
def received (listener : ListenerId) (told : List Notice) : List Notice :=
  told.filter fun notice => notice.listener = listener

/-- A harvester that polls, for a set of listeners, and does not skip its polls. -/
structure IsReady (h : Harvester) : Prop where
  running : h.status = .polling
  nodup : h.members.Nodup
  listens : h.members ≠ [] ∨ h.config.idleWithoutListeners = false

/-- The call at a place is the first one with which a listener puts an end to the poll. -/
structure FirstBreak (answers : Answers) (stage : Stage) (listing : List ListingEntry) (i j : Nat)
    (e : StoreError) : Prop where
  change : i < (dueChanges stage listing).length
  listener : j < stage.harvester.members.length
  breaks : outcomeAt answers stage listing i j = .error (.persistence e)
  first : ∀ i' j', j' < stage.harvester.members.length → i' < i ∨ i' = i ∧ j' < j → ∀ e',
    outcomeAt answers stage listing i' j' ≠ .error (.persistence e')

/-- What a poll asks of its surroundings, in order. -/
def asked (answers : Answers) (stage : Stage) : List Call :=
  (pollOnce answers stage).2.world.calls.drop stage.world.calls.length

/-- A poll tells listeners what is due from the first notice on, and up to the last one unless one
of them puts an end to it. -/
structure Dispatches (answers : Answers) (stage : Stage) (listing : List ListingEntry)
    (due : List Notice) : Prop where
  fromFirst : noticesIn (asked answers stage) <+: due
  begins : due ≠ [] → noticesIn (asked answers stage) ≠ []
  toLast : IsSteady answers stage listing → noticesIn (asked answers stage) = due

/-- A poll makes some calls, ends with an error and changes nothing. Polled again, with whatever
answers, the harvester dispatches what was due before. -/
structure Abandons (answers : Answers) (stage : Stage) (e : HarvestError) (calls : List Call) :
    Prop where
  result : (pollOnce answers stage).1 = .error e
  calls : (pollOnce answers stage).2.world.calls = stage.world.calls ++ calls
  harvester : (pollOnce answers stage).2.harvester = stage.harvester
  blobs : (pollOnce answers stage).2.world.blobs = stage.world.blobs
  again : ∀ later listing, later.locate = answers.locate →
    later.list (pollOnce answers stage).2.world.calls = .ok listing →
    Dispatches later (pollOnce answers stage).2 listing (dueNotices answers stage listing)

/-- At most one snapshot is written, and after everything else. -/
def WritesLast (answers : Answers) (stage : Stage) : Prop :=
  ∃ before last, (pollOnce answers stage).2.world.calls = stage.world.calls ++ before ++ last ∧
    (∀ key, .store key ∉ before) ∧ (last = [] ∨ last = [.store stage.harvester.snapshotKey])

variable {answers : Answers} {stage : Stage} {listing : List ListingEntry}

theorem lists_of_isReady (h : IsReady stage.harvester) : stage.Lists := by
  unfold Stage.Lists beginPoll
  rw [if_neg (by simp [h.running]), if_neg]
  rintro ⟨hnobody, hidle⟩
  rcases h.listens with hsomebody | hbusy
  · exact hsomebody hnobody
  · simp [hbusy] at hidle

section Received

variable {root : String} {members : List ListenerId} {changes : List Change}

theorem filter_noticesOf_eq_nil {member : ListenerId} (h : member ∉ members) (change : Change) :
    (noticesOf answers root members change).filter (fun notice => notice.listener = member) =
      [] := by
  rw [List.filter_eq_nil_iff]
  intro notice hnotice
  obtain ⟨other, hother, rfl⟩ := List.mem_map.mp hnotice
  simp only [decide_eq_true_eq]
  rintro rfl
  exact h hother

theorem getElem_mem_take_iff (hnodup : members.Nodup) {place k : Nat}
    (hplace : place < members.length) : members[place] ∈ members.take k ↔ place < k := by
  rw [List.mem_take_iff_getElem]
  constructor
  · rintro ⟨other, hother, heq⟩
    have hsame := (List.Nodup.getElem_inj_iff hnodup).mp heq
    omega
  · intro hlt
    exact ⟨place, by omega, rfl⟩

theorem received_noticesUpTo (hnodup : members.Nodup) {i j place : Nat} (hi : i < changes.length)
    (hplace : place < members.length) :
    received members[place] (noticesUpTo answers root members changes i j) =
      (changes.take (if place ≤ j then i + 1 else i)).map fun change =>
        ⟨members[place], change.kind, answers.locate root change.path⟩ := by
  have hmember : members[place] ∈ members := List.getElem_mem hplace
  have hrow : (changes[i]?).toList.flatMap (noticesOf answers root (members.take (j + 1))) =
      noticesOf answers root (members.take (j + 1)) changes[i] := by
    simp [List.getElem?_eq_getElem hi]
  rw [received, noticesUpTo, hrow, List.filter_append, filter_flatMap_noticesOf hnodup hmember]
  by_cases hreached : place ≤ j
  · have htake : members[place] ∈ members.take (j + 1) :=
      (getElem_mem_take_iff hnodup hplace).mpr (by omega)
    rw [filter_noticesOf (hnodup.sublist (List.take_sublist _ _)) htake, if_pos hreached,
      List.take_succ_eq_append_getElem hi, List.map_append]
    rfl
  · have htake : members[place] ∉ members.take (j + 1) := by
      rw [getElem_mem_take_iff hnodup hplace]
      omega
    rw [filter_noticesOf_eq_nil htake, if_neg hreached, List.append_nil]

end Received

section Course

theorem noticesIn_asked {told : List Notice} {last : List Call}
    (hcalls : (pollOnce answers stage).2.world.calls =
      (stage.listed (.ok listing)).calls ++ told.map .notify ++ last)
    (hlast : noticesIn last = []) : noticesIn (asked answers stage) = told := by
  have hdrop : asked answers stage =
      .list stage.harvester.config.root (.ok listing) :: (told.map .notify ++ last) := by
    simp [asked, hcalls, Stage.listed]
  have hlist : noticesIn (asked answers stage) = noticesIn (told.map .notify ++ last) := by
    rw [hdrop]
    rfl
  rw [hlist, noticesIn_append, noticesIn_map_notify, hlast, List.append_nil]

theorem calls_of_steady (hlists : stage.Lists)
    (hlisted : answers.list stage.world.calls = .ok listing)
    (hsteady : IsSteady answers stage listing) :
    ∃ last, (pollOnce answers stage).2.world.calls = (stage.listed (.ok listing)).calls ++
        (dueNotices answers stage listing).map .notify ++ last ∧
      (last = [] ∨ last = [.store stage.harvester.snapshotKey]) := by
  by_cases hsame : stage.harvester.snapshot = some (.ofListing listing)
  · rw [pollOnce_of_same hlists hlisted hsteady hsame]
    refine ⟨[], ?_, Or.inl rfl⟩
    rw [List.append_nil]
    rfl
  · rw [pollOnce_of_ne hlists hlisted hsteady hsame]
    refine ⟨_, ?_, Or.inr rfl⟩
    dsimp only
    split
    · rfl
    · rfl

theorem dispatches_of_lists (hlists : stage.Lists)
    (hlisted : answers.list stage.world.calls = .ok listing) :
    Dispatches answers stage listing (dueNotices answers stage listing) := by
  rcases @steady_or_break answers (stage.listed (.ok listing)).calls
    (dueNotices answers stage listing) with hsteady | ⟨before, notice, e, hbegins, hsteady, hbreak⟩
  · obtain ⟨last, hcalls, hlast⟩ := calls_of_steady hlists hlisted (isSteady_iff.mpr hsteady)
    have htold := noticesIn_asked hcalls (by rcases hlast with rfl | rfl <;> rfl)
    constructor
    · rw [htold]
    · rw [htold]
      exact id
    · exact fun _ => htold
  · have hcalls := congrArg (fun answer => answer.2.world.calls)
      (pollOnce_of_break hlists hlisted hbegins hsteady hbreak)
    dsimp only at hcalls
    rw [World.calls_tellAll, ← List.append_nil (_ ++ _)] at hcalls
    have htold := noticesIn_asked hcalls rfl
    constructor
    · rw [htold]
      exact hbegins
    · rw [htold]
      simp
    · intro hall
      have hne : before ++ [notice] ≠ [] := by simp
      exact absurd hbreak (isSteady_iff.mp hall _ hne hbegins e)

theorem dueNotices_congr {after : Stage} {later : Answers}
    (hharvester : after.harvester = stage.harvester) (hlocate : later.locate = answers.locate)
    (listing : List ListingEntry) :
    dueNotices later after listing = dueNotices answers stage listing := by
  unfold dueNotices dueChanges noticesOf
  rw [hharvester, hlocate]

theorem abandons_of_eq (hlists : stage.Lists) {e : HarvestError} {world : World} {calls : List Call}
    (hpoll : pollOnce answers stage = (.error e, { stage with world := world }))
    (hcalls : world.calls = stage.world.calls ++ calls) (hblobs : world.blobs = stage.world.blobs) :
    Abandons answers stage e calls := by
  constructor
  case again =>
    rw [hpoll]
    intro later listing hlocate hlisted
    have hagain : ({ stage with world := world } : Stage).Lists := hlists
    have hdue := @dueNotices_congr answers stage { stage with world := world } later rfl hlocate
    rw [← hdue]
    exact dispatches_of_lists hagain hlisted
  all_goals rw [hpoll]
  · exact hcalls
  · exact hblobs

theorem abandons_of_unreachable (hlists : stage.Lists) {e : ListerError}
    (hlisted : answers.list stage.world.calls = .error e) :
    Abandons answers stage (.lister e) [.list stage.harvester.config.root (.error e)] :=
  abandons_of_eq hlists (pollOnce_of_unreachable hlists hlisted) rfl rfl

theorem abandons_of_firstBreak (hlists : stage.Lists)
    (hlisted : answers.list stage.world.calls = .ok listing) {i j : Nat} {e : StoreError}
    (h : FirstBreak answers stage listing i j e) :
    Abandons answers stage (.persistence e) (.list stage.harvester.config.root (.ok listing) ::
      (noticesUpTo answers stage.harvester.config.root stage.harvester.members
        (dueChanges stage listing) i j).map .notify) := by
  obtain ⟨before, notice, hupTo, hsteady⟩ := exists_before_place h.change h.listener h.first
  have hbegins : before ++ [notice] <+: dueNotices answers stage listing := by
    rw [← hupTo]
    exact noticesUpTo_prefix_due i j
  have hbreak := h.breaks
  rw [outcomeAt, hupTo] at hbreak
  rw [hupTo]
  apply abandons_of_eq hlists (pollOnce_of_break hlists hlisted hbegins hsteady hbreak)
  · simp [Stage.listed]
  · rfl

theorem abandons_of_lost (hlists : stage.Lists)
    (hlisted : answers.list stage.world.calls = .ok listing)
    (hsteady : IsSteady answers stage listing)
    (hne : stage.harvester.snapshot ≠ some (.ofListing listing)) {e : StoreError}
    (hfails : answers.writeError? ((stage.listed (.ok listing)).tellAll
      (dueNotices answers stage listing)).calls = some e) :
    Abandons answers stage (.persistence e) (.list stage.harvester.config.root (.ok listing) ::
      ((dueNotices answers stage listing).map .notify ++
        [.store stage.harvester.snapshotKey])) := by
  have hpoll := pollOnce_of_ne hlists hlisted hsteady hne
  simp only [hfails] at hpoll
  apply abandons_of_eq hlists hpoll
  · simp [Stage.listed]
  · rfl

theorem writesLast_of_nothing {calls : List Call} (hcalls : (pollOnce answers stage).2.world.calls =
    stage.world.calls ++ calls) (hnone : ∀ key, .store key ∉ calls) : WritesLast answers stage := by
  refine ⟨calls, [], ?_, hnone, Or.inl rfl⟩
  rw [List.append_nil]
  exact hcalls

theorem store_notMem_told (root : String) (answer : Except ListerError (List ListingEntry))
    (told : List Notice) (key : String) :
    .store key ∉ Call.list root answer :: told.map .notify := by
  simp

theorem writesLast_pollOnce (answers : Answers) (stage : Stage) : WritesLast answers stage := by
  cases hbegin : stage.harvester.beginPoll with
  | notRunning =>
    refine ⟨[], [], ?_, by simp, Or.inl rfl⟩
    simp [pollOnce_of_notRunning hbegin]
  | idle =>
    refine ⟨[], [], ?_, by simp, Or.inl rfl⟩
    simp [pollOnce_of_idle hbegin]
  | listing root members =>
    obtain ⟨-, rfl, rfl⟩ := beginPoll_listing hbegin
    cases hlisted : answers.list stage.world.calls with
    | error e =>
      exact writesLast_of_nothing (abandons_of_unreachable hbegin hlisted).calls (by simp)
    | ok listing =>
      rcases @steady_or_break answers (stage.listed (.ok listing)).calls
        (dueNotices answers stage listing) with
        hsteady | ⟨before, notice, e, hbegins, hsteady, hbreak⟩
      · obtain ⟨last, hcalls, hlast⟩ := calls_of_steady hbegin hlisted (isSteady_iff.mpr hsteady)
        rw [Stage.listed, World.calls_note, List.append_assoc stage.world.calls] at hcalls
        exact ⟨_, last, hcalls, store_notMem_told _ (.ok listing) _, hlast⟩
      · have hcalls := congrArg (fun answer => answer.2.world.calls)
          (pollOnce_of_break hbegin hlisted hbegins hsteady hbreak)
        dsimp only at hcalls
        rw [World.calls_tellAll, Stage.listed, World.calls_note, List.append_assoc] at hcalls
        exact writesLast_of_nothing hcalls (store_notMem_told _ (.ok listing) _)

end Course

/-- A poll that is abandoned changes nothing, and cuts what is due at one place: if the tree cannot
be reached, nobody is told anything; if a listener cannot keep its own state, it and those before it
have received the changes up to that one, and those after it the changes before; if the new view
cannot be stored, everybody has received everything. No poll writes more than one snapshot, and none
before the last call to a listener. -/
theorem abandoned_poll_delivers_beginning (answers : Answers) (stage : Stage) :
    WritesLast answers stage ∧ (IsReady stage.harvester →
      (∀ e, answers.list stage.world.calls = .error e →
        Abandons answers stage (.lister e) [.list stage.harvester.config.root (.error e)]) ∧
      (∀ listing, answers.list stage.world.calls = .ok listing →
        (∀ i j e, FirstBreak answers stage listing i j e →
          ∃ told, Abandons answers stage (.persistence e)
              (.list stage.harvester.config.root (.ok listing) :: told.map .notify) ∧
            ∀ place (h : place < stage.harvester.members.length),
              received stage.harvester.members[place] told =
                ((dueChanges stage listing).take (if place ≤ j then i + 1 else i)).map fun change =>
                  ⟨stage.harvester.members[place], change.kind,
                    answers.locate stage.harvester.config.root change.path⟩) ∧
        (∀ e, IsSteady answers stage listing →
          stage.harvester.snapshot ≠ some (.ofListing listing) →
          answers.writeError? ((stage.listed (.ok listing)).tellAll
            (dueNotices answers stage listing)).calls = some e →
          ∃ told, Abandons answers stage (.persistence e)
              (.list stage.harvester.config.root (.ok listing) ::
                (told.map .notify ++ [.store stage.harvester.snapshotKey])) ∧
            ∀ member ∈ stage.harvester.members, received member told =
              (dueChanges stage listing).map fun change =>
                ⟨member, change.kind,
                  answers.locate stage.harvester.config.root change.path⟩))) := by
  refine ⟨writesLast_pollOnce answers stage, ?_⟩
  intro hready
  have hlists := lists_of_isReady hready
  refine ⟨fun e hlisted => abandons_of_unreachable hlists hlisted, ?_⟩
  intro listing hlisted
  constructor
  · intro i j e hbreak
    refine ⟨_, abandons_of_firstBreak hlists hlisted hbreak, ?_⟩
    intro place hplace
    exact received_noticesUpTo hready.nodup hbreak.change hplace
  · intro e hsteady hne hfails
    refine ⟨_, abandons_of_lost hlists hlisted hsteady hne hfails, ?_⟩
    intro member hmember
    exact filter_flatMap_noticesOf hready.nodup hmember _

/-- Surroundings with three files, in which listener 0 always breaks down and listener 1 cannot keep
what it is told of the second file. -/
def brittle : Answers where
  checkRoot := fun _ => .ok ()
  list := fun _ => .ok [⟨"a", ⟨1, 1⟩⟩, ⟨"b", ⟨1, 1⟩⟩, ⟨"c", ⟨1, 1⟩⟩]
  locate := fun root path => root ++ "/" ++ path
  fetch := fun _ => .error (.unavailable "")
  loadError? := fun _ => none
  writeError? := fun _ => none
  notify := fun calls =>
    match calls.getLast? with
    | some (.notify notice) =>
      if notice.listener = 0 then .panicked
      else if notice.listener = 1 ∧ notice.location = "r/b" then
        .error (.persistence (.database "full"))
      else .ok ()
    | _ => .ok ()

def brittleStage : Stage :=
  [Act.start, .register 0 "l", .register 1 "m", .register 2 "n"].foldl (perform brittle "r")
    ⟨harvesterOf "r" (.ofRoot "h" "r"), ⟨Table.empty, []⟩⟩

def brittleListing : List ListingEntry := [⟨"a", ⟨1, 1⟩⟩, ⟨"b", ⟨1, 1⟩⟩, ⟨"c", ⟨1, 1⟩⟩]

theorem isReady_brittleStage : IsReady brittleStage.harvester :=
  ⟨rfl, by decide, Or.inl (by decide)⟩

theorem firstBreak_brittle :
    FirstBreak brittle brittleStage brittleListing 1 1 (.database "full") := by
  refine ⟨by decide, by decide, rfl, ?_⟩
  intro i j hj hbefore e
  have hlength : brittleStage.harvester.members.length = 3 := rfl
  have hplaces : i = 0 ∧ (j = 0 ∨ j = 1 ∨ j = 2) ∨ i = 1 ∧ j = 0 := by omega
  rcases hplaces with ⟨rfl, rfl | rfl | rfl⟩ | ⟨rfl, rfl⟩ <;> exact nofun

theorem brittle_poll_cut_short :
    IsReady brittleStage.harvester ∧
      FirstBreak brittle brittleStage brittleListing 1 1 (.database "full") ∧
      ∃ told, Abandons brittle brittleStage (.persistence (.database "full"))
          (.list "r" (.ok brittleListing) :: told.map .notify) ∧
        received 0 told = [⟨0, .created, "r/a"⟩, ⟨0, .created, "r/b"⟩] ∧
        received 1 told = [⟨1, .created, "r/a"⟩, ⟨1, .created, "r/b"⟩] ∧
        received 2 told = [⟨2, .created, "r/a"⟩] := by
  refine ⟨isReady_brittleStage, firstBreak_brittle, ?_⟩
  obtain ⟨told, habandons, hreceived⟩ :=
    ((abandoned_poll_delivers_beginning brittle brittleStage).2 isReady_brittleStage).2
      brittleListing rfl |>.1 1 1 _ firstBreak_brittle
  exact ⟨told, habandons, hreceived 0 (by decide), hreceived 1 (by decide), hreceived 2 (by decide)⟩

end CatalogSync.Surroundings
