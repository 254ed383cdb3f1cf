import CatalogSync.Proofs.Harvest.Adoption
import CatalogSync.Proofs.Harvest.Poll
import CatalogSync.Proofs.Lister.Roots
import CatalogSync.Proofs.Listener.Desk

namespace CatalogSync

open DirectoryLister

namespace Desk

variable {τ : Type}

/-- Neither is the map another one nor has the adapter been asked anything. -/
structure Untouched (before after : Desk τ) : Prop where
  mappings : after.mappings = before.mappings
  exchanges : after.exchanges = before.exchanges

theorem Untouched.refl (desk : Desk τ) : Untouched desk desk :=
  ⟨rfl, rfl⟩

theorem Untouched.trans {before desk after : Desk τ} (h : Untouched before desk)
    (h' : Untouched desk after) : Untouched before after :=
  ⟨h'.mappings.trans h.mappings, h'.exchanges.trans h.exchanges⟩

theorem untouched_lift {α : Type} (action : StateM τ α) (desk : Desk τ) :
    Untouched desk (downstreamPart.lift action desk).2 :=
  ⟨rfl, rfl⟩

/-- What is handled leaves the desk as it was at first, and so does the content if it is fetched. -/
def Spares (desk : Desk τ) (reading : Reading (Desk τ)) : Prop :=
  Untouched desk reading.world ∧
    ∀ other, Untouched desk other → Untouched desk (reading.content.fetch other).2

/-- A handling that has nothing to do with the desk. -/
def Respects {α : Type} (desk : Desk τ) (handling : StateM (Reading (Desk τ)) α) : Prop :=
  ∀ reading, Spares desk reading → Spares desk (handling reading).2

section Absorption

variable {adapter : Adapter τ} {clock : Desk τ → Time.Timestamp} {desk after : Desk τ}

theorem Sound.of_untouched (h : desk.Sound) (huntouched : Untouched desk after) : after.Sound := by
  constructor
  · rw [huntouched.mappings]
    exact h.writable
  · rw [huntouched.mappings]
    exact h.readable

theorem id?_of_untouched (h : Untouched desk after) (key : String) :
    after.id? key = desk.id? key := by
  rw [id?, id?, row?, row?, h.mappings]

theorem onCreate_of_mapped (hsound : desk.Sound) {resource : Resource}
    (hmapped : (desk.id? resource.correlationId).isSome) {reading : Reading (Desk τ)}
    (huntouched : Untouched desk reading.world) :
    (listener adapter clock).onCreate resource reading = (.ok (), reading) := by
  rw [← id?_of_untouched huntouched, id?, Option.isSome_map] at hmapped
  obtain ⟨row, hrow⟩ := Option.isSome_iff_exists.mp hmapped
  have hfind : (listener adapter clock).find? resource.correlationId reading.world =
      (.ok (some row), reading.world) := by
    rw [find?_listener (hsound.of_untouched huntouched), hrow]
  simp only [PersistentListener.onCreate, bind, StateT.bind, Reading.onWorld, hfind]
  rfl

theorem respects_of_mapped (hsound : desk.Sound) {resource : Resource}
    (hmapped : (desk.id? resource.correlationId).isSome) :
    Respects desk ((listener adapter clock).onCreate resource) := by
  intro reading hspares
  rw [onCreate_of_mapped hsound hmapped hspares.1]
  exact hspares

end Absorption

section Delivery

variable {desk : Desk τ}

theorem respects_callAll {listeners : List (Listener (Desk τ))}
    {call : Listener (Desk τ) → StateM (Reading (Desk τ)) (Outcome ListenerError Unit)}
    (h : ∀ listener ∈ listeners, Respects desk (call listener)) :
    Respects desk (Harvester.callAll call listeners) := by
  induction listeners with
  | nil => exact fun reading hspares => hspares
  | cons listener rest ih =>
    intro reading hspares
    have hfirst := h listener List.mem_cons_self reading hspares
    have hrest := ih fun other hother => h other (List.mem_cons_of_mem _ hother)
    simp only [Harvester.callAll, bind, StateT.bind]
    rcases hcall : call listener reading with ⟨outcome, middle⟩
    rw [hcall] at hfirst
    dsimp only
    cases Harvester.failureCount outcome with
    | error e => exact hfirst
    | ok failed =>
      have hlater := hrest middle hfirst
      rcases hmore : Harvester.callAll call rest middle with ⟨_ | more, last⟩ <;>
      · rw [hmore] at hlater
        simp only [StateT.bind, hmore]
        exact hlater

variable {workingDir root : String} {listeners : List (Listener (Desk (Disk × τ)))}

/-- A disk beside everything else that is downstream. -/
def diskPart : Part (Disk × τ) Disk :=
  ⟨Prod.fst, fun disk world => (disk, world.2)⟩

def directoryLister (workingDir : String) : Lister (Desk (Disk × τ)) :=
  DirectoryLister.lister workingDir (downstreamPart.comp diskPart)

theorem snd_checkRoot (workingDir root : String) (world : Desk (Disk × τ)) :
    ((directoryLister workingDir).checkRoot root world).2 = world := by
  have hdisk : (checkRoot root world.downstream.1).2 = world.downstream.1 := by
    rw [checkRoot]
    split <;> rfl
  exact congrArg (fun disk => { world with downstream := (disk, world.downstream.2) }) hdisk

/-- The listeners have nothing to do with the desk when they are told that a path has been
created. -/
def RespectCreated (desk : Desk (Disk × τ)) (workingDir root : String)
    (listeners : List (Listener (Desk (Disk × τ)))) (path : String) : Prop :=
  ∀ listener ∈ listeners, ∀ properties,
    Respects desk (listener.onCreate ⟨locate workingDir root path, properties⟩)

theorem untouched_deliver {desk world : Desk (Disk × τ)} (h : Untouched desk world) {path : String}
    (properties : Properties)
    (hrespects : RespectCreated desk workingDir root listeners path) :
    Untouched desk (Harvester.deliver (directoryLister workingDir) root properties listeners
      ⟨.created, path⟩ world).2 := by
  refine (respects_callAll (fun listener hlistener => hrespects listener hlistener properties)
    ⟨_, world⟩
    ⟨h, ?_⟩).1
  exact fun other hother => hother.trans ⟨rfl, rfl⟩

theorem untouched_deliverAll {changes : List Change} {desk world : Desk (Disk × τ)}
    (h : Untouched desk world) (properties : Properties)
    (hrespects : ∀ change ∈ changes, change.kind = .created ∧
      RespectCreated desk workingDir root listeners change.path) :
    Untouched desk (Harvester.deliverAll (directoryLister workingDir) root properties listeners
      changes world).2 := by
  induction changes generalizing world with
  | nil => exact h
  | cons change rest ih =>
    obtain ⟨kind, path⟩ := change
    obtain ⟨⟨rfl, hfirst⟩, hrest⟩ := List.forall_mem_cons.mp hrespects
    have hdelivered := untouched_deliver h properties hfirst
    rw [Harvester.deliverAll_cons]
    rcases hdeliver : Harvester.deliver (directoryLister workingDir) root properties listeners
      ⟨.created, path⟩ world with ⟨e | failed, middle⟩
    · rw [hdeliver] at hdelivered
      rw [Harvester.addCounts_of_error hdeliver]
      exact hdelivered
    · rw [hdeliver] at hdelivered
      have hlater := ih hdelivered hrest
      rw [Harvester.addCounts_of_ok hdeliver]
      rcases hmore : Harvester.deliverAll (directoryLister workingDir) root properties listeners
        rest middle with ⟨_ | more, last⟩ <;>
      · rw [hmore] at hlater
        exact hlater

theorem untouched_commit (snapshots : BlobStore (Disk × τ)) (h : Harvester) (changes : Diff)
    (report : PollReport) (world : Desk (Disk × τ)) :
    Untouched world
      (Harvester.commit (snapshots.over downstreamPart) h changes report world).2 := by
  rw [Harvester.commit]
  split
  · exact .refl world
  · have hstored := untouched_lift (snapshots.store h.snapshotKey changes.next.encode) world
    simp only [bind, StateT.bind, BlobStore.over]
    rcases hstore : downstreamPart.lift (snapshots.store h.snapshotKey changes.next.encode) world
      with
      ⟨_ | _, after⟩ <;>
    · rw [hstore] at hstored
      exact hstored

end Delivery

section Repointing

variable {adapter : Adapter (Disk × τ)} {clock : Desk (Disk × τ) → Time.Timestamp}
  {snapshots : BlobStore (Disk × τ)} {listenerOf : ListenerId → Listener (Desk (Disk × τ))}
  {desk : Desk (Disk × τ)} {workingDir root first second : String} {h : Harvester}

/-- Every file of the tree at a root is mapped at the place where a spelling of the root locates
it. -/
def MapsTree (workingDir root spelling : String) (desk : Desk (Disk × τ)) : Prop :=
  ∀ node names path, desk.downstream.1.node? (Bytes.ofText root) = .ok node → node.HasFile names →
    Bytes.ofText path = WalkItem.pathOf names →
      (desk.id? (correlationId (locate workingDir spelling path))).isSome

theorem MapsTree.of_list (hmaps : MapsTree workingDir root first desk)
    (hroot : root.toList.head? = some '/') (hfirst : Spells root first)
    (hsecond : Spells root second)
    {listing : List ListingEntry} (hlist : (list second desk.downstream.1).1 = .ok listing)
    {entry : ListingEntry} (hentry : entry ∈ listing) :
    (desk.id? (correlationId (locate workingDir second entry.path))).isSome := by
  obtain ⟨node, names, hnode, hfile, hpath⟩ := exists_file_of_list hroot hsecond hlist hentry
  rw [locate_of_spells hroot hsecond, ← locate_of_spells hroot hfirst]
  exact hmaps node names entry.path hnode hfile hpath

theorem created_of_mem_diff {listing : List ListingEntry} {change : Change}
    (h : change ∈ (diff none listing).changes) :
    change.kind = .created ∧ ∃ entry ∈ listing, entry.path = change.path := by
  obtain ⟨kind, path⟩ := change
  have hkind := (mem_diff_iff none listing _).mp h
  obtain ⟨-, hthere⟩ := seen_of_changeKind? hkind
  cases kind with
  | created =>
    obtain ⟨fingerprint, hfingerprint⟩ := hthere nofun
    exact ⟨rfl, (Snapshot.mem_paths_ofListing listing path).mp
      ((Snapshot.mem_paths_iff _ path).mpr ⟨fingerprint, hfingerprint⟩)⟩
  | modified => exact absurd rfl (changeKind?_eq_modified_iff.mp hkind).1
  | deleted => exact absurd rfl (changeKind?_eq_deleted_iff.mp hkind).1

theorem untouched_poll (hsnapshot : h.snapshot = none)
    (hrespects : ∀ listing, (list h.config.root desk.downstream.1).1 = .ok listing →
      ∀ entry ∈ listing,
        RespectCreated desk workingDir h.config.root (h.members.map listenerOf) entry.path) :
    Untouched desk
      (h.poll (directoryLister workingDir) (snapshots.over downstreamPart) listenerOf desk).2 := by
  have hlisted : Untouched desk ((directoryLister workingDir).list h.config.root desk).2 :=
    ⟨rfl, rfl⟩
  rw [Harvester.poll]
  cases hbegin : h.beginPoll with
  | notRunning => exact .refl desk
  | idle => exact .refl desk
  | listing root members =>
    obtain ⟨-, rfl, rfl⟩ := Harvester.beginPoll_listing hbegin
    rcases hlist : (directoryLister workingDir).list h.config.root desk with ⟨e | listing, middle⟩
    · rw [hlist] at hlisted
      simp only [bind, StateT.bind, hlist]
      exact hlisted
    · rw [hlist] at hlisted
      have hshown : (list h.config.root desk.downstream.1).1 = .ok listing :=
        congrArg Prod.fst hlist
      have hdelivered : Untouched desk (Harvester.deliverAll (directoryLister workingDir)
          h.config.root h.properties (h.members.map listenerOf) (diff h.snapshot listing).changes
          middle).2 := by
        refine untouched_deliverAll hlisted h.properties fun change hchange => ?_
        rw [hsnapshot] at hchange
        obtain ⟨hkind, entry, hentry, hpath⟩ := created_of_mem_diff hchange
        exact ⟨hkind, hpath ▸ hrespects listing hshown entry hentry⟩
      simp only [bind, StateT.bind, hlist]
      rcases hdeliver : Harvester.deliverAll (directoryLister workingDir) h.config.root h.properties
        (h.members.map listenerOf) (diff h.snapshot listing).changes middle
          with ⟨e | failures, last⟩
      · rw [hdeliver] at hdelivered
        rw [Harvester.finishPoll_of_aborted hdeliver]
        exact hdelivered
      · rw [hdeliver] at hdelivered
        rw [Harvester.finishPoll_of_delivered hdeliver]
        exact hdelivered.trans (untouched_commit snapshots h _ _ last)

/-- All spellings of a root locate a path at one place, so a created and a deleted resource are the
same one under all of them, and different paths are located at different places. A harvester that
comes up with another spelling, under which nothing is stored, tells of every file as created in its
next poll; a listener that has them all mapped takes them for created before, and its adapter is
asked nothing. -/
theorem spelling_is_no_identity (hroot : root.toList.head? = some '/') (hfirst : Spells root first)
    (hsecond : Spells root second) (workingDir : String) :
    (∀ path, locate workingDir first path = locate workingDir root path ∧
      locate workingDir second path = locate workingDir first path ∧
      ∀ properties, (⟨locate workingDir first path, properties⟩ : Resource).correlationId =
        (⟨locate workingDir second path⟩ : DeletedResource).correlationId) ∧
    Function.Injective (locate workingDir first) ∧
    ∀ (τ : Type) (adapter : Adapter (Disk × τ)) (clock : Desk (Disk × τ) → Time.Timestamp)
      (snapshots : BlobStore (Disk × τ)) (listenerOf : ListenerId → Listener (Desk (Disk × τ)))
      (h h' : Harvester) (config : HarvesterConfig) (world world' desk : Desk (Disk × τ)),
      config.root = second →
      (snapshots.load (persistenceKey second) world.downstream).1 = .ok none →
      h.reconfigure (directoryLister workingDir) (snapshots.over downstreamPart) config world =
        ((.ok (), h'), world') →
      desk.Sound → MapsTree workingDir root first desk →
      (∀ member ∈ h.members, listenerOf member = (listener adapter clock).listener ∨
        ∀ resource, Respects desk ((listenerOf member).onCreate resource)) →
      Untouched desk
        (h'.poll (directoryLister workingDir) (snapshots.over downstreamPart) listenerOf desk).2 ∧
      ∀ listing, (list second desk.downstream.1).1 = .ok listing →
        ∀ change ∈ (diff h'.snapshot listing).changes, change.kind = .created ∧
          ∀ properties reading, Untouched desk reading.world →
            (listener adapter clock).onCreate
                ⟨locate workingDir second change.path, properties⟩ reading =
              (.ok (), reading) := by
  have hself := locate_of_spells hroot (.self root) workingDir
  have hlocate : ∀ path, locate workingDir second path = locate workingDir first path := by
    intro path
    rw [locate_of_spells hroot hfirst, locate_of_spells hroot hsecond]
  refine ⟨fun path => ⟨?_, hlocate path, fun properties => ?_⟩, locate_injective workingDir first,
    ?_⟩
  · rw [hself, locate_of_spells hroot hfirst]
  · rw [Resource.correlationId, DeletedResource.correlationId, hlocate]
  · intro τ adapter clock snapshots listenerOf h h' config world world' desk hconfig hnone hraised
      hsound hmaps hmembers
    obtain ⟨-, -, between, blob, hcheck, hload, rfl⟩ := Harvester.reconfigure_eq_ok_iff.mp hraised
    -- Checking a root leaves everything as it is, so nothing is stored when it is looked for.
    obtain rfl : world = between := by
      rw [← snd_checkRoot workingDir config.root world, hcheck]
    obtain rfl : blob = none := by
      rw [hconfig] at hload
      exact Except.ok.inj ((congrArg Prod.fst hload).symm.trans hnone)
    subst hconfig
    constructor
    · refine untouched_poll rfl fun listing hlist entry hentry => ?_
      have hmapped := hmaps.of_list hroot hfirst hsecond hlist hentry
      intro other hother properties
      obtain ⟨member, hmember, rfl⟩ := List.mem_map.mp hother
      rcases hmembers member hmember with hdesk | hapart
      · rw [hdesk]
        exact respects_of_mapped hsound hmapped
      · exact hapart _
    · intro listing hlist change hchange
      obtain ⟨hkind, entry, hentry, hpath⟩ := created_of_mem_diff hchange
      refine ⟨hkind, fun properties reading huntouched => onCreate_of_mapped hsound ?_ huntouched⟩
      rw [← hpath]
      exact hmaps.of_list hroot hfirst hsecond hlist hentry

/-- A directory with one file in it. -/
def shelf : Disk :=
  { Disk.empty "/" with
    root := .directory [([0x64], .directory [([0x61], .file ⟨[1], none⟩ ⟨0, 0⟩)])] }

def shelfRow : Correlation :=
  ⟨"1", "file:///d/a", ⟨0, 0⟩⟩

/-- A desk at which the file is mapped. -/
def shelfDesk : Desk (Disk × MemoryStore) :=
  (Desk.empty (shelf, .empty)).put (correlationId (locate "/" "/d" "a")) shelfRow

def shelfSnapshots : BlobStore (Disk × MemoryStore) :=
  MemoryStore.blobStore.over ⟨Prod.snd, fun snapshots world => (world.1, snapshots)⟩

/-- An adapter that breaks down whatever it is asked. -/
def brittle : Adapter (Disk × MemoryStore) where
  create := fun _ => pure .panicked
  update := fun _ _ => pure .panicked
  delete := fun _ => pure .panicked

def shelfKeeper : Harvester :=
  { Harvester.ofConfig (.ofRoot "h" "/d") with members := [0] }

def respelled : HarvesterConfig :=
  { HarvesterConfig.ofRoot "h" "/d" with root := "file:///d//" }

theorem isValid_shelfRow : shelfRow.recordedAt.IsValid :=
  ⟨by decide, .inl (by decide)⟩

theorem sound_shelfDesk : shelfDesk.Sound :=
  (sound_empty _).put _ isValid_shelfRow

theorem load_shelfSnapshots (key : String) :
    (shelfSnapshots.over downstreamPart).load key shelfDesk = (.ok none, shelfDesk) := rfl

theorem mapsTree_shelfDesk : MapsTree "/" "/d" "/d" shelfDesk := by
  intro node names path hnode hfile hpath
  have hshelf : shelf.node? (Bytes.ofText "/d") =
      .ok (.directory [([0x61], .file ⟨[1], none⟩ ⟨0, 0⟩)]) := rfl
  cases hshelf.symm.trans hnode
  cases hfile with
  | inside hentry hfile =>
    cases List.mem_singleton.mp hentry
    cases hfile
    obtain rfl : path = "a" := Bytes.ofText_inj.mp (hpath.trans (by decide))
    rw [shelfDesk, id?_put _ _ isValid_shelfRow, if_pos rfl]
    rfl

theorem raised_shelfKeeper :
    shelfKeeper.reconfigure (directoryLister "/") (shelfSnapshots.over downstreamPart) respelled
      shelfDesk = ((.ok (), shelfKeeper.adopted respelled none), shelfDesk) := by
  have hcheck : (checkRoot "file:///d//" shelf).1 = .ok () := by decide
  have hroot : (directoryLister "/").checkRoot respelled.root shelfDesk = (.ok (), shelfDesk) :=
    Prod.ext hcheck (snd_checkRoot "/" respelled.root shelfDesk)
  have hconfig : shelfKeeper.checkConfig respelled = .ok () :=
    Harvester.checkConfig_eq_ok_iff.mpr ⟨rfl, rfl⟩
  exact Harvester.reconfigure_eq_ok_iff.mpr
    ⟨hconfig, by decide, shelfDesk, none, hroot, load_shelfSnapshots _, rfl⟩

theorem respelled_shelf_is_untouched :
    shelfKeeper.reconfigure (directoryLister "/") (shelfSnapshots.over downstreamPart) respelled
        shelfDesk = ((.ok (), shelfKeeper.adopted respelled none), shelfDesk) ∧
      (list "file:///d//" shelf).1 = .ok [⟨"a", ⟨1, 0⟩⟩] ∧
      Untouched shelfDesk ((shelfKeeper.adopted respelled none).poll (directoryLister "/")
        (shelfSnapshots.over downstreamPart) (fun _ => (listener brittle fun _ => ⟨0, 0⟩).listener)
        shelfDesk).2 := by
  have hspelling : scheme ++ ("/d" ++ slashes 2) = "file:///d//" := by decide
  have hspells : Spells "/d" "file:///d//" := by
    rw [← hspelling]
    exact .location 2
  obtain ⟨-, -, hrepointed⟩ := spelling_is_no_identity (by decide) (Spells.self "/d") hspells "/"
  refine ⟨raised_shelfKeeper, by decide, ?_⟩
  exact (hrepointed MemoryStore brittle (fun _ => ⟨0, 0⟩) shelfSnapshots _ shelfKeeper _ respelled
    shelfDesk shelfDesk shelfDesk rfl (congrArg Prod.fst (load_shelfSnapshots _)) raised_shelfKeeper
    sound_shelfDesk mapsTree_shelfDesk fun _ _ => .inl rfl).1

end Repointing

end Desk

end CatalogSync
