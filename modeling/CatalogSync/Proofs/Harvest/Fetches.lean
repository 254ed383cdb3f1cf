import CatalogSync.Proofs.Harvest.Poll

namespace CatalogSync

/-- What a listener does about a resource, in view of what it reads and of the state. In the end it
succeeds, fails or breaks down. -/
inductive Handling (σ : Type) where
  | done (outcome : Outcome ListenerError Unit)
  | read (next : Except ContentError Content → Handling σ)
  | act (change : σ → σ) (next : σ → Handling σ)

structure Conduct (σ : Type) where
  name : String
  onCreate : Resource → Handling σ
  onUpdate : Resource → Handling σ
  onDelete : DeletedResource → StateM σ (Outcome ListenerError Unit)

inductive Sight where
  /-- A listener is told of a change of a location. -/
  | told (listener : String) (kind : ChangeKind) (location : String)
  /-- The lister is asked for what is at a location, and answers. -/
  | fetched (location : String) (outcome : Except ContentError Content)
  /-- A listener reads, and sees an outcome. -/
  | read (outcome : Except ContentError Content)

def Sight.told? : Sight → Option (String × ChangeKind × String)
  | told listener kind location => some (listener, kind, location)
  | fetched _ _ | read _ => none

/-- A state that is watched, and what has been seen. -/
structure Watched (σ : Type) where
  world : σ
  sights : List Sight

namespace Watched

variable {σ τ : Type}

section Watching

def worldPart : Part (Watched σ) σ :=
  ⟨Watched.world, fun world watched => { watched with world := world }⟩

def see (sight : Sight) : StateM (Watched σ) Unit := fun watched =>
  ((), { watched with sights := watched.sights ++ [sight] })

/-- A lister that is seen when it fetches. It may answer differently each time. -/
def lister (lister : Lister σ) : Lister (Watched σ) where
  checkRoot := fun root => worldPart.lift (lister.checkRoot root)
  list := fun root => worldPart.lift (lister.list root)
  locate := lister.locate
  fetch := fun location => do
    let outcome ← worldPart.lift (lister.fetch location)
    see (.fetched location outcome)
    return outcome

def handle : Handling σ → StateM (Reading (Watched σ)) (Outcome ListenerError Unit)
  | .done outcome => pure outcome
  | .read next => do
    let outcome ← Reading.read
    Reading.onWorld (see (.read outcome))
    handle (next outcome)
  | .act change next => fun reading =>
    handle (next reading.world.world)
      ⟨reading.content, { reading.world with world := change reading.world.world }⟩

/-- A listener that is seen when it is told of a change and when it reads. -/
def listener (conduct : Conduct σ) : Listener (Watched σ) where
  name := conduct.name
  onCreate := fun resource => do
    Reading.onWorld (see (.told conduct.name .created resource.location))
    handle (conduct.onCreate resource)
  onUpdate := fun resource => do
    Reading.onWorld (see (.told conduct.name .modified resource.location))
    handle (conduct.onUpdate resource)
  onDelete := fun resource => do
    see (.told conduct.name .deleted resource.location)
    worldPart.lift (conduct.onDelete resource)

end Watching

section Events

/-- Nobody reads and nothing is fetched. -/
def Unread (sights : List Sight) : Prop :=
  ∀ sight ∈ sights, sight.told?.isSome = true

/-- What is seen of a location once the outcome of a fetch is known: somebody has been told, the
fetch was made for the first read, it is the only one, and all reads see what it brought. -/
def ReadsOf (location : String) (outcome : Except ContentError Content) (sights : List Sight) :
    Prop :=
  ∃ front back, sights = front ++ .fetched location outcome :: .read outcome :: back ∧ front ≠ [] ∧
    Unread front ∧ ∀ sight ∈ back, sight.told?.isSome = true ∨ sight = .read outcome

/-- A change of a location, and the names of the listeners that are told of it. -/
structure Event where
  kind : ChangeKind
  location : String
  listeners : List String

/-- What is seen of an event. -/
structure Seen (event : Event) (sights : List Sight) : Prop where
  told : sights.filterMap Sight.told? =
    event.listeners.map fun name => (name, event.kind, event.location)
  content : Unread sights ∨
    event.kind ≠ .deleted ∧ ∃ outcome, ReadsOf event.location outcome sights

/-- What is seen of events in order. If one of the listeners puts an end to all this, then some of
the listeners have been told of the event, and nobody is told of those after it. -/
inductive AllSeen : Option StoreError → List Event → List (List Sight) → Prop where
  | finished : AllSeen none [] []
  | next {event : Event} {events : List Event} {sights : List Sight} {segments : List (List Sight)}
      {ended : Option StoreError} (hseen : Seen event sights)
      (hrest : AllSeen ended events segments) :
      AllSeen ended (event :: events) (sights :: segments)
  | aborted {event : Event} {events : List Event} {sights : List Sight} {called : List String}
      (e : StoreError) (hcalled : called <+: event.listeners)
      (hseen : Seen { event with listeners := called } sights) :
      AllSeen (some e) (event :: events) [sights]

end Events

section Callbacks

/-- What is seen of an event as long as it lasts, by the outcome that is known. -/
def Shows (location : String) : Option (Except ContentError Content) → List Sight → Prop
  | none, sights => Unread sights
  | some outcome, sights => ReadsOf location outcome sights

/-- An event of which some listeners have been told, in the middle of its delivery. -/
structure Tracks (source : Lister σ) (log : List Sight) (kind : ChangeKind) (location : String)
    (told : List String) (reading : Reading (Watched σ)) : Prop where
  fetch : reading.content.fetch = (lister source).fetch location
  seen : ∃ sights, reading.world.sights = log ++ sights ∧
    sights.filterMap Sight.told? = told.map (fun name => (name, kind, location)) ∧
    Shows location reading.content.outcome sights

variable {source : Lister σ} {log : List Sight} {kind : ChangeKind} {location : String}
  {told : List String} {reading : Reading (Watched σ)}

theorem Unread.tell {sights : List Sight} (h : Unread sights) (name : String) :
    Unread (sights ++ [.told name kind location]) :=
  List.forall_mem_append.mpr ⟨h, List.forall_mem_singleton.mpr rfl⟩

theorem ReadsOf.tell {outcome : Except ContentError Content} {sights : List Sight}
    (h : ReadsOf location outcome sights) (name : String) :
    ReadsOf location outcome (sights ++ [.told name kind location]) := by
  obtain ⟨front, back, rfl, hnonempty, hfront, hback⟩ := h
  refine ⟨front, back ++ [.told name kind location], by simp, hnonempty, hfront, ?_⟩
  exact List.forall_mem_append.mpr ⟨hback, List.forall_mem_singleton.mpr (Or.inl rfl)⟩

theorem ReadsOf.again {outcome : Except ContentError Content} {sights : List Sight}
    (h : ReadsOf location outcome sights) :
    ReadsOf location outcome (sights ++ [.read outcome]) := by
  obtain ⟨front, back, rfl, hnonempty, hfront, hback⟩ := h
  refine ⟨front, back ++ [.read outcome], by simp, hnonempty, hfront, ?_⟩
  exact List.forall_mem_append.mpr ⟨hback, List.forall_mem_singleton.mpr (Or.inr rfl)⟩

theorem Unread.first {sights : List Sight} (h : Unread sights) (hnonempty : sights ≠ [])
    (outcome : Except ContentError Content) :
    ReadsOf location outcome (sights ++ [.fetched location outcome, .read outcome]) :=
  ⟨sights, [], rfl, hnonempty, h, List.forall_mem_nil _⟩

theorem fetch_lister (source : Lister σ) (location : String) (watched : Watched σ) :
    (lister source).fetch location watched =
      ((source.fetch location watched.world).1, ⟨(source.fetch location watched.world).2,
        watched.sights ++ [.fetched location (source.fetch location watched.world).1]⟩) := rfl

theorem Tracks.tell (h : Tracks source log kind location told reading) (name : String) :
    Tracks source log kind location (told ++ [name])
      (Reading.onWorld (see (.told name kind location)) reading).2 := by
  obtain ⟨hfetch, sights, hlog, htold, hshows⟩ := h
  have hshown : Shows location reading.content.outcome (sights ++ [.told name kind location]) := by
    cases hknown : reading.content.outcome with
    | none =>
      rw [hknown] at hshows
      exact Unread.tell hshows name
    | some outcome =>
      rw [hknown] at hshows
      exact ReadsOf.tell hshows name
  refine ⟨hfetch, sights ++ [Sight.told name kind location], ?_, ?_, hshown⟩
  · rw [← List.append_assoc, ← hlog]
    rfl
  · rw [List.filterMap_append, htold, List.map_append]
    rfl

theorem Tracks.read (h : Tracks source log kind location told reading) (hsome : told ≠ []) :
    ∃ outcome after, Reading.read reading = (outcome, after) ∧
      Tracks source log kind location told (Reading.onWorld (see (.read outcome)) after).2 := by
  obtain ⟨hfetch, sights, hlog, htold, hshows⟩ := h
  cases hknown : reading.content.outcome with
  | some outcome =>
    rw [hknown] at hshows
    have hreads : ReadsOf location outcome (sights ++ [.read outcome]) := ReadsOf.again hshows
    refine ⟨outcome, reading, by rw [Reading.read, hknown], hfetch, sights ++ [.read outcome], ?_,
      ?_, hknown ▸ hreads⟩
    · simp [Reading.onWorld, see, hlog]
    · simpa [List.filterMap_cons, Sight.told?] using htold
  | none =>
    rw [hknown] at hshows
    have hnonempty : sights ≠ [] := by
      rintro rfl
      exact hsome (List.map_eq_nil_iff.mp htold.symm)
    rcases hanswer : source.fetch location reading.world.world with ⟨outcome, world⟩
    have hreads : ReadsOf location outcome (sights ++ [.fetched location outcome, .read outcome]) :=
      Unread.first hshows hnonempty outcome
    refine ⟨outcome, ⟨⟨reading.content.fetch, some outcome⟩,
      ⟨world, reading.world.sights ++ [Sight.fetched location outcome]⟩⟩, ?_, hfetch,
      sights ++ [Sight.fetched location outcome, Sight.read outcome], ?_, ?_, hreads⟩
    · simp only [Reading.read, hknown, hfetch, fetch_lister, hanswer]
    · simp [Reading.onWorld, see, hlog]
    · simpa [List.filterMap_cons, Sight.told?] using htold

theorem Tracks.handle (handling : Handling σ) (h : Tracks source log kind location told reading)
    (hsome : told ≠ []) : Tracks source log kind location told (handle handling reading).2 := by
  induction handling generalizing reading with
  | done outcome => exact h
  | read next ih =>
    obtain ⟨outcome, after, hread, hafter⟩ := h.read hsome
    have hresult : Watched.handle (.read next) reading =
        Watched.handle (next outcome) (Reading.onWorld (see (.read outcome)) after).2 := by
      simp only [Watched.handle, bind, StateT.bind, hread]
      rfl
    rw [hresult]
    exact ih outcome hafter
  | act change next ih => exact ih _ ⟨h.fetch, h.seen⟩

theorem Tracks.onCreate (h : Tracks source log .created location told reading) (conduct : Conduct σ)
    (properties : Properties) : Tracks source log .created location (told ++ [conduct.name])
      ((listener conduct).onCreate ⟨location, properties⟩ reading).2 :=
  (h.tell conduct.name).handle (conduct.onCreate ⟨location, properties⟩) (by simp)

theorem Tracks.onUpdate (h : Tracks source log .modified location told reading)
    (conduct : Conduct σ)
    (properties : Properties) : Tracks source log .modified location (told ++ [conduct.name])
      ((listener conduct).onUpdate ⟨location, properties⟩ reading).2 :=
  (h.tell conduct.name).handle (conduct.onUpdate ⟨location, properties⟩) (by simp)

end Callbacks

section Deliveries

open Harvester

variable {source : Lister σ} {root : String} {properties : Properties}

/-- Whatever a call about each listener adds to those that have been told, all calls add up to all
listeners, or to the first of them if one puts an end to it. -/
theorem callAll_tells {P : List String → τ → Prop}
    (call : Listener (Watched σ) → StateM τ (Outcome ListenerError Unit))
    (hcall : ∀ conduct told state, P told state →
      P (told ++ [conduct.name]) (call (listener conduct) state).2)
    (conducts : List (Conduct σ)) {told : List String} {state : τ} (h : P told state) :
    (∃ failed after, callAll call (conducts.map listener) state = (.ok failed, after) ∧
        P (told ++ conducts.map Conduct.name) after) ∨
      ∃ e called after, callAll call (conducts.map listener) state = (.error e, after) ∧
        called <+: conducts.map Conduct.name ∧ P (told ++ called) after := by
  rw [callAll_eq_countAll]
  induction conducts generalizing told state with
  | nil => exact Or.inl ⟨0, state, rfl, by simpa using h⟩
  | cons conduct rest ih =>
    have hnext := hcall conduct told state h
    rcases hanswer : call (listener conduct) state with ⟨outcome, middle⟩
    rw [hanswer] at hnext
    have hcount : countOf (call (listener conduct)) state = (failureCount outcome, middle) := by
      simp only [countOf, bind, StateT.bind, hanswer]
      rfl
    simp only [List.map_cons, countAll]
    cases hfailure : failureCount outcome with
    | error e =>
      rw [hfailure] at hcount
      exact Or.inr ⟨e, [conduct.name], middle, addCounts_of_error hcount, by simp, hnext⟩
    | ok failed =>
      rw [hfailure] at hcount
      rw [addCounts_of_ok hcount]
      rcases ih hnext with ⟨more, after, hrest, hafter⟩ | ⟨e, called, after, hrest, hcalled, hafter⟩
      · rw [hrest]
        exact Or.inl ⟨failed + more, after, rfl, by simpa using hafter⟩
      · rw [hrest]
        exact Or.inr ⟨e, conduct.name :: called, after, rfl, (List.prefix_cons_inj _).mpr hcalled,
          by simpa using hafter⟩

theorem seen_of_tracks {log : List Sight} {kind : ChangeKind} {location : String}
    {told : List String} {reading : Reading (Watched σ)} (hkind : kind ≠ .deleted)
    (h : Tracks source log kind location told reading) :
    ∃ sights, reading.world.sights = log ++ sights ∧ Seen ⟨kind, location, told⟩ sights := by
  obtain ⟨-, sights, hlog, htold, hshows⟩ := h
  refine ⟨sights, hlog, htold, ?_⟩
  cases hknown : reading.content.outcome with
  | none =>
    rw [hknown] at hshows
    exact Or.inl hshows
  | some outcome =>
    rw [hknown] at hshows
    exact Or.inr ⟨hkind, outcome, hshows⟩

def eventOf (source : Lister σ) (root : String) (conducts : List (Conduct σ)) (change : Change) :
    Event :=
  ⟨change.kind, source.locate root change.path, conducts.map Conduct.name⟩

/-- How the delivery of an event ends, with what is seen of it. -/
inductive Delivered (event : Event) (log : List Sight) :
    Except StoreError Nat × Watched σ → Prop where
  | completed (failed : Nat) (after : Watched σ) (sights : List Sight)
      (hlog : after.sights = log ++ sights) (hseen : Seen event sights) :
      Delivered event log (.ok failed, after)
  | aborted (e : StoreError) (after : Watched σ) (called : List String) (sights : List Sight)
      (hcalled : called <+: event.listeners) (hlog : after.sights = log ++ sights)
      (hseen : Seen { event with listeners := called } sights) :
      Delivered event log (.error e, after)

theorem delivered_run {kind : ChangeKind} (hkind : kind ≠ .deleted) (location : String)
    (call : Listener (Watched σ) → StateM (Reading (Watched σ)) (Outcome ListenerError Unit))
    {watched : Watched σ}
    (hcall : ∀ conduct told reading, Tracks source watched.sights kind location told reading →
      Tracks source watched.sights kind location (told ++ [conduct.name])
        (call (listener conduct) reading).2) (conducts : List (Conduct σ)) :
    Delivered ⟨kind, location, conducts.map Conduct.name⟩ watched.sights
      (Reading.run (callAll call (conducts.map listener))
        (.ofFetch ((lister source).fetch location))
        watched) := by
  have hstart : Tracks source watched.sights kind location []
      ⟨.ofFetch ((lister source).fetch location), watched⟩ :=
    ⟨rfl, [], (List.append_nil _).symm, rfl, nofun⟩
  rcases callAll_tells call hcall conducts hstart with
    ⟨failed, after, hresult, hafter⟩ | ⟨e, called, after, hresult, hcalled, hafter⟩
  · obtain ⟨sights, hlog, hseen⟩ := seen_of_tracks hkind hafter
    rw [Reading.run, hresult]
    exact .completed failed after.world sights hlog hseen
  · obtain ⟨sights, hlog, hseen⟩ := seen_of_tracks hkind hafter
    rw [Reading.run, hresult]
    exact .aborted e after.world called sights hcalled hlog hseen

/-- Listeners have been told of a deletion, and nothing else has been seen. -/
def TellsGone (log : List Sight) (location : String) (told : List String) (after : Watched σ) :
    Prop :=
  after.sights = log ++ told.map fun name => .told name .deleted location

theorem TellsGone.onDelete {log : List Sight} {location : String} {told : List String}
    {after : Watched σ} (h : TellsGone log location told after) (conduct : Conduct σ) :
    TellsGone log location (told ++ [conduct.name])
      ((listener conduct).onDelete ⟨location⟩ after).2 := by
  have hsights : ((listener conduct).onDelete ⟨location⟩ after).2.sights =
      after.sights ++ [.told conduct.name .deleted location] := rfl
  rw [TellsGone, hsights, h, List.map_append, List.append_assoc]
  rfl

theorem seen_gone (location : String) (told : List String) :
    Seen ⟨.deleted, location, told⟩ (told.map fun name => .told name .deleted location) := by
  refine ⟨?_, Or.inl ?_⟩
  · rw [List.filterMap_map]
    exact congrFun (@List.filterMap_eq_map _ _ fun name => (name, ChangeKind.deleted, location))
      told
  · intro sight hsight
    obtain ⟨name, -, rfl⟩ := List.mem_map.mp hsight
    rfl

theorem delivered_onDelete (location : String) (conducts : List (Conduct σ)) (watched : Watched σ) :
    Delivered ⟨.deleted, location, conducts.map Conduct.name⟩ watched.sights
      (callAll (fun listener => listener.onDelete ⟨location⟩) (conducts.map listener) watched) := by
  have hstart : TellsGone watched.sights location [] watched := (List.append_nil _).symm
  have hcall : ∀ (conduct : Conduct σ) told after, TellsGone watched.sights location told after →
      TellsGone watched.sights location (told ++ [conduct.name])
        ((listener conduct).onDelete ⟨location⟩ after).2 :=
    fun conduct _ _ h => h.onDelete conduct
  rcases callAll_tells (fun listener => listener.onDelete ⟨location⟩) hcall conducts hstart with
    ⟨failed, after, hresult, hafter⟩ | ⟨e, called, after, hresult, hcalled, hafter⟩
  · rw [hresult]
    exact .completed failed after _ hafter (seen_gone location _)
  · rw [hresult]
    exact .aborted e after called _ hcalled hafter (seen_gone location _)

theorem delivered_deliver (source : Lister σ) (root : String) (properties : Properties)
    (conducts : List (Conduct σ)) (change : Change) (watched : Watched σ) :
    Delivered (eventOf source root conducts change) watched.sights
      (deliver (lister source) root properties (conducts.map listener) change watched) := by
  obtain ⟨kind, path⟩ := change
  cases kind with
  | created =>
    have hkind : ChangeKind.created ≠ .deleted := by decide
    exact delivered_run hkind _ (fun listener => listener.onCreate ⟨_, properties⟩)
      (fun conduct _ _ h => h.onCreate conduct properties) conducts
  | modified =>
    have hkind : ChangeKind.modified ≠ .deleted := by decide
    exact delivered_run hkind _ (fun listener => listener.onUpdate ⟨_, properties⟩)
      (fun conduct _ _ h => h.onUpdate conduct properties) conducts
  | deleted => exact delivered_onDelete _ conducts watched

def abort? : Except StoreError Nat → Option StoreError
  | .ok _ => none
  | .error e => some e

theorem allSeen_deliverAll (source : Lister σ) (root : String) (properties : Properties)
    (conducts : List (Conduct σ)) (changes : List Change) (watched : Watched σ) :
    ∃ answer after segments,
      deliverAll (lister source) root properties (conducts.map listener) changes watched =
        (answer, after) ∧
      after.sights = watched.sights ++ segments.flatten ∧
      AllSeen (abort? answer) (changes.map (eventOf source root conducts)) segments := by
  induction changes generalizing watched with
  | nil => exact ⟨.ok 0, watched, [], rfl, (List.append_nil _).symm, .finished⟩
  | cons change rest ih =>
    have hdelivered := delivered_deliver source root properties conducts change watched
    rw [deliverAll_cons]
    rcases hresult : deliver (lister source) root properties (conducts.map listener) change watched
      with
      ⟨answer, middle⟩
    rw [hresult] at hdelivered
    cases hdelivered with
    | aborted e _ called sights hcalled hlog hseen =>
      exact ⟨.error e, middle, [sights], addCounts_of_error hresult, by simpa using hlog,
        .aborted e hcalled hseen⟩
    | completed failed _ sights hlog hseen =>
      obtain ⟨answer, after, segments, hrest, hsights, hall⟩ := ih middle
      rw [addCounts_of_ok hresult, hrest]
      rw [hlog, List.append_assoc, ← List.flatten_cons] at hsights
      cases answer with
      | error e => exact ⟨.error e, after, sights :: segments, rfl, hsights, .next hseen hall⟩
      | ok more =>
        exact ⟨.ok (failed + more), after, sights :: segments, rfl, hsights, .next hseen hall⟩

end Deliveries

section Polls

open Harvester

/-- The events of a poll, if it comes to them: the changes since the last one, each for all
members. -/
def dueEvents (source : Lister σ) (conductOf : ListenerId → Conduct σ) (h : Harvester) (world : σ) :
    List Event :=
  match h.beginPoll with
  | .notRunning | .idle => []
  | .listing root members =>
    match (source.list root world).1 with
    | .error _ => []
    | .ok listing =>
      (diff h.snapshot listing).changes.map (eventOf source root (members.map conductOf))

/-- What is seen of the events of a poll that ends with a result. Only a poll that fails leaves some
out. -/
def PollSeen (events : List Event) (result : Except HarvestError PollReport)
    (segments : List (List Sight)) : Prop :=
  ∃ ended, AllSeen ended events segments ∧ ∀ e, ended = some e → result = .error (.persistence e)

def watchedPoll (source : Lister σ) (store : BlobStore σ) (conductOf : ListenerId → Conduct σ)
    (h : Harvester) : StateM (Watched σ) (Except HarvestError PollReport × Harvester) :=
  poll (lister source) (store.over worldPart) (fun id => listener (conductOf id)) h

theorem sights_commit (store : BlobStore σ) (h : Harvester) (listing : List ListingEntry)
    (failures : Nat) (watched : Watched σ) :
    (commit (store.over worldPart) h (diff h.snapshot listing)
      (.ofDiff (diff h.snapshot listing) failures) watched).2.sights = watched.sights := by
  have hstore : ((store.over worldPart).store h.snapshotKey (Snapshot.ofListing listing).encode
      watched).2.sights = watched.sights := rfl
  rcases commit_cases (store.over worldPart) h listing failures watched with
    ⟨-, hcommit⟩ | ⟨e, after, hanswer, hcommit⟩ | ⟨after, hanswer, hcommit⟩
  · rw [hcommit]
  · rw [hcommit, ← hstore, hanswer]
  · rw [hcommit, ← hstore, hanswer]

theorem pollSeen_watchedPoll (source : Lister σ) (store : BlobStore σ)
    (conductOf : ListenerId → Conduct σ) (h : Harvester) (watched : Watched σ) :
    ∃ segments,
      (watchedPoll source store conductOf h watched).2.sights = watched.sights ++ segments.flatten ∧
      PollSeen (dueEvents source conductOf h watched.world)
        (watchedPoll source store conductOf h watched).1.1 segments := by
  have hnothing : ∀ result, PollSeen [] result [] := fun _ => ⟨none, .finished, nofun⟩
  rw [watchedPoll, poll, dueEvents]
  cases hbegin : h.beginPoll with
  | notRunning => exact ⟨[], (List.append_nil _).symm, hnothing _⟩
  | idle => exact ⟨[], (List.append_nil _).symm, hnothing _⟩
  | listing root members =>
    rcases hlisted : source.list root watched.world with ⟨answer, world⟩
    have hlist : (lister source).list root watched = (answer, { watched with world := world }) := by
      simp only [lister, Part.lift, worldPart, hlisted]
    simp only [bind, StateT.bind, hlist, hlisted]
    cases answer with
    | error e => exact ⟨[], (List.append_nil _).symm, hnothing _⟩
    | ok listing =>
      obtain ⟨answer, after, segments, hdeliver, hsights, hall⟩ := allSeen_deliverAll source root
        h.properties (members.map conductOf) (diff h.snapshot listing).changes
          { watched with world := world }
      rw [List.map_map] at hdeliver
      refine ⟨segments, ?_, abort? answer, hall, ?_⟩
      · rw [← hsights]
        cases answer with
        | error e => exact congrArg (·.2.sights) (finishPoll_of_aborted hdeliver)
        | ok failures =>
          refine (congrArg (·.2.sights) (finishPoll_of_delivered hdeliver)).trans ?_
          exact sights_commit store h listing failures after
      · intro e hended
        cases answer with
        | error e' =>
          cases hended
          exact congrArg (·.1.1) (finishPoll_of_aborted hdeliver)
        | ok failures => cases hended

end Polls

section Runs

/-- What happens: polls, each with a lister, a store and listeners of its own, and anything else in
between. -/
inductive Act (σ : Type) where
  | poll (source : Lister σ) (store : BlobStore σ) (conductOf : ListenerId → Conduct σ)
  | other (change : Harvester × σ → Harvester × σ)

def perform (state : Harvester × Watched σ) : Act σ → Harvester × Watched σ
  | .poll source store conductOf =>
    let ((_, h), watched) := watchedPoll source store conductOf state.1 state.2
    (h, watched)
  | .other change =>
    let (h, world) := change (state.1, state.2.world)
    (h, { state.2 with world := world })

/-- A poll of a run: the events that were due, the result, and what has been seen meanwhile. -/
structure Episode where
  events : List Event
  result : Except HarvestError PollReport
  sights : List Sight

def episodes (state : Harvester × Watched σ) : List (Act σ) → List Episode
  | [] => []
  | .poll source store conductOf :: acts =>
    let ((result, h), watched) := watchedPoll source store conductOf state.1 state.2
    ⟨dueEvents source conductOf state.1 state.2.world, result,
      watched.sights.drop state.2.sights.length⟩ :: episodes (h, watched) acts
  | .other change :: acts => episodes (perform state (.other change)) acts

/-- Whatever listers answer, each time anew, and whatever listeners do about it: what is seen in a
run is what is seen in its polls, event after event. Nothing is fetched for an event unless somebody
reads; then there is one fetch, of the location of the event, and all that read about this event see
what it brought. -/
theorem contents_fetched_once_per_event (acts : List (Act σ)) (start : Harvester × Watched σ) :
    (acts.foldl perform start).2.sights =
        start.2.sights ++ ((episodes start acts).map Episode.sights).flatten ∧
      ∀ episode ∈ episodes start acts, ∃ segments,
        episode.sights = segments.flatten ∧ PollSeen episode.events episode.result segments := by
  induction acts generalizing start with
  | nil => exact ⟨(List.append_nil _).symm, nofun⟩
  | cons act acts ih =>
    obtain ⟨hsights, hepisodes⟩ := ih (perform start act)
    cases act with
    | other change => exact ⟨hsights, hepisodes⟩
    | poll source store conductOf =>
      obtain ⟨segments, hadded, hseen⟩ :=
        pollSeen_watchedPoll source store conductOf start.1 start.2
      have hdrop : (watchedPoll source store conductOf start.1 start.2).2.sights.drop
          start.2.sights.length = segments.flatten := by
        rw [hadded, List.drop_left]
      refine ⟨?_, List.forall_mem_cons.mpr ⟨⟨segments, hdrop, hseen⟩, hepisodes⟩⟩
      have hfirst : (perform start (.poll source store conductOf)).2.sights =
        start.2.sights ++ segments.flatten := hadded
      rw [List.foldl_cons, hsights, hfirst, List.append_assoc, ← hdrop]
      rfl

/-- A lister that lists one file, and finds something there only every other time. -/
def fickle (fingerprint : Fingerprint) : Lister Nat where
  checkRoot := fun _ => pure (.ok ())
  list := fun _ => pure (.ok [⟨"a", fingerprint⟩])
  locate := fun root path => root ++ "/" ++ path
  fetch := fun location count =>
    (if count % 2 = 0 then .error (.unavailable location) else .ok (.ofBytes "a" [count.toUInt8]),
      count + 1)

def forgetful : BlobStore Nat :=
  ⟨fun _ _ => pure (.ok ()), fun _ => pure (.ok none), fun _ => pure (.ok false), pure (.ok [])⟩

/-- Listener 0 reads twice and breaks down, and everybody else reads once and succeeds. -/
def readerOf : ListenerId → Conduct Nat
  | 0 => ⟨"jumpy", fun _ => .read fun _ => .read fun _ => .done .panicked,
      fun _ => .read fun _ => .read fun _ => .done .panicked, fun _ => pure .panicked⟩
  | _ => ⟨"calm", fun _ => .read fun _ => .done (.ok ()), fun _ => .read fun _ => .done (.ok ()),
      fun _ => pure (.ok ())⟩

def curious : Harvester × Watched Nat :=
  ({ Harvester.ofConfig (.ofRoot "h" "r") with status := .polling, members := [0, 1] }, ⟨0, []⟩)

/-- One file, created and then modified, in two polls. -/
def twoPolls : List (Act Nat) :=
  [.poll (fickle ⟨1, 1⟩) forgetful readerOf, .poll (fickle ⟨2, 2⟩) forgetful readerOf]

/-- The same file is fetched anew in the second poll, and each time both listeners see the same. -/
theorem file_fetched_in_both_polls :
    (∃ episode ∈ episodes curious twoPolls,
      episode.events = [⟨.created, "r/a", ["jumpy", "calm"]⟩] ∧ ∃ segments,
        episode.sights = segments.flatten ∧ PollSeen episode.events episode.result segments) ∧
    ((episodes curious twoPolls).map Episode.sights).flatten =
      [.told "jumpy" .created "r/a", .fetched "r/a" (.error (.unavailable "r/a")),
        .read (.error (.unavailable "r/a")), .read (.error (.unavailable "r/a")),
        .told "calm" .created "r/a", .read (.error (.unavailable "r/a")),
        .told "jumpy" .modified "r/a", .fetched "r/a" (.ok (.ofBytes "a" [1])),
        .read (.ok (.ofBytes "a" [1])), .read (.ok (.ofBytes "a" [1])),
        .told "calm" .modified "r/a", .read (.ok (.ofBytes "a" [1]))] := by
  obtain ⟨hsights, hepisodes⟩ := contents_fetched_once_per_event twoPolls curious
  refine ⟨⟨_, List.mem_cons_self, rfl, hepisodes _ List.mem_cons_self⟩, ?_⟩
  exact (List.nil_append _).symm.trans (hsights.symm.trans rfl)

end Runs

end Watched

end CatalogSync
