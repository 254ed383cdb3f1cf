import CatalogSync.Proofs.Registry.Attachments

namespace CatalogSync.Simulation.World

open Registry (join)

/-- A harvester as it is without any listeners. -/
def alone (h : Harvester) : Harvester := { h with members := [] }

def IsAddition : RegistryCall → Prop
  | .addHarvester _ => True
  | .addListener _ _ => True
  | .removeHarvester _ => False
  | .removeListener _ => False

def addedListener? : RegistryCall → Option (String × ListenerId)
  | .addListener id listener => some (id, listener)
  | _ => none

def offered? (world : World) (id : String) : RegistryCall → Option HarvesterRef
  | .addHarvester ref =>
    if (world.harvester? ref).map Harvester.id = some id then some ref else none
  | _ => none

/-- A harvester that goes by its id has been joined by everyone who is registered for it. -/
def joined (world : World) (ref : HarvesterRef) (h : Harvester) : Harvester :=
  if world.harvesterFor? h.id = some ref then
    { h with members := (watching h.id world.registrations).foldl (join h.policy) h.members }
  else h

/-- Nothing has happened to the harvesters of an earlier world but that they have been joined. -/
def HasJoined (base world : World) : Prop :=
  ∀ ref, world.harvester? ref = (base.harvester? ref).map (joined world ref)

/-- Harvesters that are known after both series of calls, or after neither, have the same listeners.
If the first harvester that is added with an id is always the same, everything is the same. -/
structure SettlesAlike (world : World) (first second : List RegistryCall) : Prop where
  sameListeners : ∀ ref,
    ((∃ id, (world.serveAll first).harvesterFor? id = some ref) ↔
      ∃ id, (world.serveAll second).harvesterFor? id = some ref) →
    (world.serveAll first).harvester? ref = (world.serveAll second).harvester? ref
  sameHarvesters : (∀ id, first.findSome? (world.offered? id) =
    second.findSome? (world.offered? id)) →
    (world.serveAll first).registry.harvesters = (world.serveAll second).registry.harvesters ∧
      (world.serveAll first).harvester? = (world.serveAll second).harvester?

section Frame

variable (world : World)

theorem map_alone_ite (harvester : Option Harvester) (changes : Prop) [Decidable changes]
    (change : Harvester → List ListenerId) :
    (harvester.map fun h => if changes then { h with members := change h } else h).map alone =
      harvester.map alone := by
  rw [Option.map_map]
  apply Option.map_congr
  intro h _
  rw [Function.comp_apply]
  split <;> rfl

theorem alone_serve (call : RegistryCall) (ref : HarvesterRef) :
    ((world.serve call).harvester? ref).map alone = (world.harvester? ref).map alone := by
  cases call with
  | addHarvester added =>
    rcases world.serve_addHarvester added with ⟨hsame, -⟩ | ⟨h, hh, -, -, hharvester⟩
    · rw [hsame]
    · rw [hharvester]
      split
      · rename_i heq
        rw [heq, hh]
        rfl
      · rfl
  | removeHarvester id =>
    rcases world.serve_removeHarvester id with ⟨hsame, -⟩ | ⟨removed, -, -, hharvester⟩
    · rw [hsame]
    · rw [hharvester, map_alone_ite]
  | addListener id listener =>
    rw [world.harvester?_addListener, map_alone_ite]
  | removeListener listener =>
    rcases world.serve_removeListener listener with ⟨hsame, -⟩ |
      ⟨id, before, after, -, -, -, -, hharvester⟩
    · rw [hsame]
    · rw [hharvester, map_alone_ite]

theorem alone_serveAll (calls : List RegistryCall) (ref : HarvesterRef) :
    ((world.serveAll calls).harvester? ref).map alone = (world.harvester? ref).map alone := by
  induction calls generalizing world with
  | nil => rfl
  | cons call calls ih => exact (ih (world.serve call)).trans (world.alone_serve call ref)

theorem offered?_serve (call : RegistryCall) (id : String) :
    (world.serve call).offered? id = world.offered? id := by
  funext other
  cases other with
  | addHarvester ref =>
    have hid : ((world.serve call).harvester? ref).map Harvester.id =
        (world.harvester? ref).map Harvester.id := by
      have halone := congrArg (Option.map Harvester.id) (world.alone_serve call ref)
      rw [Option.map_map, Option.map_map] at halone
      exact halone
    simp only [offered?, hid]
  | removeHarvester id => rfl
  | addListener id listener => rfl
  | removeListener listener => rfl

end Frame

section Additions

variable {base world : World} {calls : List RegistryCall}

theorem harvesterFor?_addition (world : World) {call : RegistryCall} (hcall : IsAddition call)
    (id : String) :
    (world.serve call).harvesterFor? id = (world.harvesterFor? id).or (world.offered? id call) := by
  cases call with
  | removeHarvester _ => cases hcall
  | removeListener _ => cases hcall
  | addListener other listener =>
    rw [harvesterFor?_addListener]
    exact Option.or_none.symm
  | addHarvester ref =>
    rcases world.serve_addHarvester ref with ⟨hsame, hknown⟩ | ⟨h, hh, hnew, hfor, -⟩
    · rw [hsame, offered?]
      split
      · rename_i hid
        obtain ⟨h, hh, rfl⟩ := Option.map_eq_some_iff.mp hid
        obtain ⟨other, hother⟩ := Option.isSome_iff_exists.mp (hknown h hh)
        rw [hother, Option.some_or]
      · rw [Option.or_none]
    · rw [hfor, offered?, hh, Option.map_some]
      by_cases hid : id = h.id
      · rw [if_pos hid, if_pos (congrArg some hid.symm), hid, hnew, Option.none_or]
      · rw [if_neg hid, if_neg fun heq => hid (Option.some.inj heq).symm, Option.or_none]

theorem harvesterFor?_additions (hcalls : ∀ call ∈ calls, IsAddition call) (id : String) :
    (world.serveAll calls).harvesterFor? id =
      (world.harvesterFor? id).or (calls.findSome? (world.offered? id)) := by
  induction calls generalizing world with
  | nil => exact (Option.or_none).symm
  | cons call calls ih =>
    obtain ⟨hcall, hrest⟩ := List.forall_mem_cons.mp hcalls
    calc (world.serveAll (call :: calls)).harvesterFor? id
        = ((world.serve call).harvesterFor? id).or
            (calls.findSome? ((world.serve call).offered? id)) := ih hrest
      _ = (world.harvesterFor? id).or
            ((world.offered? id call).or (calls.findSome? (world.offered? id))) := by
          rw [harvesterFor?_addition world hcall, offered?_serve, Option.or_assoc]
      _ = (world.harvesterFor? id).or ((call :: calls).findSome? (world.offered? id)) := by
          rw [List.findSome?_cons]
          cases world.offered? id call <;> rfl

theorem registrations_additions (hcalls : ∀ call ∈ calls, IsAddition call) :
    (world.serveAll calls).registrations =
      world.registrations ++ calls.filterMap addedListener? := by
  rw [registrations_serveAll]
  generalize world.registrations = registrations
  induction calls generalizing registrations with
  | nil => exact (List.append_nil _).symm
  | cons call calls ih =>
    obtain ⟨hcall, hrest⟩ := List.forall_mem_cons.mp hcalls
    rw [List.foldl_cons, ih hrest]
    cases call with
    | addHarvester ref => rfl
    | addListener id listener => simp [enrol, addedListener?]
    | removeHarvester id => cases hcall
    | removeListener listener => cases hcall

theorem id_joined (world : World) (ref : HarvesterRef) (h : Harvester) :
    (joined world ref h).id = h.id := by
  unfold joined
  split <;> rfl

theorem hasJoined_of_attached (h : Attached world) : HasJoined world world := by
  intro ref
  cases hg : world.harvester? ref with
  | none => rfl
  | some g =>
    rw [Option.map_some, joined]
    split
    · rename_i hfor
      obtain ⟨g', hg', -, hholds⟩ := h.held g.id ref hfor
      obtain rfl := Option.some.inj (hg.symm.trans hg')
      rw [hholds.foldl_join]
    · rfl

theorem HasJoined.addHarvester (hjoined : HasJoined base world) (added : HarvesterRef) :
    HasJoined base (world.serve (.addHarvester added)) := by
  intro ref
  have hregistrations : (world.serve (.addHarvester added)).registrations = world.registrations :=
    world.registrations_serve _
  rcases world.serve_addHarvester added with ⟨hsame, -⟩ | ⟨h, hh, hnew, hfor, hharvester⟩
  · rw [hsame]
    exact hjoined ref
  rw [hharvester]
  by_cases hadded : ref = added
  · subst hadded
    obtain ⟨g, hg, hjoinedg⟩ := Option.map_eq_some_iff.mp ((hjoined ref).symm.trans hh)
    have hid : h.id = g.id := by
      rw [← hjoinedg, id_joined]
    -- It has not gone by its id before, so nobody has joined it yet.
    have hfree : world.harvesterFor? g.id ≠ some ref := by
      rw [← hid, hnew]
      simp
    rw [joined, if_neg hfree] at hjoinedg
    subst hjoinedg
    rw [if_pos rfl, hg, Option.map_some, joined, hfor, if_pos rfl, if_pos rfl, hregistrations]
  · rw [if_neg hadded, hjoined]
    apply Option.map_congr
    intro g _
    simp only [joined, hregistrations, hfor]
    by_cases hid : g.id = h.id
    · rw [if_pos hid, hid, hnew, if_neg (by simp), if_neg fun heq =>
        hadded (Option.some.inj heq).symm]
    · rw [if_neg hid]

theorem HasJoined.addListener (hjoined : HasJoined base world) (h : Attached world) (id : String)
    (listener : ListenerId) : HasJoined base (world.serve (.addListener id listener)) := by
  intro ref
  have hregistrations : (world.serve (.addListener id listener)).registrations =
      world.registrations ++ [(id, listener)] := world.registrations_serve _
  rw [harvester?_addListener, hjoined, Option.map_map]
  apply Option.map_congr
  intro g hg
  rw [Function.comp_apply]
  by_cases hfor : world.harvesterFor? id = some ref
  · obtain ⟨g', hg', hid', -⟩ := h.held id ref hfor
    rw [hjoined, hg, Option.map_some] at hg'
    rw [← Option.some.inj hg', id_joined] at hid'
    subst hid'
    simp only [joined, hfor, if_true, harvesterFor?_addListener, hregistrations, watching_append,
      watching_cons_self, watching_nil, List.foldl_append, List.foldl_cons, List.foldl_nil]
  · rw [if_neg hfor]
    simp only [joined, harvesterFor?_addListener, hregistrations]
    split
    · rename_i hown
      have hother : g.id ≠ id := by
        rintro rfl
        exact hfor hown
      rw [watching_append, watching_cons_of_ne hother, watching_nil, List.append_nil]
    · rfl

/-- Whether a listener has come before or after its harvester cannot be told. -/
theorem HasJoined.additions (hjoined : HasJoined base world) (h : Attached world)
    (hcalls : ∀ call ∈ calls, IsAddition call) : HasJoined base (world.serveAll calls) := by
  induction calls generalizing world with
  | nil => exact hjoined
  | cons call calls ih =>
    obtain ⟨hcall, hrest⟩ := List.forall_mem_cons.mp hcalls
    refine ih ?_ (attached_serve h call) hrest
    cases call with
    | addHarvester added => exact hjoined.addHarvester added
    | addListener id listener => exact hjoined.addListener h id listener
    | removeHarvester id => cases hcall
    | removeListener listener => cases hcall

end Additions

section Order

variable {world : World} {first second : List RegistryCall}

theorem known_iff (h : Attached world) {calls : List RegistryCall} {ref : HarvesterRef}
    {g : Harvester} (hg : world.harvester? ref = some g) :
    (∃ id, (world.serveAll calls).harvesterFor? id = some ref) ↔
      (world.serveAll calls).harvesterFor? g.id = some ref := by
  constructor
  · rintro ⟨id, hid⟩
    obtain ⟨g', hg', rfl, -⟩ := (attached_serveAll h calls).held id ref hid
    have halone := world.alone_serveAll calls ref
    rw [hg, hg', Option.map_some, Option.map_some] at halone
    have hsame : (alone g').id = (alone g).id := by rw [Option.some.inj halone]
    rw [show g.id = g'.id from hsame.symm]
    exact hid
  · intro hid
    exact ⟨g.id, hid⟩

theorem settlesAlike (h : Attached world) (hfirst : ∀ call ∈ first, IsAddition call)
    (hsecond : ∀ call ∈ second, IsAddition call)
    (hlisteners : first.filterMap addedListener? = second.filterMap addedListener?) :
    SettlesAlike world first second := by
  have hregistrations : (world.serveAll first).registrations =
    (world.serveAll second).registrations := by
    rw [registrations_additions hfirst, registrations_additions hsecond, hlisteners]
  have hsame : ∀ ref, ((∃ id, (world.serveAll first).harvesterFor? id = some ref) ↔
      ∃ id, (world.serveAll second).harvesterFor? id = some ref) →
      (world.serveAll first).harvester? ref = (world.serveAll second).harvester? ref := by
    have hjoined := hasJoined_of_attached h
    intro ref hknown
    rw [hjoined.additions h hfirst ref, hjoined.additions h hsecond ref]
    apply Option.map_congr
    intro g hg
    rw [known_iff h hg, known_iff h hg] at hknown
    simp only [joined, hknown, hregistrations]
  refine ⟨hsame, ?_⟩
  intro hoffered
  have hfor : (world.serveAll first).harvesterFor? = (world.serveAll second).harvesterFor? := by
    funext id
    rw [harvesterFor?_additions hfirst, harvesterFor?_additions hsecond, hoffered]
  constructor
  · apply Table.ext_get?
    exact congrFun hfor
  · funext ref
    apply hsame
    rw [hfor]

end Order

/-- What can be said of the registry whatever it has been asked for. -/
structure FollowsRegistrations (world : World) (calls : List RegistryCall) : Prop where
  attached : Attached (world.serveAll calls)
  registrations : (world.serveAll calls).registrations = calls.foldl enrol []
  unchanged : ∀ ref, ((world.serveAll calls).harvester? ref).map alone = world.harvester? ref
  order : ∀ first second, (∀ call ∈ first, IsAddition call) → (∀ call ∈ second, IsAddition call) →
    first.filterMap addedListener? = second.filterMap addedListener? →
    SettlesAlike (world.serveAll calls) first second

/-- A harvester that is registered has the listeners that are still registered for it, all of them
or the oldest one, and any other harvester has none. Where there are only additions, a harvester can
be added earlier or later without any difference, as long as it does not overtake another one with
its id. -/
theorem attachments_follow_registrations (world : World) (hempty : world.registry = Registry.empty)
    (halone : ∀ ref h, world.harvester? ref = some h → h.members = []) (calls : List RegistryCall) :
    FollowsRegistrations world calls := by
  have hstart : Attached world := by
    constructor
    · intro id ref hfor
      rw [harvesterFor?, hempty] at hfor
      cases hfor
    · intro ref h hh _
      exact halone ref h hh
  have hattached := attached_serveAll hstart calls
  have hnobody : world.registrations = [] := by rw [registrations, hempty]; rfl
  refine ⟨hattached, ?_, ?_, ?_⟩
  · rw [registrations_serveAll, hnobody]
  · intro ref
    rw [alone_serveAll]
    refine (Option.map_congr ?_).trans Option.map_id'
    intro h hh
    rw [alone, ← halone ref h hh]
  · intro first second hfirst hsecond hlisteners
    exact settlesAlike hattached hfirst hsecond hlisteners

def seat (id : String) (policy : ListenerPolicy) : HarvesterCell :=
  ⟨Harvester.ofConfig { HarvesterConfig.ofRoot id "r" with policy := policy }, 0, .memory 0, 0,
    none, []⟩

/-- A harvester for many listeners, and two with one id that take a single one each. -/
def salon : World :=
  { start (Disk.empty "") with
    harvesters := [seat "f" .fanOut, seat "s" .single, seat "s" .single] }

/-- Listeners come before and after their harvesters, more than once and for more than one id; the
second harvester with the same id is refused, and the single listener makes room for another one. -/
def soiree : List RegistryCall :=
  [.addListener "s" 0, .addListener "s" 1, .addListener "f" 0, .addHarvester 1, .addHarvester 2,
    .addListener "f" 1, .addHarvester 0, .addListener "f" 0, .removeHarvester "x",
    .removeListener 0, .addListener "s" 0]

theorem alone_salon {ref : HarvesterRef} {h : Harvester} (hh : salon.harvester? ref = some h) :
    h.members = [] := by
  obtain ⟨cell, hcell, rfl⟩ := Option.map_eq_some_iff.mp hh
  have hmembers : ∀ cell ∈ salon.harvesters, cell.harvester.members = [] := by
    simp [salon, seat, Harvester.ofConfig]
  exact hmembers cell (List.mem_of_getElem? hcell)

theorem soiree_follows_registrations :
    FollowsRegistrations salon soiree ∧
      (salon.serveAll soiree).registrations = [("s", 1), ("f", 0), ("f", 1), ("f", 0), ("s", 0)] ∧
      ((salon.serveAll soiree).harvesters.map fun cell => cell.harvester.members) =
        [[0, 1], [1], []] :=
  ⟨attachments_follow_registrations salon rfl (fun _ _ => alone_salon) soiree, by decide +kernel,
    by decide +kernel⟩

/-- A harvester is added, then a listener, then another harvester with the same id. -/
def twinLast : List RegistryCall :=
  [.addHarvester 1, .addListener "s" 0, .addHarvester 2]

/-- The first harvester is added after everything else. -/
def twinFirst : List RegistryCall :=
  [.addListener "s" 0, .addHarvester 2, .addHarvester 1]

theorem twins_change_places :
    salon.registry = Registry.empty ∧ (∀ ref h, salon.harvester? ref = some h → h.members = []) ∧
      (∀ call ∈ twinLast, IsAddition call) ∧ twinLast.Perm twinFirst ∧
      twinLast.filterMap addedListener? = twinFirst.filterMap addedListener? ∧
      ((salon.serveAll twinLast).harvesters.map fun cell => cell.harvester.members) =
        [[], [0], []] ∧
      ((salon.serveAll twinFirst).harvesters.map fun cell => cell.harvester.members) =
        [[], [], [0]] := by
  refine ⟨rfl, fun _ _ => alone_salon, ?_, ?_, rfl, by decide +kernel, by decide +kernel⟩
  · simp [twinLast, IsAddition]
  · exact (List.perm_append_singleton (RegistryCall.addHarvester 1) twinFirst.dropLast).symm

end CatalogSync.Simulation.World
