import CatalogSync.Proofs.Harvest.Adoption
import CatalogSync.Proofs.Registry.Attachments
import CatalogSync.Simulation.Timeline

namespace CatalogSync

namespace Registry

theorem mem_relieve_fanOut {members before after : List ListenerId} {listener other : ListenerId}
    (hmember : listener ∈ members) (hsubset : members ⊆ before ++ listener :: after) :
    other ∈ relieve .fanOut members listener (before ++ after) ↔ other ∈ before ++ after := by
  rw [relieve, if_pos hmember]
  simp only [mem_foldl_join_fanOut, List.mem_filter, decide_eq_true_eq]
  constructor
  · rintro (⟨hthere, hother⟩ | ⟨hwatching, -⟩)
    · have hwatching := hsubset hthere
      simp only [List.mem_append, List.mem_cons, hother, false_or] at hwatching ⊢
      exact hwatching
    · exact hwatching
  · intro hwatching
    by_cases hleft : other ∈ members ∧ other ≠ listener
    · exact .inl hleft
    · exact .inr ⟨hwatching, hleft⟩

end Registry

namespace Simulation.World

open Registry (Holds)

/-- A harvester takes a new configuration while nobody else is at work on it. -/
def reconfigure (ref : HarvesterRef) (config : HarvesterConfig) :
    StateM World (Except HarvestError Unit) := fun world =>
  match world.cell? ref with
  | none => (.ok (), world)
  | some cell =>
    let ((result, h), bench) := cell.harvester.reconfigure (world.bench.listerAt cell.lister)
      cell.store.blobStore config world.bench
    (result, { world with bench := bench }.keepHarvester ref cell h)

section Reconfiguration

variable {world next : World} {ref : HarvesterRef} {config : HarvesterConfig}

theorem carryOut_reconfigure (id : TaskId) {task : Task} {cell : HarvesterCell}
    (hcell : world.cell? task.target = some cell)
    (hcheck : cell.harvester.checkConfig config = .ok ()) :
    world.carryOut id task cell (.reconfigure config) =
      (reconfigure task.target config world).2.endTurn id task
        (.reconfigured (reconfigure task.target config world).1) := by
  simp only [carryOut, reconfigure, hcell, Harvester.reconfigure, hcheck]
  rcases Harvester.applyConfig (world.bench.listerAt cell.lister) cell.store.blobStore
    cell.harvester
    config world.bench with ⟨⟨_, _⟩, _⟩
  rfl

theorem reconfigure_ok {h : Harvester} (hh : world.harvester? ref = some h)
    (hok : reconfigure ref config world = (.ok (), next)) :
    next.registry = world.registry ∧ ∃ blob, ∀ other,
      next.harvester? other =
        if other = ref then some (h.adopted config blob) else world.harvester? other := by
  obtain ⟨cell, hcell, rfl⟩ := Option.map_eq_some_iff.mp hh
  simp only [reconfigure, hcell] at hok
  rcases hraised : cell.harvester.reconfigure (world.bench.listerAt cell.lister)
    cell.store.blobStore config world.bench with ⟨⟨result, h⟩, bench⟩
  rw [hraised] at hok
  obtain ⟨rfl, rfl⟩ := Prod.mk.inj hok
  obtain ⟨-, -, -, blob, -, -, rfl⟩ := Harvester.reconfigure_eq_ok_iff.mp hraised
  exact ⟨rfl, blob, fun other => harvester?_setCell _ ref other hcell _⟩

end Reconfiguration

/-- What becomes of those that are registered for an id when its harvester is opened to all of
them. -/
structure Relaxation (world next : World) (id : String) (ref : HarvesterRef)
    (before after : Harvester) : Prop where
  policy : after.policy = .fanOut
  members : after.members = before.members
  registrations : next.registrations = world.registrations
  /-- Nobody is left waiting exactly if nobody has been turned away. -/
  complete_iff : (∀ listener, listener ∈ after.members ↔
      listener ∈ watching id next.registrations) ↔
    before.policy = .fanOut ∨ ∀ listener ∈ watching id next.registrations,
      (watching id next.registrations).head? = some listener
  /-- Nobody is left waiting once the harvester has been removed and added again. -/
  again : ∃ h, ((next.serve (.removeHarvester id)).serve (.addHarvester ref)).harvester? ref =
    some h ∧
    ∀ listener, listener ∈ h.members ↔ listener ∈ watching id next.registrations
  /-- Nobody is left waiting once one of those that are there has been removed. -/
  chance : ∀ leaving ∈ after.members,
    next.registrations.find? (fun registration => registration.2 = leaving) = some (id, leaving) →
      ∃ h, (next.serve (.removeListener leaving)).harvester? ref = some h ∧
        ∀ listener, listener ∈ h.members ↔
          listener ∈ watching id (next.serve (.removeListener leaving)).registrations

section Relaxing

variable {world next : World} {id : String} {ref : HarvesterRef} {before after : Harvester}

theorem complete_iff_of_holds {policy : ListenerPolicy} {members watching : List ListenerId}
    (h : Holds policy members watching) :
    (∀ listener, listener ∈ members ↔ listener ∈ watching) ↔
      policy = .fanOut ∨ ∀ listener ∈ watching, watching.head? = some listener := by
  cases policy with
  | fanOut => exact iff_of_true (h.fanOut rfl) (.inl rfl)
  | single =>
    rw [h.single rfl]
    simp only [reduceCtorEq, false_or, Option.mem_toList]
    constructor
    · exact fun hall listener hlistener => (hall listener).mpr hlistener
    · exact fun hall listener => ⟨List.mem_of_mem_head?, hall listener⟩

theorem again_of_subset (hfor : next.harvesterFor? id = some ref)
    (hafter : next.harvester? ref = some after) (hid : after.id = id)
    (hpolicy : after.policy = .fanOut) (hsubset : after.members ⊆ watching id next.registrations) :
    ∃ h, ((next.serve (.removeHarvester id)).serve (.addHarvester ref)).harvester? ref = some h ∧
      ∀ listener, listener ∈ h.members ↔ listener ∈ watching id next.registrations := by
  have hregistrations := next.registrations_serve (.removeHarvester id)
  have hnobody : after.members.filter (fun member => member ∉ watching id next.registrations) =
    [] := by
    rw [List.filter_eq_nil_iff]
    intro member hmember
    simpa using hsubset hmember
  rcases next.serve_removeHarvester id with ⟨-, hnone⟩ | ⟨found, hfound, hremoved, hharvester⟩
  · cases hnone.symm.trans hfor
  obtain rfl := Option.some.inj (hfor.symm.trans hfound)
  have halone : (next.serve (.removeHarvester id)).harvester? ref =
      some { after with members := [] } := by
    rw [hharvester, hafter, Option.map_some, if_pos rfl, hnobody]
  rcases (next.serve (.removeHarvester id)).serve_addHarvester ref with
    ⟨-, hknown⟩ | ⟨h, hh, -, -, hadded⟩
  · have hthere := hknown _ halone
    rw [hremoved, if_pos hid] at hthere
    cases hthere
  · obtain rfl := Option.some.inj (halone.symm.trans hh)
    refine ⟨_, by rw [hadded, if_pos rfl], fun listener => ?_⟩
    rw [hregistrations, enrol, hid, hpolicy]
    exact Registry.holds_foldl_join_nil.fanOut rfl listener

theorem chance_of_subset (hfor : next.harvesterFor? id = some ref)
    (hafter : next.harvester? ref = some after) (hpolicy : after.policy = .fanOut)
    (hsubset : after.members ⊆ watching id next.registrations) {leaving : ListenerId}
    (hmember : leaving ∈ after.members)
    (holdest : next.registrations.find? (fun registration => registration.2 = leaving) =
      some (id, leaving)) :
    ∃ h, (next.serve (.removeListener leaving)).harvester? ref = some h ∧
      ∀ listener, listener ∈ h.members ↔
        listener ∈ watching id (next.serve (.removeListener leaving)).registrations := by
  rcases next.serve_removeListener leaving with
    ⟨-, hnone⟩ | ⟨other, front, back, hregistrations, hfront, hleft, -, hharvester⟩
  · exact absurd rfl (hnone _ (List.mem_of_find?_eq_some holdest))
  · -- The registration that is taken off is the oldest one.
    have hfound : next.registrations.find? (fun registration => registration.2 = leaving) =
        some (other, leaving) := by
      rw [hregistrations, List.find?_append,
        List.find?_eq_none.mpr fun registration hin => by simpa using hfront registration hin]
      simp
    obtain rfl : id = other := congrArg Prod.fst (Option.some.inj (holdest.symm.trans hfound))
    rw [hregistrations, watching_append, watching_cons_self] at hsubset
    refine ⟨_, by rw [hharvester, hafter, Option.map_some, if_pos hfor], fun listener => ?_⟩
    rw [hleft, watching_append, hpolicy]
    exact Registry.mem_relieve_fanOut hmember hsubset

end Relaxing

/-- When a registered harvester is opened to many listeners, the listeners it has stay, and whoever
has been turned away before goes on waiting. -/
theorem relaxation_attaches_all_iff (world : World) (hempty : world.registry = Registry.empty)
    (halone : ∀ ref h, world.harvester? ref = some h → h.members = []) (calls : List RegistryCall)
    (id : String) (ref : HarvesterRef) (config : HarvesterConfig) (next : World)
    (hregistered : (world.serveAll calls).harvesterFor? id = some ref)
    (hpolicy : config.policy = .fanOut)
    (hok : reconfigure ref config (world.serveAll calls) = (.ok (), next)) :
    ∃ before after, (world.serveAll calls).harvester? ref = some before ∧
      next.harvester? ref = some after ∧
      Relaxation (world.serveAll calls) next id ref before after := by
  have hattached : Attached (world.serveAll calls) := 
    attached_serveAll (attached_of_empty hempty halone) calls
  obtain ⟨before, hbefore, hid, hholds⟩ := hattached.held id ref hregistered
  obtain ⟨hregistry, blob, hharvester⟩ := reconfigure_ok hbefore hok
  have hafter : next.harvester? ref = some (before.adopted config blob) := by
    rw [hharvester, if_pos rfl]
  have hregistrations : next.registrations = (world.serveAll calls).registrations := by
    rw [registrations, registrations, hregistry]
  have hfor : next.harvesterFor? id = some ref := by
    rw [← hregistered, harvesterFor?, harvesterFor?, hregistry]
  rw [← hregistrations] at hholds
  exact ⟨before, before.adopted config blob, hbefore, hafter, hpolicy, rfl, hregistrations,
    complete_iff_of_holds hholds, again_of_subset hfor hafter hid hpolicy hholds.subset,
    fun _ => chance_of_subset hfor hafter hpolicy hholds.subset⟩

/-- A harvester for a single listener, which shows files in memory. -/
def parlour : World :=
  { start (Disk.empty "") with
    bench := { Bench.start (Disk.empty "") with listers := [⟨some StaticTree.empty, 0, none, []⟩] }
    harvesters :=
      [⟨Harvester.ofConfig { HarvesterConfig.ofRoot "s" "r" with policy := .single }, 0, .memory 0,
        0, none, []⟩] }

/-- The first listener is taken in and the second one is turned away. -/
def callers : List RegistryCall :=
  [.addHarvester 0, .addListener "s" 0, .addListener "s" 1]

def opened : World :=
  (reconfigure 0 (.ofRoot "s" "r") (parlour.serveAll callers)).2

theorem alone_parlour {ref : HarvesterRef} {h : Harvester} (hh : parlour.harvester? ref = some h) :
    h.members = [] := by
  obtain ⟨cell, hcell, rfl⟩ := Option.map_eq_some_iff.mp hh
  rw [List.mem_singleton.mp (List.mem_of_getElem? hcell)]
  rfl

theorem reconfigure_parlour :
    reconfigure 0 (.ofRoot "s" "r") (parlour.serveAll callers) = (.ok (), opened) :=
  Prod.ext (by decide +kernel) rfl

theorem opened_parlour_is_relaxed :
    (parlour.serveAll callers).harvesterFor? "s" = some 0 ∧
      reconfigure 0 (.ofRoot "s" "r") (parlour.serveAll callers) = (.ok (), opened) ∧
      (parlour.harvester? 0).map Harvester.policy = some .single ∧
      watching "s" opened.registrations = [0, 1] ∧
      ∃ before after, (parlour.serveAll callers).harvester? 0 = some before ∧
        opened.harvester? 0 = some after ∧
        Relaxation (parlour.serveAll callers) opened "s" 0 before after :=
  ⟨by decide +kernel, reconfigure_parlour, by decide +kernel, by decide +kernel,
    relaxation_attaches_all_iff parlour rfl (fun _ _ => alone_parlour) callers "s" 0 _ opened
      (by decide +kernel) rfl reconfigure_parlour⟩

theorem second_caller_goes_on_waiting :
    parlour.registry = Registry.empty ∧
      (∀ ref h, parlour.harvester? ref = some h → h.members = []) ∧
      (parlour.serveAll callers).harvesterFor? "s" = some 0 ∧
      (HarvesterConfig.ofRoot "s" "r").policy = .fanOut ∧
      reconfigure 0 (.ofRoot "s" "r") (parlour.serveAll callers) = (.ok (), opened) ∧
      1 ∈ watching "s" opened.registrations ∧
      (opened.harvester? 0).map Harvester.members = some [0] :=
  ⟨rfl, fun _ _ => alone_parlour, by decide +kernel, rfl, reconfigure_parlour, by decide +kernel,
    by decide +kernel⟩

end Simulation.World

end CatalogSync
