import CatalogSync.Proofs.Registry.Calls
import CatalogSync.Proofs.Table

/-!
Which listeners harvesters have. Whatever has been added and removed, and in whatever order: that
can be told from the registrations that are left.
-/

namespace CatalogSync.Simulation.World

open Registry (Holds)

/-- A harvester that goes by an id has the listeners that are registered for it, as far as it takes
them, and a harvester that goes by none has no listeners. -/
structure Attached (world : World) : Prop where
  held : ∀ id ref, world.harvesterFor? id = some ref → ∃ h, world.harvester? ref = some h ∧
    h.id = id ∧ Holds h.policy h.members (watching id world.registrations)
  free : ∀ ref h, world.harvester? ref = some h → (∀ id, world.harvesterFor? id ≠ some ref) →
    h.members = []

section Invariant

variable {world next : World}

theorem Attached.id_eq (h : Attached world) {id : String} {ref : HarvesterRef} {g : Harvester}
    (hfor : world.harvesterFor? id = some ref) (hg : world.harvester? ref = some g) :
    g.id = id := by
  obtain ⟨g', hg', hid, -⟩ := h.held id ref hfor
  obtain rfl := Option.some.inj (hg.symm.trans hg')
  exact hid

theorem attached_of_empty (hempty : world.registry = Registry.empty)
    (halone : ∀ ref h, world.harvester? ref = some h → h.members = []) : Attached world := by
  constructor
  · intro id ref hfor
    rw [harvesterFor?, hempty] at hfor
    cases hfor
  · intro ref h hh _
    exact halone ref h hh

theorem Attached.touch (h : Attached world) {id : String}
    {change : Harvester → List ListenerId} (hfor : next.harvesterFor? = world.harvesterFor?)
    (hwatching : ∀ other, other ≠ id →
      watching other next.registrations = watching other world.registrations)
    (hharvester : ∀ ref, next.harvester? ref = (world.harvester? ref).map fun h =>
      if world.harvesterFor? id = some ref then { h with members := change h } else h)
    (hchange : ∀ h : Harvester, Holds h.policy h.members (watching id world.registrations) →
      Holds h.policy (change h) (watching id next.registrations)) :
    Attached next := by
  constructor
  · intro other ref hother
    rw [hfor] at hother
    obtain ⟨g, hg, hid, hholds⟩ := h.held other ref hother
    rw [hharvester, hg]
    by_cases hsame : other = id
    · subst hsame
      refine ⟨{ g with members := change g }, ?_, hid, hchange g hholds⟩
      rw [Option.map_some, if_pos hother]
    · -- It goes by one id only, so it is not the one whose listeners change.
      have helsewhere : world.harvesterFor? id ≠ some ref := by
        intro hagain
        exact hsame (hid.symm.trans (h.id_eq hagain hg))
      refine ⟨g, ?_, hid, ?_⟩
      · rw [Option.map_some, if_neg helsewhere]
      · rw [hwatching other hsame]
        exact hholds
  · intro ref g hg hnowhere
    rw [hfor] at hnowhere
    rw [hharvester] at hg
    obtain ⟨g', hg', rfl⟩ := Option.map_eq_some_iff.mp hg
    rw [if_neg (hnowhere id)]
    exact h.free ref g' hg' hnowhere

theorem attached_addHarvester (h : Attached world) (ref : HarvesterRef) :
    Attached (world.serve (.addHarvester ref)) := by
  rcases world.serve_addHarvester ref with ⟨hsame, -⟩ | ⟨g, hg, hnew, hfor, hharvester⟩
  · rw [hsame]
    exact h
  have hregistrations := world.registrations_serve (.addHarvester ref)
  have hnowhere : ∀ id, world.harvesterFor? id ≠ some ref := by
    intro id hid
    rw [← h.id_eq hid hg, hnew] at hid
    cases hid
  constructor
  · intro id other hother
    rw [hregistrations, enrol, hharvester]
    rw [hfor] at hother
    by_cases hid : id = g.id
    · rw [if_pos hid] at hother
      obtain rfl := Option.some.inj hother
      refine ⟨_, if_pos rfl, hid.symm, ?_⟩
      rw [hid, h.free ref g hg hnowhere]
      exact Registry.holds_foldl_join_nil
    · rw [if_neg hid] at hother
      have hne : other ≠ ref := by
        rintro rfl
        exact hnowhere id hother
      rw [if_neg hne]
      exact h.held id other hother
  · intro other g' hg' hfree
    have hne : other ≠ ref := by
      rintro rfl
      apply hfree g.id
      rw [hfor, if_pos rfl]
    rw [hharvester, if_neg hne] at hg'
    apply h.free other g' hg'
    intro id hid
    have hold : id ≠ g.id := by
      rintro rfl
      rw [hnew] at hid
      cases hid
    apply hfree id
    rw [hfor, if_neg hold, hid]

theorem attached_removeHarvester (h : Attached world) (id : String) :
    Attached (world.serve (.removeHarvester id)) := by
  rcases world.serve_removeHarvester id with ⟨hsame, -⟩ | ⟨ref, href, hfor, hharvester⟩
  · rw [hsame]
    exact h
  have hregistrations := world.registrations_serve (.removeHarvester id)
  obtain ⟨g, hg, -, hholds⟩ := h.held id ref href
  constructor
  · intro other ref' hother
    rw [hfor] at hother
    by_cases hsame : other = id
    · rw [if_pos hsame] at hother
      cases hother
    rw [if_neg hsame] at hother
    obtain ⟨g', hg', hid', hholds'⟩ := h.held other ref' hother
    have hne : ref' ≠ ref := by
      rintro rfl
      exact hsame (hid'.symm.trans (h.id_eq href hg'))
    refine ⟨g', ?_, hid', ?_⟩
    · rw [hharvester, hg', Option.map_some, if_neg hne]
    · rw [hregistrations]
      exact hholds'
  · intro ref' g' hg' hfree
    rw [hharvester] at hg'
    obtain ⟨g'', hg'', rfl⟩ := Option.map_eq_some_iff.mp hg'
    by_cases hsame : ref' = ref
    · subst hsame
      obtain rfl := Option.some.inj (hg.symm.trans hg'')
      rw [if_pos rfl]
      apply List.filter_eq_nil_iff.mpr
      intro member hmember
      simpa using hholds.subset hmember
    · rw [if_neg hsame]
      apply h.free ref' g'' hg''
      intro other hother
      apply hfree other
      rw [hfor, hother]
      apply if_neg
      rintro rfl
      exact hsame (Option.some.inj (hother.symm.trans href))

theorem attached_addListener (h : Attached world) (id : String) (listener : ListenerId) :
    Attached (world.serve (.addListener id listener)) := by
  have hregistrations : (world.serve (.addListener id listener)).registrations =
      world.registrations ++ [(id, listener)] := world.registrations_serve _
  apply h.touch (world.harvesterFor?_addListener id listener)
  · intro other hother
    rw [hregistrations, watching_append, watching_cons_of_ne hother, watching_nil, List.append_nil]
  · exact world.harvester?_addListener id listener
  · intro g hholds
    rw [hregistrations, watching_append, watching_cons_self, watching_nil]
    exact hholds.join

theorem attached_removeListener (h : Attached world) (listener : ListenerId) :
    Attached (world.serve (.removeListener listener)) := by
  rcases world.serve_removeListener listener with
    ⟨hsame, -⟩ | ⟨id, before, after, hregistrations, holdest, hleft, hfor, hharvester⟩
  · rw [hsame]
    exact h
  apply h.touch hfor
  · intro other hother
    rw [hregistrations, hleft, watching_append, watching_append, watching_cons_of_ne hother]
  · exact hharvester
  · intro g hholds
    rw [hregistrations, watching_append, watching_cons_self] at hholds
    rw [hleft, watching_append]
    apply hholds.relieve
    intro hmem
    obtain ⟨registration, hregistration, heq⟩ := List.mem_map.mp hmem
    exact holdest registration (List.mem_of_mem_filter hregistration) heq

theorem attached_serve (h : Attached world) (call : RegistryCall) :
    Attached (world.serve call) := by
  cases call with
  | addHarvester ref => exact attached_addHarvester h ref
  | removeHarvester id => exact attached_removeHarvester h id
  | addListener id listener => exact attached_addListener h id listener
  | removeListener listener => exact attached_removeListener h listener

theorem attached_serveAll (h : Attached world) (calls : List RegistryCall) :
    Attached (world.serveAll calls) := by
  induction calls generalizing world with
  | nil => exact h
  | cons call calls ih => exact ih (attached_serve h call)

theorem registrations_serveAll (world : World) (calls : List RegistryCall) :
    (world.serveAll calls).registrations = calls.foldl enrol world.registrations := by
  induction calls generalizing world with
  | nil => rfl
  | cons call calls ih =>
    rw [List.foldl_cons, ← registrations_serve]
    exact ih (world.serve call)

end Invariant

end CatalogSync.Simulation.World
