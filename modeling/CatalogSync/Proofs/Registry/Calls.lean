import CatalogSync.Simulation.World
import CatalogSync.Proofs.Registry.Members

namespace CatalogSync.Simulation

open Registry (join relieve)

inductive RegistryCall where
  | addHarvester (ref : HarvesterRef)
  | removeHarvester (id : String)
  | addListener (id : String) (listener : ListenerId)
  | removeListener (listener : ListenerId)

namespace World

/-- The world after a call, whatever the answer is. -/
def serve (world : World) : RegistryCall → World
  | .addHarvester ref => (registerHarvester ref world).2
  | .removeHarvester id => (unregisterHarvester id world).2
  | .addListener id listener => (watch id listener world).2
  | .removeListener listener => (unwatch listener world).2

def serveAll (world : World) (calls : List RegistryCall) : World :=
  calls.foldl serve world

/-- The harvester that is registered with an id. -/
def harvesterFor? (world : World) (id : String) : Option HarvesterRef :=
  world.registry.harvesters.get? id

/-- The ids that listeners are registered for, the oldest registration first. -/
def registrations (world : World) : List (String × ListenerId) :=
  world.registry.watches.map fun watch => (watch.harvester, watch.listener)

/-- The listeners that are registered for an id. -/
def watching (id : String) (registrations : List (String × ListenerId)) : List ListenerId :=
  (registrations.filter fun registration => registration.1 = id).map Prod.snd

/-- What a call makes of the registrations. A listener that is removed loses its oldest one. -/
def enrol (registrations : List (String × ListenerId)) : RegistryCall → List (String × ListenerId)
  | .addListener id listener => registrations ++ [(id, listener)]
  | .removeListener listener => registrations.eraseP fun registration => registration.2 = listener
  | .addHarvester _ => registrations
  | .removeHarvester _ => registrations

section Watching

variable {id other : String} {before after : List (String × ListenerId)}

theorem watching_append :
    watching id (before ++ after) = watching id before ++ watching id after := by
  simp [watching]

theorem watching_cons_self {listener : ListenerId} :
    watching id ((id, listener) :: after) = listener :: watching id after := by
  simp [watching]

theorem watching_cons_of_ne {listener : ListenerId} (h : id ≠ other) :
    watching id ((other, listener) :: after) = watching id after := by
  simp [watching, h.symm]

theorem watching_nil : watching id [] = [] := rfl

theorem map_listener_watchesOn (registry : Registry) (id : String) :
    (registry.watchesOn id).map Watch.listener =
      watching id (registry.watches.map fun watch => (watch.harvester, watch.listener)) := by
  simp only [Registry.watchesOn, watching, List.filter_map, List.map_map]
  rfl

end Watching

section Cells

variable (world : World) (ref other : HarvesterRef)

theorem harvester?_setCell {cell : HarvesterCell} (h : world.cell? ref = some cell)
    (changed : HarvesterCell) :
    (world.setCell ref changed).harvester? other =
      if other = ref then some changed.harvester else world.harvester? other := by
  obtain ⟨hlt, -⟩ := List.getElem?_eq_some_iff.mp h
  simp only [harvester?, cell?, setCell, List.getElem?_set]
  by_cases hother : other = ref
  · simp [hother, hlt]
  · simp [hother, Ne.symm hother]

theorem harvester?_modify (f : Harvester → Harvester) :
    (world.modify ref f).harvester? other =
      (world.harvester? other).map fun h => if other = ref then f h else h := by
  unfold modify
  cases hcell : world.cell? ref with
  | none =>
    by_cases hother : other = ref
    · simp [harvester?, hother, hcell]
    · simp [hother]
  | some cell =>
    simp only [harvester?_setCell world ref other hcell]
    by_cases hother : other = ref
    · simp [harvester?, hother, hcell]
    · simp [hother]

theorem registry_modify (f : Harvester → Harvester) :
    (world.modify ref f).registry = world.registry := by
  unfold modify
  split <;> rfl

end Cells

section Calls

variable (world : World)

theorem serve_addHarvester (ref : HarvesterRef) :
    (world.serve (.addHarvester ref) = world ∧
      ∀ h, world.harvester? ref = some h → (world.harvesterFor? h.id).isSome) ∨
    ∃ h, world.harvester? ref = some h ∧ world.harvesterFor? h.id = none ∧
      (∀ id, (world.serve (.addHarvester ref)).harvesterFor? id =
        if id = h.id then some ref else world.harvesterFor? id) ∧
      ∀ other, (world.serve (.addHarvester ref)).harvester? other =
        if other = ref then
          some { h with
            members := (watching h.id world.registrations).foldl (join h.policy) h.members }
        else world.harvester? other := by
  simp only [serve, registerHarvester]
  cases hcell : world.cell? ref with
  | none =>
    apply Or.inl
    simp [harvester?, hcell]
  | some cell =>
    have hharvester : world.harvester? ref = some cell.harvester := by simp [harvester?, hcell]
    cases hknown : world.harvesterFor? cell.harvester.id with
    | some holder =>
      apply Or.inl
      have hcontains : world.registry.harvesters.contains cell.harvester.id = true :=
        congrArg Option.isSome hknown
      simp only [Registry.addHarvester, hcontains, if_true, hharvester, true_and]
      rintro h ⟨⟩
      rw [hknown, Option.isSome_some]
    | none =>
      apply Or.inr
      have hcontains : ¬ world.registry.harvesters.contains cell.harvester.id = true := by
        rw [Table.contains,
          show world.registry.harvesters.get? cell.harvester.id = none from hknown]
        simp
      refine ⟨cell.harvester, hharvester, hknown, ?_⟩
      simp only [Registry.addHarvester, if_neg hcontains]
      constructor
      · intro id
        exact Table.get?_insert world.registry.harvesters cell.harvester.id id ref
      · intro other
        refine (harvester?_setCell _ ref other hcell _).trans ?_
        rw [Registry.attachAll_fst, map_listener_watchesOn]
        rfl

theorem serve_removeHarvester (id : String) :
    (world.serve (.removeHarvester id) = world ∧ world.harvesterFor? id = none) ∨
    ∃ ref, world.harvesterFor? id = some ref ∧
      (∀ other, (world.serve (.removeHarvester id)).harvesterFor? other =
        if other = id then none else world.harvesterFor? other) ∧
      ∀ other, (world.serve (.removeHarvester id)).harvester? other =
        (world.harvester? other).map fun h =>
          if other = ref then
            { h with members := h.members.filter fun member =>
              member ∉ watching id world.registrations }
          else h := by
  simp only [serve, unregisterHarvester, Registry.removeHarvester, harvesterFor?]
  cases hknown : world.registry.harvesters.get? id with
  | none => simp
  | some ref =>
    apply Or.inr
    refine ⟨ref, rfl, ?_, ?_⟩
    · intro other
      rw [registry_modify]
      exact Table.get?_erase world.registry.harvesters id other
    · intro other
      rw [harvester?_modify]
      simp only [Registry.detachAll_eq, map_listener_watchesOn]
      rfl

theorem harvesterFor?_addListener (id : String) (listener : ListenerId) :
    (world.serve (.addListener id listener)).harvesterFor? = world.harvesterFor? := by
  simp only [serve, watch]
  split
  · rfl
  · split <;> rfl

theorem harvester?_addListener (id : String) (listener : ListenerId) (other : HarvesterRef) :
    (world.serve (.addListener id listener)).harvester? other =
      (world.harvester? other).map fun h =>
        if world.harvesterFor? id = some other then
          { h with members := join h.policy h.members listener }
        else h := by
  cases hknown : world.registry.harvesters.get? id with
  | none =>
    simp only [serve, watch, harvesterFor?, hknown, reduceCtorEq, if_false, Option.map_id']
    rfl
  | some ref =>
    cases hcell : world.cell? ref with
    | none =>
      have hnobody : ∀ h, world.harvester? other = some h → ref ≠ other := by
        rintro h hharvester rfl
        simp [harvester?, hcell] at hharvester
      simp only [serve, watch, harvesterFor?, hknown, hcell, Option.some.injEq]
      refine Eq.trans ?_ (Option.map_congr fun h hharvester => (if_neg (hnobody h hharvester)).symm)
      rw [Option.map_id']
      rfl
    | some cell =>
      simp only [serve, watch, harvesterFor?, hknown, hcell, Option.some.injEq]
      refine (harvester?_setCell _ ref other hcell _).trans ?_
      rw [Registry.attach_snd]
      by_cases hother : other = ref
      · simp [harvester?, hother, hcell]
      · simp only [hother, Ne.symm hother, if_false, Option.map_id']

/-- The oldest registration of a listener is taken off. Its harvester lets it go, and has room for
those that are still registered for it. -/
theorem serve_removeListener (listener : ListenerId) :
    (world.serve (.removeListener listener) = world ∧
      ∀ registration ∈ world.registrations, registration.2 ≠ listener) ∨
    ∃ id before after, world.registrations = before ++ (id, listener) :: after ∧
      (∀ registration ∈ before, registration.2 ≠ listener) ∧
      (world.serve (.removeListener listener)).registrations = before ++ after ∧
      (world.serve (.removeListener listener)).harvesterFor? = world.harvesterFor? ∧
      ∀ other, (world.serve (.removeListener listener)).harvester? other =
        (world.harvester? other).map fun h =>
          if world.harvesterFor? id = some other then
            { h with
              members := relieve h.policy h.members listener (watching id (before ++ after)) }
          else h := by
  cases hremoved : world.registry.removeWatch? listener with
  | none =>
    apply Or.inl
    simp only [serve, unwatch, hremoved, registrations, List.forall_mem_map, true_and]
    exact Registry.ne_of_removeWatch?_eq_none hremoved
  | some removed =>
    obtain ⟨watch, registry⟩ := removed
    obtain ⟨rfl, before, after, hwatches, hbefore, rfl⟩ :=
      Registry.split_of_removeWatch?_eq_some hremoved
    have hafter : registrations
      { world with registry := ⟨world.registry.harvesters, before ++ after⟩ } =
        before.map (fun watch => (watch.harvester, watch.listener)) ++
          after.map fun watch => (watch.harvester, watch.listener) := List.map_append
    apply Or.inr
    refine ⟨watch.harvester, before.map fun watch => (watch.harvester, watch.listener),
      after.map fun watch => (watch.harvester, watch.listener), ?_, ?_, ?_⟩
    · rw [registrations, hwatches, List.map_append, List.map_cons]
    · simpa [List.forall_mem_map] using hbefore
    · rw [← hafter]
      cases hknown : world.registry.harvesters.get? watch.harvester with
      | none =>
        simp only [serve, unwatch, hremoved, hknown, harvesterFor?, reduceCtorEq, if_false,
          Option.map_id']
        exact ⟨trivial, rfl, fun _ => rfl⟩
      | some ref =>
        have hholder : world.harvesterFor? watch.harvester = some ref := hknown
        simp only [serve, unwatch, hremoved, hknown, registry_modify, registrations,
          harvester?_modify, Registry.detach_eq, map_listener_watchesOn, true_and]
        constructor
        · funext id
          rw [harvesterFor?, registry_modify]
          rfl
        · intro other
          simp only [hholder, Option.some.injEq, @eq_comm _ ref other]
          rfl

theorem registrations_serve (call : RegistryCall) :
    (world.serve call).registrations = enrol world.registrations call := by
  cases call with
  | addHarvester ref =>
    simp only [serve, registerHarvester, Registry.addHarvester, enrol]
    cases world.cell? ref with
    | none => rfl
    | some cell =>
      by_cases hcontains : world.registry.harvesters.contains cell.harvester.id = true
      · simp only [if_pos hcontains]
      · simp only [if_neg hcontains]
        rfl
  | removeHarvester id =>
    simp only [serve, unregisterHarvester, Registry.removeHarvester, enrol]
    cases world.registry.harvesters.get? id with
    | none => rfl
    | some ref =>
      simp only [registrations, registry_modify]
  | addListener id listener =>
    simp only [serve, watch, enrol, registrations]
    split
    · simp [Registry.addWatch]
    · split
      · simp [Registry.addWatch]
      · simp [Registry.addWatch, setCell]
  | removeListener listener =>
    rcases world.serve_removeListener listener with
      ⟨hsame, hnone⟩ | ⟨id, before, after, hbefore, hnone, hafter, -⟩
    · rw [hsame, enrol, List.eraseP_of_forall_not]
      simpa using hnone
    · rw [hafter, enrol, hbefore, List.eraseP_append_right, List.eraseP_cons_of_pos]
      · simp
      · simpa using hnone

end Calls

end World

end CatalogSync.Simulation
