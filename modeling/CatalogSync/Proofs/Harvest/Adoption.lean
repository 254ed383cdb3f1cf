import CatalogSync.Harvest.Lifecycle

namespace CatalogSync.Harvester

variable {σ : Type} {lister : Lister σ} {store : BlobStore σ} {h h' : Harvester}
  {config : HarvesterConfig} {world world' : σ}

/-- The harvester that has come up with a configuration, given what was stored for its root. -/
def adopted (h : Harvester) (config : HarvesterConfig) (blob : Option Bytes) : Harvester :=
  { h.adopt config with
    snapshotKey := persistenceKey config.root
    properties := config.overrides.toProperties
    snapshot := storedSnapshot? blob
    status := .polling }

theorem checkConfig_eq_ok_iff :
    h.checkConfig config = .ok () ↔ config.id = h.id ∧ config.validate = .ok () := by
  rw [checkConfig]
  split
  · rename_i hid
    exact iff_of_false nofun fun hok => hid hok.1
  · rename_i hid
    rw [Decidable.not_not] at hid
    cases hvalid : config.validate with
    | ok _ => exact iff_of_true rfl ⟨hid, rfl⟩
    | error e => exact iff_of_false nofun fun hok => nomatch hok.2

theorem bringUp_adopt_eq_ok_iff (hvalid : config.validate = .ok ()) :
    bringUp lister store (h.adopt config) world = ((.ok (), h'), world') ↔
      ∃ between blob, lister.checkRoot config.root world = (.ok (), between) ∧
        store.load (persistenceKey config.root) between = (.ok blob, world') ∧
        h' = h.adopted config blob := by
  rcases hroot : lister.checkRoot config.root world with ⟨e | _, between⟩
  · simp only [bringUp, loadState, adopt, bind, StateT.bind, hvalid, hroot]
    exact iff_of_false nofun fun ⟨_, _, hok, _⟩ => nomatch hok
  · rcases hload : store.load (persistenceKey config.root) between with ⟨e | blob, after⟩
    · simp only [bringUp, loadState, adopt, bind, StateT.bind, hvalid, hroot, hload]
      refine iff_of_false nofun ?_
      rintro ⟨_, _, hbetween, hok, -⟩
      cases hbetween
      cases hload.symm.trans hok
    · simp only [bringUp, loadState, adopt, bind, StateT.bind, hvalid, hroot, hload]
      constructor
      · rintro ⟨⟩
        exact ⟨between, blob, rfl, hload, rfl⟩
      · rintro ⟨_, _, hbetween, hok, rfl⟩
        cases hbetween
        cases hload.symm.trans hok
        rfl

/-- A harvester comes up with a configuration if this keeps the id, makes sense and suits the
listeners, and if the root is there and what is stored for it can be read. -/
theorem reconfigure_eq_ok_iff :
    h.reconfigure lister store config world = ((.ok (), h'), world') ↔
      h.checkConfig config = .ok () ∧ h.admitsPolicy config.policy = true ∧
        ∃ between blob, lister.checkRoot config.root world = (.ok (), between) ∧
          store.load (persistenceKey config.root) between = (.ok blob, world') ∧
          h' = h.adopted config blob := by
  rw [reconfigure]
  cases hcheck : h.checkConfig config with
  | error e => exact iff_of_false nofun fun hok => nomatch hok.1
  | ok _ =>
    rw [applyConfig]
    split
    · rename_i hadmits
      rw [bringUp_adopt_eq_ok_iff (checkConfig_eq_ok_iff.mp hcheck).2]
      simp only [hadmits, true_and]
    · rename_i hadmits
      exact iff_of_false nofun fun hok => hadmits hok.2.1

end CatalogSync.Harvester
