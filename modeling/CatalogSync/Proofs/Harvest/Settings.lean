import CatalogSync.Proofs.Config.Entries
import CatalogSync.Proofs.Harvest.Lifecycle
import CatalogSync.Proofs.Registry.Members

namespace CatalogSync.Surroundings

open Harvester

structure SameSettings (h after : Harvester) : Prop where
  id : after.id = h.id
  config : after.config = h.config
  policy : after.policy = h.policy
  members : after.members = h.members
  interval : after.interval = h.interval

inductive Resettled (h : Harvester) : Command → Harvester → Prop where
  | kept (command : Command) {after : Harvester} (hsame : SameSettings h after) :
      Resettled h command after
  | joined (listener : ListenerId) (name : String) :
      Resettled h (.register listener name)
        { h with members := Registry.join h.policy h.members listener }
  | left (listener : ListenerId) : Resettled h (.unregister listener) (h.unregister listener)
  | adopted (config : HarvesterConfig) {after : Harvester} (hcheck : h.checkConfig config = .ok ())
      (hadmits : h.admitsPolicy config.policy = true)
      (hsame : SameSettings (h.adopt config) after) :
      Resettled h (.reconfigure config) after

variable {answers : Answers} {stage : Stage} {h : Harvester}

theorem checkConfig_eq_ok_iff {config : HarvesterConfig} :
    h.checkConfig config = .ok () ↔ config.id = h.id ∧ config.validate = .ok () := by
  unfold checkConfig
  by_cases hid : config.id = h.id
  · rw [if_neg (not_not_intro hid)]
    cases hvalid : config.validate <;> simp [hid]
  · rw [if_pos hid]
    simp [hid]

theorem sameSettings_of_broughtUp {world : World}
    {answer : (Except HarvestError Unit × Harvester) × World}
    (hbrought : BroughtUp h world answer) :
    SameSettings h answer.1.2 := by
  cases hbrought with
  | failed => exact ⟨rfl, rfl, rfl, rfl, rfl⟩
  | up => exact ⟨rfl, rfl, rfl, rfl, rfl⟩

theorem sameSettings_of_polled {answer : Except HarvestError PollReport × Stage}
    (hpolled : Polled answers stage answer) :
    SameSettings stage.harvester answer.2.harvester := by
  cases hpolled with
  | failed _ _ hharvester =>
    rw [hharvester]
    exact ⟨rfl, rfl, rfl, rfl, rfl⟩
  | idle => exact ⟨rfl, rfl, rfl, rfl, rfl⟩
  | completed _ _ _ _ _ _ _ hharvester =>
    rw [hharvester]
    exact ⟨rfl, rfl, rfl, rfl, rfl⟩

theorem resettled_reconfigure (stage : Stage) (config : HarvesterConfig) :
    Resettled stage.harvester (.reconfigure config)
      (obey answers stage (.reconfigure config)).2.harvester := by
  rw [obey, reconfigureOnce, reconfigure]
  cases hcheck : stage.harvester.checkConfig config with
  | error e => exact .kept _ ⟨rfl, rfl, rfl, rfl, rfl⟩
  | ok _ =>
    simp only [applyConfig]
    split
    · rename_i hadmits
      exact .adopted config hcheck hadmits (sameSettings_of_broughtUp (broughtUp_bringUp _ _))
    · exact .kept _ ⟨rfl, rfl, rfl, rfl, rfl⟩

theorem resettled_obey (stage : Stage) (command : Command) :
    Resettled stage.harvester command (obey answers stage command).2.harvester := by
  cases command with
  | start =>
    rw [obey, startOnce, Harvester.start]
    split
    · exact .kept _ ⟨rfl, rfl, rfl, rfl, rfl⟩
    · exact .kept _ (sameSettings_of_broughtUp (broughtUp_bringUp _ _))
  | stop => exact .kept _ ⟨rfl, rfl, rfl, rfl, rfl⟩
  | reconfigure config => exact resettled_reconfigure stage config
  | register listener name =>
    rw [obey]
    rcases Registry.register_eq_join stage.harvester listener name with hok | ⟨⟨e, herror⟩, -⟩
    · rw [hok]
      exact .joined listener name
    · rw [herror]
      exact .kept _ ⟨rfl, rfl, rfl, rfl, rfl⟩
  | unregister listener => exact .left listener
  | poll => exact .kept _ (sameSettings_of_polled (polled_pollOnce stage))

theorem obeyAll_invariant {P : Stage → Prop}
    (hstep : ∀ stage command, P stage → P (obey answers stage command).2) (h : P stage)
    (commands : List Command) : P (obeyAll answers stage commands) := by
  induction commands generalizing stage with
  | nil => exact h
  | cons command commands ih => exact ih (hstep stage command h)

section Id

theorem id_obey (stage : Stage) (command : Command) :
    (obey answers stage command).2.harvester.id = stage.harvester.id := by
  have hresettled := @resettled_obey answers stage command
  generalize (obey answers stage command).2.harvester = after at hresettled ⊢
  cases hresettled with
  | kept _ hsame => exact hsame.id
  | joined | left => rfl
  | adopted _ _ _ hsame => exact hsame.id

theorem id_obeyAll (stage : Stage) (commands : List Command) :
    (obeyAll answers stage commands).harvester.id = stage.harvester.id := by
  apply obeyAll_invariant (P := fun after => after.harvester.id = stage.harvester.id)
  · intro after command hid
    exact (id_obey after command).trans hid
  · rfl

end Id

section Interval

theorem interval_obey (hinterval : stage.harvester.interval ≠ 0) (command : Command) :
    (obey answers stage command).2.harvester.interval ≠ 0 := by
  have hresettled := @resettled_obey answers stage command
  generalize (obey answers stage command).2.harvester = after at hresettled ⊢
  cases hresettled with
  | kept _ hsame => exact hsame.interval.trans_ne hinterval
  | joined | left => exact hinterval
  | adopted config hcheck _ hsame =>
    refine hsame.interval.trans_ne ?_
    exact HarvesterConfig.interval_ne_zero_of_validate (checkConfig_eq_ok_iff.mp hcheck).2

theorem interval_obeyAll (hinterval : stage.harvester.interval ≠ 0) (commands : List Command) :
    (obeyAll answers stage commands).harvester.interval ≠ 0 := by
  apply obeyAll_invariant (P := fun after => after.harvester.interval ≠ 0)
  · intro after command hinterval
    exact interval_obey hinterval command
  · exact hinterval

end Interval

/-- Listeners, policy, interval and id fit together. -/
structure Orderly (h : Harvester) : Prop where
  nodup : h.members.Nodup
  single : h.policy = .single → h.members.length ≤ 1
  policy : h.policy = h.config.policy
  interval : h.interval = h.config.interval
  id : h.config.id = h.id

section Order

theorem orderly_ofConfig (config : HarvesterConfig) : Orderly (.ofConfig config) :=
  ⟨List.nodup_nil, fun _ => Nat.zero_le 1, rfl, rfl, rfl⟩

theorem SameSettings.orderly {after : Harvester} (hsame : SameSettings h after)
    (horderly : Orderly h) : Orderly after := by
  obtain ⟨hid, hconfig, hpolicy, hmembers, hinterval⟩ := hsame
  constructor
  · rw [hmembers]
    exact horderly.nodup
  · rw [hpolicy, hmembers]
    exact horderly.single
  · rw [hpolicy, hconfig]
    exact horderly.policy
  · rw [hinterval, hconfig]
    exact horderly.interval
  · rw [hconfig, hid]
    exact horderly.id

theorem length_join_single {members : List ListenerId} (listener : ListenerId)
    (hfew : members.length ≤ 1) : (Registry.join .single members listener).length ≤ 1 := by
  cases members with
  | nil => simp [Registry.join]
  | cons first members =>
    rw [Registry.join_single_of_ne_nil (List.cons_ne_nil first members)]
    exact hfew

theorem orderly_join (horderly : Orderly h) (listener : ListenerId) :
    Orderly { h with members := Registry.join h.policy h.members listener } := by
  refine ⟨Registry.nodup_join horderly.nodup, ?_, horderly.policy, horderly.interval, horderly.id⟩
  intro hsingle
  have hfew := horderly.single hsingle
  rw [hsingle]
  exact length_join_single listener hfew

theorem orderly_unregister (horderly : Orderly h) (listener : ListenerId) :
    Orderly (h.unregister listener) := by
  refine ⟨horderly.nodup.filter _, ?_, horderly.policy, horderly.interval, horderly.id⟩
  intro hsingle
  exact Nat.le_trans (List.length_filter_le _ _) (horderly.single hsingle)

theorem orderly_adopt (horderly : Orderly h) {config : HarvesterConfig}
    (hcheck : h.checkConfig config = .ok ()) (hadmits : h.admitsPolicy config.policy = true) :
    Orderly (h.adopt config) := by
  obtain ⟨hid, -⟩ := checkConfig_eq_ok_iff.mp hcheck
  refine ⟨horderly.nodup, ?_, rfl, rfl, hid⟩
  intro hsingle
  change config.policy = .single at hsingle
  change h.members.length ≤ 1
  simpa [admitsPolicy, hsingle] using hadmits

theorem orderly_obey (horderly : Orderly stage.harvester) (command : Command) :
    Orderly (obey answers stage command).2.harvester := by
  have hresettled := @resettled_obey answers stage command
  generalize (obey answers stage command).2.harvester = after at hresettled ⊢
  cases hresettled with
  | kept _ hsame => exact hsame.orderly horderly
  | joined listener name => exact orderly_join horderly listener
  | left listener => exact orderly_unregister horderly listener
  | adopted config hcheck hadmits hsame =>
    exact hsame.orderly (orderly_adopt horderly hcheck hadmits)

theorem orderly_obeyAll (horderly : Orderly stage.harvester) (commands : List Command) :
    Orderly (obeyAll answers stage commands).harvester := by
  apply obeyAll_invariant (P := fun after => Orderly after.harvester)
  · intro after command horderly
    exact orderly_obey horderly command
  · exact horderly

end Order

end CatalogSync.Surroundings
