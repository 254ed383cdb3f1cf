import CatalogSync.Proofs.Harvest.Turns

namespace CatalogSync.Surroundings

open Harvester

variable {answers : Answers} {h : Harvester}

section Refusals

variable {turns : Turns}

theorem register_eq_error_iff (hfew : h.policy = .single → h.members.length ≤ 1)
    (listener : ListenerId) (name : String) :
    (∃ e, h.register listener name = .error e) ↔
      h.policy = .single ∧ ∃ other ∈ h.members, other ≠ listener := by
  unfold register hasListener
  constructor
  · intro hrejected
    split at hrejected
    · obtain ⟨e, he⟩ := hrejected
      cases he
    · rename_i habsent
      split at hrejected
      · rename_i hfull
        obtain ⟨other, hother⟩ := List.exists_mem_of_ne_nil _ hfull.2
        refine ⟨hfull.1, other, hother, ?_⟩
        rintro rfl
        exact habsent (List.contains_iff_mem.mpr hother)
      · obtain ⟨e, he⟩ := hrejected
        cases he
  · rintro ⟨hsingle, other, hother, hne⟩
    have habsent : ¬ h.members.contains listener = true := by
      intro hmember
      obtain ⟨only, hmembers⟩ : ∃ only, h.members = [only] := by
        refine List.length_eq_one_iff.mp (Nat.le_antisymm (hfew hsingle) ?_)
        exact List.length_pos_of_mem hother
      rw [hmembers, List.contains_iff_mem, List.mem_singleton] at hmember
      rw [hmembers, List.mem_singleton] at hother
      exact hne (hother.trans hmember.symm)
    rw [if_neg habsent, if_pos ⟨hsingle, List.ne_nil_of_mem hother⟩]
    exact ⟨_, rfl⟩

theorem fst_register (turns : Turns) (listener : ListenerId) (name : String) :
    (∃ e, (turns.register listener name).1 = .error e) ↔
      ∃ e, turns.stage.harvester.register listener name = .error e := by
  rw [Turns.register]
  cases turns.stage.harvester.register listener name <;> simp

theorem register_of_error {listener : ListenerId} {name : String} {e : HarvestError}
    (herror : (turns.register listener name).1 = .error e) :
    (turns.register listener name).2 = turns := by
  rw [Turns.register] at herror ⊢
  split at herror
  · cases herror
  · rfl

end Refusals

/-- What holds at every moment, and what is refused without a trace. -/
structure WellKept (answers : Answers) (turns : Turns) : Prop where
  nodup : turns.stage.harvester.members.Nodup
  single : turns.stage.harvester.policy = .single → turns.stage.harvester.members.length ≤ 1
  settled : turns.turn? = none →
    turns.stage.harvester.policy = turns.stage.harvester.config.policy ∧
    turns.stage.harvester.interval = turns.stage.harvester.config.interval ∧
    turns.stage.harvester.config.id = turns.stage.harvester.id
  rejected_iff : ∀ listener name, (∃ e, (turns.register listener name).1 = .error e) ↔
    turns.stage.harvester.policy = .single ∧
      ∃ other ∈ turns.stage.harvester.members, other ≠ listener
  rejected : ∀ listener name e, (turns.register listener name).1 = .error e →
    (turns.register listener name).2 = turns
  otherId : ∀ caller config, config.id ≠ turns.stage.harvester.id →
    turns.ask ⟨caller, .reconfigure config⟩ =
      (.error (.config (.invalidValue "id" config.id)), turns)
  invalid : ∀ caller config e, config.id = turns.stage.harvester.id → config.validate = .error e →
    turns.ask ⟨caller, .reconfigure config⟩ = (.error (.config e), turns)
  /-- That the listeners are too many is found out when the call has its turn. -/
  crowded : ∀ turn config, turns.turn? = some turn → turn.errand = .reconfigure config →
    turn.progress = turn.errand.opening →
    config.policy = .single → 1 < turns.stage.harvester.members.length →
    turns.happen answers .proceed = turns.answer turn (.done (.error (.config (.invalidValue
      ("harvester." ++ turns.stage.harvester.id ++ ".listener_policy")
        ListenerPolicy.single.text))))
      turns.stage

theorem wellKept_of_serial {config : HarvesterConfig} {world : World} {turns : Turns}
    (hserial : Serial answers ⟨.ofConfig config, world⟩ turns) : WellKept answers turns := by
  obtain ⟨commands, hprospect⟩ := hserial.prospect
  obtain ⟨-, hpolicy, hmembers⟩ := @Turns.listeners_prospect answers turns
  have horderly : Orderly (turns.prospect answers).harvester := by
    rw [hprospect]
    exact orderly_obeyAll (orderly_ofConfig config) commands
  have hsingle : turns.stage.harvester.policy = .single →
      turns.stage.harvester.members.length ≤ 1 := by
    rw [← hpolicy, ← hmembers]
    exact horderly.single
  constructor
  case nodup =>
    rw [← hmembers]
    exact horderly.nodup
  case single => exact hsingle
  case settled =>
    intro hfree
    simp only [Turns.prospect, hfree] at horderly
    exact ⟨horderly.policy, horderly.interval, horderly.id⟩
  case rejected_iff =>
    intro listener name
    rw [fst_register]
    exact register_eq_error_iff hsingle listener name
  case rejected =>
    intro listener name e herror
    exact register_of_error herror
  case otherId =>
    intro caller other hid
    simp only [Turns.ask, Errand.check, checkConfig, if_pos hid]
  case invalid =>
    intro caller other e hid hinvalid
    simp only [Turns.ask, Errand.check, checkConfig, hid, ne_eq, not_true_eq_false, if_false,
      hinvalid]
  case crowded =>
    intro turn other hturn herrand hopening hpolicy hcrowd
    rw [herrand] at hopening
    have hrefused : ¬ turns.stage.harvester.admitsPolicy other.policy = true := by
      simp [admitsPolicy, hpolicy, hcrowd]
    simp only [Turns.happen, Turns.proceed, hturn, hopening, Errand.opening, advance,
      if_neg hrefused]

/-- Whatever comes in whatever order, listeners, policy, interval and configuration go together. -/
theorem interleaved_calls_wellKept (answers : Answers) (config : HarvesterConfig) (world : World)
    (events : List Event) :
    WellKept answers ((Turns.opened ⟨.ofConfig config, world⟩).happenAll answers events) :=
  wellKept_of_serial (serial_happenAll (serial_opened _) events)

end CatalogSync.Surroundings
