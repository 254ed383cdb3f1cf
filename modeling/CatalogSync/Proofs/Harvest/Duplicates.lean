import CatalogSync.Lister.Static
import CatalogSync.Proofs.Harvest.LostMappings
import CatalogSync.Proofs.Listener.StrayRecords

namespace CatalogSync.Engine

variable {fails : Nat → Bool}

/-- What is known of the records at the end of a poll: at each location they are the one that is
mapped, if there is one, and those whose mapping was lost. -/
structure Observed.KeepsInventory (observed : Observed) : Prop where
  copies : ∀ location, (observed.after.recordsAt location).Perm
    (observed.after.mappedAt location ++ observed.after.straysAt location)
  all_mapped_iff :
    (∀ id location, observed.after.record? id = some location →
      observed.after.IsMapped id location) ↔ observed.after.strays = []

theorem keepsInventory_of_inventory {observed : Observed} (h : observed.after.Inventory) :
    observed.KeepsInventory :=
  ⟨h.recordsAt_perm, h.all_mapped_iff⟩

theorem stock_of_callback (before : Site) (location : String) (kind : ChangeKind)
    (answer : Outcome ListenerError Unit × Site) (hsite : before.WellFormed)
    (h : before.Accounts ∧ before.Inventory)
    (hstep : Site.Callback fails before location kind answer)
    (hfresh : answer.2.supply.IsFresh) : answer.2.Accounts ∧ answer.2.Inventory :=
  ⟨Site.accounts_of_callback h.1 hstep hfresh,
    Site.inventory_of_callback hsite h.1 h.2 hstep hfresh⟩

/-- After every poll of every run, whatever the adapter does and whatever writes to the map have
failed, the live records at a location are the mapped one and the strays, so that every live record
is mapped exactly if no mapping of a new record has been lost. -/
theorem records_mapped_or_stray (locate : String → String → String) (fails : Nat → Bool)
    (clock : Site → Time.Timestamp) (hclock : ∀ site, (clock site).IsValid)
    (config : HarvesterConfig) (hconfig : config.validate = .ok ()) (rounds : List Round)
    (hfresh : ((opened locate config).pollAll locate fails clock rounds).site.supply.IsFresh) :
    ∀ observed ∈ (opened locate config).observeAll locate fails clock rounds,
      observed.KeepsInventory := by
  rw [opened_eq hconfig] at hfresh ⊢
  intro observed hobserved
  have hstock : observed.after.Accounts ∧ observed.after.Inventory := by
    refine keeps_observeAll stock_of_callback ?_ ?_ hclock rounds (isOpen_opened config) hfresh
      ⟨accounts_empty, Site.inventory_empty⟩ observed hobserved
    · rintro site round ⟨haccounts, h⟩
      exact ⟨⟨haccounts.unique, haccounts.issued, haccounts.sound_iff⟩, h.live, h.distinct,
        h.unmapped, h.key, h.found⟩
    · rintro site snapshots ⟨haccounts, h⟩
      exact ⟨⟨haccounts.unique, haccounts.issued, haccounts.sound_iff⟩, h.live, h.distinct,
        h.unmapped, h.key, h.found⟩
  exact keepsInventory_of_inventory hstock.2

def hastyRounds : List Round :=
  [⟨.ok [⟨"a", ⟨1, 1⟩⟩], .succeed, false⟩, ⟨.ok [⟨"a", ⟨1, 1⟩⟩], .succeed, false⟩]

/-- Two polls of a tree that stays as it is, while the map loses its first write. -/
def hastyPolls : List Observed :=
  (opened StaticTree.locate (.ofRoot "h" "r")).observeAll StaticTree.locate (fun n => n == 0)
    Site.stopped hastyRounds

theorem hastyPolls_summary :
    (hastyPolls.map fun observed => (observed.result.toBool,
      observed.after.adapter.records.entries,
      (observed.after.row? (correlationId "r/a")).map Correlation.downstreamId)) =
    [(false, [((UuidSupply.nth 0).text, "r/a")], none),
      (true, [((UuidSupply.nth 0).text, "r/a"), ((UuidSupply.nth 1).text, "r/a")],
        some (UuidSupply.nth 1).text)] := by
  decide +kernel

/-- The second poll completes, and leaves two live records at one location, one of which is not
mapped. -/
theorem two_records_after_completed_poll :
    ∃ second, hastyPolls[1]? = some second ∧ second.result.toBool = true ∧
      second.after.recordsAt "r/a" = [(UuidSupply.nth 0).text, (UuidSupply.nth 1).text] ∧
      ¬ second.after.IsMapped (UuidSupply.nth 0).text "r/a" := by
  have hsummary := hastyPolls_summary
  generalize hastyPolls = polls at hsummary ⊢
  rcases polls with _ | ⟨first, _ | ⟨second, rest⟩⟩
  · cases hsummary
  · simp at hsummary
  · simp only [List.map_cons, List.cons.injEq, Prod.mk.injEq] at hsummary
    obtain ⟨-, ⟨hresult, hrecords, hmapped⟩, -⟩ := hsummary
    refine ⟨second, rfl, hresult, ?_, ?_⟩
    · rw [Site.recordsAt, hrecords]
      rfl
    · rintro ⟨row, hrow, hid⟩
      rw [hrow, Option.map_some, hid, Option.some.injEq] at hmapped
      exact absurd hmapped (by decide)

theorem keepsInventory_of_second_hasty_poll :
    ∃ second, hastyPolls[1]? = some second ∧ second.KeepsInventory := by
  have hkeeps := records_mapped_or_stray StaticTree.locate (fun n => n == 0) Site.stopped
    Site.isValid_stopped (.ofRoot "h" "r") rfl hastyRounds
    (UuidSupply.isFresh_of_le (by decide +kernel))
  exact ⟨_, rfl, hkeeps _ (List.mem_cons_of_mem _ List.mem_cons_self)⟩

end CatalogSync.Engine
