import CatalogSync.Lister.Static
import CatalogSync.Proofs.Harvest.Engine
import CatalogSync.Proofs.Listener.LostWrites

namespace CatalogSync.Engine

variable {locate : String → String → String} {fails : Nat → Bool} {clock : Site → Time.Timestamp}
  {engine after : Engine} {round : Round} {result : Except HarvestError PollReport}

theorem accounts_meet (h : engine.site.Accounts) (round : Round) :
    (engine.site.meet round).Accounts :=
  ⟨h.unique, h.issued, h.sound_iff⟩

theorem accounts_of_deliveries {root : String} {changes : List Change} {site last : Site}
    {result : Except StoreError Unit} (hsite : site.WellFormed) (h : site.Accounts)
    (hdelivered : Deliveries locate fails root changes site result last)
    (hfresh : last.supply.IsFresh) : last.Accounts :=
  hdelivered.keeps hfresh (fun _ _ _ _ _ hbefore hcall hissued =>
    Site.accounts_of_callback hbefore hcall hissued) hsite h

theorem accounts_of_polled (hopen : engine.IsOpen) (h : engine.site.Accounts)
    (hpolled : Polled locate fails engine round (result, after))
    (hfresh : after.site.supply.IsFresh) : after.site.Accounts := by
  have hmeet := accounts_meet h round
  have hsite : (engine.site.meet round).WellFormed := ⟨hopen.site.readable, hopen.site.issued⟩
  cases hpolled with
  | unreachable => exact hmeet
  | aborted _ _ _ _ hdelivered => exact accounts_of_deliveries hsite hmeet hdelivered hfresh
  | lost _ _ _ last _ hdelivered =>
    have hlast : last.Accounts := accounts_of_deliveries hsite hmeet hdelivered hfresh
    exact ⟨hlast.unique, hlast.issued, hlast.sound_iff⟩
  | completed _ _ _ last _ hdelivered =>
    have hlast : last.Accounts := accounts_of_deliveries hsite hmeet hdelivered hfresh
    exact ⟨hlast.unique, hlast.issued, hlast.sound_iff⟩

/-- What is expected of a change once it is dealt with: what is gone is not mapped any more, and
what has appeared is mapped to a live record. -/
def Settled (locate : String → String → String) (root : String) (site : Site) (change : Change) :
    Prop :=
  match change.kind with
  | .created => ∃ row, site.row? (correlationId (locate root change.path)) = some row ∧
      site.record? row.downstreamId ≠ none
  | .modified => True
  | .deleted => site.row? (correlationId (locate root change.path)) = none

theorem row?_of_created {site : Site} {location : String} {after : Site}
    (hbehavior : site.adapter.behavior ≠ .failCreate)
    (hcall : Site.Callback fails site location .created (.ok (), after)) :
    ∃ row, after.row? (correlationId location) = some row := by
  generalize hanswer : ((.ok (), after) : Outcome ListenerError Unit × Site) = answer at hcall
  cases hcall with
  | known row hrow =>
    cases hanswer
    exact ⟨row, hrow⟩
  | unknown _ hkind => exact absurd rfl hkind
  | refusedCreate _ hfailing => exact absurd hfailing hbehavior
  | created time htime =>
    exact ⟨_, Site.row?_write_of_ok (Site.isValid_of_some htime) hanswer.symm⟩

theorem row?_of_deleted {site : Site} {location : String} {after : Site} (hsound : site.IsSound)
    (hbehavior : site.adapter.behavior ≠ .failDelete)
    (hcall : Site.Callback fails site location .deleted (.ok (), after)) :
    after.row? (correlationId location) = none := by
  generalize hanswer : ((.ok (), after) : Outcome ListenerError Unit × Site) = answer at hcall
  cases hcall with
  | unknown _ _ hrow =>
    cases hanswer
    exact hrow
  | refusedDelete row hrow hrefused =>
    rcases hrefused with hfailing | hdead
    · exact absurd hfailing hbehavior
    · exact absurd hdead (hsound _ row hrow)
  | deleted => exact Site.row?_write_of_ok Site.isValid_of_none hanswer.symm

theorem settled_of_delivered {root : String} {changes : List Change} {site last : Site}
    (hsite : site.WellFormed) (h : site.Accounts)
    (hdelivered : Deliveries locate fails root changes site (.ok ()) last)
    (hfresh : last.supply.IsFresh) (hnoharm : last.LostNoHarm)
    (hcreates : site.adapter.behavior ≠ .failCreate)
    (hdeletes : site.adapter.behavior ≠ .failDelete) (hpaths : (changes.map Change.path).Nodup)
    (hkeys : ∀ change ∈ changes, ∀ other ∈ changes, correlationId (locate root change.path) =
      correlationId (locate root other.path) → change.path = other.path)
    {change : Change} (hchange : change ∈ changes) : Settled locate root last change := by
  have hlast := accounts_of_deliveries hsite h hdelivered hfresh
  obtain ⟨first, rest, before, middle, rfl, hfirst, hcall, hrest⟩ := hdelivered.split hchange
  have hlater : ∀ other ∈ rest, correlationId (locate root change.path) ≠
      correlationId (locate root other.path) := by
    intro other hother
    exact key_ne_of_append hpaths hkeys other (List.mem_append_right _ hother)
  have hrow : last.row? (correlationId (locate root change.path)) =
      middle.row? (correlationId (locate root change.path)) := hrest.row?_of_ne hlater
  have hissued : before.supply.issued ≤ last.supply.issued :=
    Nat.le_trans (Site.issued_le_of_callback hcall) hrest.issued_le
  have hbefore := accounts_of_deliveries hsite h hfirst (hfresh.mono hissued)
  have hlost : before.mappings.lost <+: last.mappings.lost :=
    (Site.lost_of_callback hcall).trans hrest.lost
  have hsound : before.IsSound :=
    hbefore.sound_iff.mpr fun write hwrite => hnoharm write (hlost.subset hwrite)
  obtain ⟨kind, path⟩ := change
  cases kind with
  | created =>
    obtain ⟨row, hmapped⟩ := row?_of_created (by rw [hfirst.behavior]; exact hcreates) hcall
    exact ⟨row, hrow.trans hmapped, hlast.sound_iff.mpr hnoharm _ row (hrow.trans hmapped)⟩
  | modified => exact trivial
  | deleted =>
    exact hrow.trans (row?_of_deleted hsound (by rw [hfirst.behavior]; exact hdeletes) hcall)

/-- What holds of a poll: its map is sound as long as nothing has been lost that does harm, and
then a completed poll settles what it has found. -/
structure Observed.KeepsAccounts (locate : String → String → String) (root : String)
    (observed : Observed) : Prop where
  sound_iff : observed.after.IsSound ↔ observed.after.LostNoHarm
  settled : observed.after.LostNoHarm → (∃ report, observed.result = .ok report) →
    observed.after.adapter.behavior ≠ .failCreate → observed.after.adapter.behavior ≠ .failDelete →
    (∀ change ∈ observed.changes, ∀ other ∈ observed.changes,
      correlationId (locate root change.path) = correlationId (locate root other.path) →
        change.path = other.path) →
    ∀ change ∈ observed.changes, Settled locate root observed.after change

theorem keepsAccounts_observe (hclock : ∀ site, (clock site).IsValid) (hopen : engine.IsOpen)
    (h : engine.site.Accounts) (round : Round)
    (hfresh : (engine.poll locate fails clock round).2.site.supply.IsFresh) :
    (engine.observe locate fails clock round).KeepsAccounts locate
      engine.harvester.config.root := by
  have hpolled : Polled locate fails engine round _ := polled_poll hclock hopen round
  unfold observe
  generalize engine.poll locate fails clock round = answer at hpolled hfresh ⊢
  obtain ⟨result, after⟩ := answer
  refine ⟨(accounts_of_polled hopen h hpolled hfresh).sound_iff, ?_⟩
  rintro hnoharm ⟨report, hresult⟩ hcreates hdeletes hkeys change hchange
  cases hpolled with
  | unreachable | aborted | lost => cases hresult
  | completed listing hlisted _ last snapshots hdelivered =>
    simp only [hlisted] at hkeys hchange
    have hsite : (engine.site.meet round).WellFormed := ⟨hopen.site.readable, hopen.site.issued⟩
    have hbehavior : last.adapter.behavior = (engine.site.meet round).adapter.behavior :=
      hdelivered.behavior
    exact settled_of_delivered hsite (accounts_meet h round) hdelivered hfresh hnoharm
      (hbehavior ▸ hcreates) (hbehavior ▸ hdeletes) (nodup_paths_diff _ _) hkeys hchange

theorem keepsAccounts_observeAll (hclock : ∀ site, (clock site).IsValid) (rounds : List Round)
    (hopen : engine.IsOpen) (h : engine.site.Accounts)
    (hfresh : (engine.pollAll locate fails clock rounds).site.supply.IsFresh) :
    ∀ observed ∈ engine.observeAll locate fails clock rounds,
      observed.KeepsAccounts locate engine.harvester.config.root := by
  induction rounds generalizing engine with
  | nil =>
    intro observed hobserved
    cases hobserved
  | cons round rounds ih =>
    have hpolled : Polled locate fails engine round _ := polled_poll hclock hopen round
    have hnext := hpolled.isOpen hopen
    rw [pollAll_cons] at hfresh
    have hissued := hfresh.mono (issued_le_pollAll hclock rounds hnext)
    intro observed hobserved
    rcases List.mem_cons.mp hobserved with rfl | hlater
    · exact keepsAccounts_observe hclock hopen h round hissued
    · rw [← hpolled.config]
      exact ih hnext (accounts_of_polled hopen h hpolled hissued) hfresh observed hlater

theorem accounts_empty : Site.empty.Accounts := by
  refine ⟨?_, ?_, iff_of_true ?_ ?_⟩
  · intro _ _ _ _ hrow
    cases hrow
  · intro _ _ hrow
    cases hrow
  · intro _ _ hrow
    cases hrow
  · intro _ hlost
    cases hlost

/-- After every poll of every run, whatever writes to the map have failed, each mapped id is that of
a live record exactly if no harmful write has been lost. As long as that is so, a path that is gone
is not mapped after a completed poll, and one that has appeared has a live record. -/
theorem map_sound_iff_no_harmful_loss (locate : String → String → String) (fails : Nat → Bool)
    (clock : Site → Time.Timestamp) (hclock : ∀ site, (clock site).IsValid)
    (config : HarvesterConfig) (hconfig : config.validate = .ok ()) (rounds : List Round)
    (hfresh : ((opened locate config).pollAll locate fails clock rounds).site.supply.IsFresh) :
    ∀ observed ∈ (opened locate config).observeAll locate fails clock rounds,
      observed.KeepsAccounts locate config.root := by
  rw [opened_eq hconfig] at hfresh ⊢
  exact keepsAccounts_observeAll hclock rounds (isOpen_opened config) accounts_empty hfresh

/-- A file comes, goes and comes again. -/
def forgetfulRounds : List Round :=
  [⟨.ok [⟨"a", ⟨1, 1⟩⟩], .succeed, false⟩, ⟨.ok [], .succeed, false⟩, ⟨.ok [], .succeed, false⟩,
    ⟨.ok [⟨"a", ⟨1, 1⟩⟩], .succeed, false⟩]

/-- The map loses its second write. -/
def forgetfulPolls : List Observed :=
  (opened StaticTree.locate (.ofRoot "h" "r")).observeAll StaticTree.locate (fun n => n == 1)
    Site.stopped forgetfulRounds

theorem forgetfulPolls_summary :
    (forgetfulPolls.map fun observed => (observed.changes, observed.result.toBool,
      observed.after.adapter.records.entries,
      (observed.after.row? (correlationId "r/a")).isSome)) =
    [([⟨.created, "a"⟩], true, [((UuidSupply.nth 0).text, "r/a")], true),
      ([⟨.deleted, "a"⟩], false, [], true), ([⟨.deleted, "a"⟩], true, [], true),
      ([⟨.created, "a"⟩], true, [], true)] := by
  decide +kernel

theorem not_isSound_of_no_records {site : Site} {key : String}
    (hrecords : site.adapter.records.entries = []) (hrow : (site.row? key).isSome = true) :
    ¬ site.IsSound := by
  intro hsound
  obtain ⟨row, hkey⟩ := Option.isSome_iff_exists.mp hrow
  apply hsound key row hkey
  rw [Site.record?, Table.get?, hrecords]
  rfl

/-- The third and the fourth poll complete. After the third one the map names a record that is gone,
and because of that the fourth one does not create a record for the file that has come back. -/
theorem mapped_record_gone_after_completed_poll :
    ∃ third fourth, forgetfulPolls[2]? = some third ∧ forgetfulPolls[3]? = some fourth ∧
      third.result.toBool = true ∧ ¬ third.after.IsSound ∧
      fourth.result.toBool = true ∧ fourth.changes = [⟨.created, "a"⟩] ∧
      fourth.after.adapter.records.entries = [] := by
  have hsummary := forgetfulPolls_summary
  generalize forgetfulPolls = polls at hsummary ⊢
  rcases polls with _ | ⟨first, _ | ⟨second, _ | ⟨third, _ | ⟨fourth, rest⟩⟩⟩⟩
  · cases hsummary
  · simp at hsummary
  · simp at hsummary
  · simp at hsummary
  · simp only [List.map_cons, List.cons.injEq, Prod.mk.injEq] at hsummary
    obtain ⟨-, -, ⟨-, hthird, hrecords, hrow⟩, ⟨hchanges, hfourth, hempty, -⟩, -⟩ := hsummary
    exact ⟨third, fourth, rfl, rfl, hthird, not_isSound_of_no_records hrecords hrow, hfourth,
      hchanges, hempty⟩

theorem keepsAccounts_of_third_forgetful_poll :
    ∃ third, forgetfulPolls[2]? = some third ∧ third.KeepsAccounts StaticTree.locate "r" := by
  have hkeeps := map_sound_iff_no_harmful_loss StaticTree.locate (fun n => n == 1) Site.stopped
    Site.isValid_stopped (.ofRoot "h" "r") rfl forgetfulRounds
    (UuidSupply.isFresh_of_le (by decide +kernel))
  refine ⟨_, rfl, hkeeps _ ?_⟩
  exact List.mem_cons_of_mem _ (List.mem_cons_of_mem _ List.mem_cons_self)

end CatalogSync.Engine
