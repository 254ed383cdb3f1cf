import CatalogSync.Lister.Static
import CatalogSync.Proofs.Harvest.Undisturbed
import CatalogSync.Proofs.Lister.Locate

namespace CatalogSync.Engine

open Site (never Calls)
open Ledger (keyOf lasting)

/-- Where a process can die that polls. -/
inductive Death where
  /-- After so many calls of the listener, and before the snapshot is stored. -/
  | afterCalls (count : Nat)
  /-- Once the snapshot is stored. -/
  | afterWrite

section Run

variable (locate : String → String → String) (clock : Site → Time.Timestamp)
  (config : HarvesterConfig) (listing : List ListingEntry)

/-- What a process leaves that dies. -/
def abandon (engine : Engine) : Death → Site
  | .afterCalls count =>
    (Harvester.deliverAll (Site.lister locate) engine.harvester.config.root
      engine.harvester.properties [(Site.listener never clock).listener]
      ((diff engine.harvester.snapshot listing).changes.take count)
      (engine.site.meet (calm listing))).2
  | .afterWrite => (engine.poll locate never clock (calm listing)).2.site

/-- Processes that die, one after the other, and the poll of the one that comes after them. -/
def resume : Site → List Death → Except HarvestError PollReport × Engine
  | site, [] => (reopened locate config site).poll locate never clock (calm listing)
  | site, death :: deaths =>
    resume (abandon locate clock listing (reopened locate config site) death) deaths

end Run

variable {locate : String → String → String} {clock : Site → Time.Timestamp}
  {config : HarvesterConfig} {listing : List ListingEntry}

/-- A site is as far as some changes lead from an earlier one. -/
structure Stands (locate : String → String → String) (root : String) (changes : List Change)
    (before site : Site) : Prop where
  wellFormed : site.WellFormed
  mirrors : site.Mirrors
  ledger : site.ledger = before.ledger.afterAll locate root changes
  calls : ∃ calls, Calls before site calls ∧
    lasting calls = lasting (before.ledger.calls locate root changes)

section Stands

variable {root : String} {changes : List Change} {before site last : Site}

theorem Stands.issued_le (hkeys : (changes.map (keyOf locate root)).Nodup) {m : Nat}
    (h : Stands locate root (changes.take m) before site) (n : Nat) :
    (site.ledger.afterAll locate root (changes.take n)).issued ≤
      before.supply.issued + changes.length := by
  have hsound := Site.isSound_ledger h.mirrors
  rw [h.ledger] at hsound ⊢
  rw [(before.ledger.afterAll_take_take hkeys m n hsound).1]
  refine Nat.le_trans (Ledger.issued_le_afterAll before.ledger _).2 ?_
  exact Nat.add_le_add_left (List.length_take_le' _ _) _

end Stands

section Reached

variable {before site : Site}

/-- A poll goes through every place where its process can die: it goes on with the other changes
from what is left there, and once they are all delivered it stores the snapshot. -/
theorem poll_through_abandon (hclock : ∀ site, (clock site).IsValid) {engine : Engine}
    (hopen : engine.IsOpen) (listing : List ListingEntry) (count : Nat) :
    ∃ failed more last,
      Harvester.deliverAll (Site.lister locate) engine.harvester.config.root
        engine.harvester.properties
          [(Site.listener never clock).listener]
          ((diff engine.harvester.snapshot listing).changes.take count)
          (engine.site.meet (calm listing)) =
        (.ok failed, abandon locate clock listing engine (.afterCalls count)) ∧
      Harvester.deliverAll (Site.lister locate) engine.harvester.config.root
        engine.harvester.properties
          [(Site.listener never clock).listener]
          ((diff engine.harvester.snapshot listing).changes.drop count)
          (abandon locate clock listing engine (.afterCalls count)) = (.ok more, last) ∧
      engine.poll locate never clock (calm listing) = answerOf (Harvester.commit Site.snapshotStore
        engine.harvester (diff engine.harvester.snapshot listing)
        (.ofDiff (diff engine.harvester.snapshot listing) (failed + more)) last) := by
  have hmeet : (engine.site.meet (calm listing)).WellFormed :=
    ⟨hopen.site.readable, hopen.site.issued⟩
  obtain ⟨failed, middle, hfirst, hmiddle⟩ := deliverAll_never hclock engine.harvester.config.root
    engine.harvester.properties ((diff engine.harvester.snapshot listing).changes.take count) hmeet
  obtain ⟨more, last, hrest, -⟩ := deliverAll_never hclock engine.harvester.config.root
    engine.harvester.properties ((diff engine.harvester.snapshot listing).changes.drop count)
      hmiddle
  obtain rfl : abandon locate clock listing engine (.afterCalls count) = middle :=
    congrArg Prod.snd hfirst
  refine ⟨failed, more, last, hfirst, hrest, ?_⟩
  have hall := @Harvester.addCounts_of_ok _ _ (Harvester.deliverAll (Site.lister locate)
    engine.harvester.config.root engine.harvester.properties [(Site.listener never clock).listener]
    ((diff engine.harvester.snapshot listing).changes.drop count)) _ _ _ hfirst
  rw [← Harvester.deliverAll_append, List.take_append_drop, hrest] at hall
  unfold poll Harvester.poll
  rw [beginPoll_of_isOpen hopen]
  exact congrArg answerOf (Harvester.finishPoll_of_delivered hall)

section Resumed

variable (hclock : ∀ site, (clock site).IsValid) (hconfig : config.validate = .ok ())
  (hkeys : ((diff (stored? before config.root) listing).changes.map
    (keyOf locate config.root)).Nodup)
  (hids : UuidSupply.IsFresh
    ⟨before.supply.issued + (diff (stored? before config.root) listing).changes.length⟩)

include hclock hconfig hkeys hids

end Resumed

end Reached

end CatalogSync.Engine
