import CatalogSync.Proofs.Harvest.Delivery
import CatalogSync.Proofs.Harvest.Detour
import CatalogSync.Proofs.Snapshot.Account

namespace CatalogSync.Surroundings

open Harvester

variable {answers : Answers} {stage : Stage} {listing : List ListingEntry} {previous : Snapshot}

theorem pollOnce_of_quiet (hlists : stage.Lists)
    (hlisted : answers.list stage.world.calls = .ok listing)
    (hknown : stage.harvester.snapshot = some previous)
    (hquiet : (diff (some previous) listing).changes = []) :
    pollOnce answers stage = (.ok (.ofDiff (diff (some previous) listing) 0),
      { stage with world := stage.listed (.ok listing) }) := by
  have hdue : dueChanges stage listing = [] := by rw [dueChanges, hknown, hquiet]
  have hsteady : IsSteady answers stage listing := by
    intro i hi
    rw [hdue] at hi
    exact absurd hi (Nat.not_lt_zero i)
  have hsame : stage.harvester.snapshot = some (.ofListing listing) := by
    rw [hknown, (changes_diff_eq_nil_iff previous listing).mp hquiet]
  have hnobody : dueNotices answers stage listing = [] := by rw [dueNotices, hdue, List.flatMap_nil]
  have hkept : stage.harvester.withListing listing = stage.harvester := by
    rw [withListing, ← hsame]
  rw [pollOnce_of_same hlists hlisted hsteady hsame, hkept, reportOf, hnobody, hknown,
    World.tellAll_nil]
  rfl

theorem storedSnapshot?_insert (h : Consistent stage) (hrunning : stage.harvester.status = .polling)
    (hknown : stage.harvester.snapshot = some previous) (key : String) :
    storedSnapshot?
        ((stage.world.blobs.insert stage.harvester.snapshotKey previous.encode).get? key) =
      storedSnapshot? (stage.world.blobs.get? key) := by
  rw [Table.get?_insert]
  split
  · rename_i hkey
    have hstored := (h.running hrunning).2.2
    rw [hkey, ← hstored, hknown]
    exact storedSnapshot?_encode (some previous)
  · rfl

/-- A diff is what accounts for a listing and nothing else, and without changes it leads to the view
that it came from. So a harvester that finds nothing new need not store anything, wherever it has
come by what it knows: what is stored under any key stays what it would be if the new view had been
stored. -/
theorem quiet_polls_keep_what_is_stored :
    (∀ previous listing found, Accounts previous listing found ↔ found = diff previous listing) ∧
    (∀ previous listing, (diff (some previous) listing).changes = [] ↔
      (diff (some previous) listing).next = previous) ∧
    ∀ answers config blobs commands listing previous,
      let stage := obeyAll answers ⟨.ofConfig config, ⟨blobs, []⟩⟩ commands
      stage.Lists → answers.list stage.world.calls = .ok listing →
        stage.harvester.snapshot = some previous → (diff (some previous) listing).changes = [] →
        pollOnce answers stage = (.ok (.ofDiff (diff (some previous) listing) 0),
            { stage with world := stage.listed (.ok listing) }) ∧
          ∀ key, storedSnapshot? (stage.world.blobs.get? key) =
            storedSnapshot? ((stage.world.blobs.insert stage.harvester.snapshotKey
              (diff (some previous) listing).next.encode).get? key) := by
  refine ⟨fun _ _ _ => accounts_iff, fun previous listing => ?_, ?_⟩
  · rw [next_diff]
    exact changes_diff_eq_nil_iff previous listing
  · intro answers config blobs commands listing previous stage hlists hlisted hknown hquiet
    have hconsistent : Consistent stage :=
      consistent_obeyAll (consistent_ofConfig config ⟨blobs, []⟩) commands
    have hrunning := (beginPoll_listing hlists).1
    refine ⟨pollOnce_of_quiet hlists hlisted hknown hquiet, fun key => ?_⟩
    rw [next_diff, (changes_diff_eq_nil_iff previous listing).mp hquiet,
      storedSnapshot?_insert hconsistent hrunning hknown]

/-- Surroundings that list the same two files in another order each time, one of them twice. -/
def shuffling : Answers where
  checkRoot := fun _ => .ok ()
  list := fun calls =>
    if listings calls = 0 then .ok [⟨"b", ⟨2, 2⟩⟩, ⟨"a", ⟨1, 1⟩⟩]
    else .ok [⟨"a", ⟨9, 9⟩⟩, ⟨"b", ⟨2, 2⟩⟩, ⟨"a", ⟨1, 1⟩⟩]
  locate := fun root path => root ++ "/" ++ path
  fetch := fun _ => .error (.unavailable "")
  loadError? := fun _ => none
  writeError? := fun calls => if listings calls = 1 then none else some (.database "full")
  notify := fun _ => .ok ()

theorem second_poll_of_shuffling_keeps :
    let stage := obeyAll shuffling ⟨.ofConfig (.ofRoot "h" "r"), ⟨Table.empty, []⟩⟩
      [.start, .register 0 "l", .poll]
    let known := Snapshot.ofListing [⟨"b", ⟨2, 2⟩⟩, ⟨"a", ⟨1, 1⟩⟩]
    let listing : List ListingEntry := [⟨"a", ⟨9, 9⟩⟩, ⟨"b", ⟨2, 2⟩⟩, ⟨"a", ⟨1, 1⟩⟩]
    (stage.Lists ∧ shuffling.list stage.world.calls = .ok listing ∧
      stage.harvester.snapshot = some known ∧ (diff (some known) listing).changes = []) ∧
    pollOnce shuffling stage = (.ok (.ofDiff (diff (some known) listing) 0),
      { stage with world := stage.listed (.ok listing) }) ∧
    ∀ key, storedSnapshot? (stage.world.blobs.get? key) =
      storedSnapshot? ((stage.world.blobs.insert stage.harvester.snapshotKey
        (diff (some known) listing).next.encode).get? key) := by
  intro stage known listing
  have hlists : stage.Lists := rfl
  have hlisted : shuffling.list stage.world.calls = .ok listing := rfl
  have hknown : stage.harvester.snapshot = some known := rfl
  have hquiet : (diff (some known) listing).changes = [] := by decide +kernel
  exact ⟨⟨hlists, hlisted, hknown, hquiet⟩, quiet_polls_keep_what_is_stored.2.2 shuffling _ _ _ _ _
    hlists hlisted hknown hquiet⟩

end CatalogSync.Surroundings
