import CatalogSync.Harvest.Poll
import CatalogSync.Proofs.Snapshot.Changes
import CatalogSync.Proofs.Snapshot.Codec

namespace CatalogSync.Harvester

variable {σ τ : Type}

theorem storedSnapshot?_encode (base : Option Snapshot) :
    storedSnapshot? (base.map Snapshot.encode) = base := by
  cases base with
  | none => rfl
  | some snapshot => simp [storedSnapshot?, Snapshot.decode_encode, Except.toOption]

/-- One count after the other, unless the first one fails. -/
def addCounts (first rest : StateM τ (Except StoreError Nat)) :
    StateM τ (Except StoreError Nat) := do
  match ← first with
  | .error e => return .error e
  | .ok failed =>
    match ← rest with
    | .error e => return .error e
    | .ok more => return .ok (failed + more)

def countOf (call : StateM τ (Outcome ListenerError Unit)) : StateM τ (Except StoreError Nat) := do
  return failureCount (← call)

/-- Counts one call after the other. -/
def countAll : List (StateM τ (Outcome ListenerError Unit)) → StateM τ (Except StoreError Nat)
  | [] => pure (.ok 0)
  | call :: calls => addCounts (countOf call) (countAll calls)

theorem callAll_eq_countAll (call : Listener σ → StateM τ (Outcome ListenerError Unit))
    (listeners : List (Listener σ)) : callAll call listeners = countAll (listeners.map call) := by
  induction listeners with
  | nil => rfl
  | cons listener rest ih =>
    rw [List.map_cons, countAll, ← ih]
    rfl

theorem deliverAll_cons (lister : Lister σ) (root : String) (properties : Properties)
    (listeners : List (Listener σ)) (change : Change) (rest : List Change) :
    deliverAll lister root properties listeners (change :: rest) =
      addCounts (deliver lister root properties listeners change)
        (deliverAll lister root properties listeners rest) := rfl

theorem addCounts_of_error {first rest : StateM τ (Except StoreError Nat)} {world after : τ}
    {e : StoreError} (h : first world = (.error e, after)) :
    addCounts first rest world = (.error e, after) := by
  simp only [addCounts, bind, StateT.bind, h]
  rfl

theorem addCounts_of_ok {first rest : StateM τ (Except StoreError Nat)} {world after : τ}
    {failed : Nat} (h : first world = (.ok failed, after)) :
    addCounts first rest world =
      match rest after with
      | (.error e, last) => (.error e, last)
      | (.ok more, last) => (.ok (failed + more), last) := by
  simp only [addCounts, bind, StateT.bind, h]
  rcases rest after with ⟨_ | _, last⟩ <;> rfl

theorem addCounts_zero (rest : StateM τ (Except StoreError Nat)) :
    addCounts (pure (.ok 0)) rest = rest := by
  funext world
  have hzero : (pure (.ok 0) : StateM τ (Except StoreError Nat)) world = (.ok 0, world) := rfl
  rw [addCounts_of_ok hzero]
  rcases rest world with ⟨e | more, last⟩
  · rfl
  · simp only [Nat.zero_add]

theorem addCounts_assoc (first second rest : StateM τ (Except StoreError Nat)) :
    addCounts (addCounts first second) rest = addCounts first (addCounts second rest) := by
  funext world
  rcases hfirst : first world with ⟨e | failed, middle⟩
  · rw [addCounts_of_error hfirst, addCounts_of_error (addCounts_of_error hfirst)]
  · have hboth := @addCounts_of_ok _ _ second _ _ _ hfirst
    rw [addCounts_of_ok hfirst]
    rcases hsecond : second middle with ⟨e | more, last⟩
    · rw [hsecond] at hboth
      rw [addCounts_of_error hboth, addCounts_of_error hsecond]
    · rw [hsecond] at hboth
      rw [addCounts_of_ok hboth, addCounts_of_ok hsecond]
      rcases rest last with ⟨e | others, _⟩
      · rfl
      · simp only [Nat.add_assoc]

theorem deliverAll_append (lister : Lister σ) (root : String) (properties : Properties)
    (listeners : List (Listener σ)) (front back : List Change) :
    deliverAll lister root properties listeners (front ++ back) =
      addCounts (deliverAll lister root properties listeners front)
        (deliverAll lister root properties listeners back) := by
  induction front with
  | nil => exact (addCounts_zero _).symm
  | cons change rest ih =>
    rw [List.cons_append, deliverAll_cons, deliverAll_cons, ih, addCounts_assoc]

theorem addCounts_onWorld (first rest : StateM σ (Except StoreError Nat)) :
    addCounts (Reading.onWorld first) (Reading.onWorld rest) =
      Reading.onWorld (addCounts first rest) := by
  funext reading
  rcases hfirst : first reading.world with ⟨e | failed, after⟩
  · have hreading : Reading.onWorld first reading = (.error e, ⟨reading.content, after⟩) := by
      rw [Reading.onWorld, hfirst]
    rw [addCounts_of_error hreading, Reading.onWorld, addCounts_of_error hfirst]
  · have hreading : Reading.onWorld first reading = (.ok failed, ⟨reading.content, after⟩) := by
      rw [Reading.onWorld, hfirst]
    rw [addCounts_of_ok hreading, Reading.onWorld, Reading.onWorld, addCounts_of_ok hfirst]
    rcases rest after with ⟨_ | _, last⟩ <;> rfl

theorem countAll_map_onWorld (calls : List (StateM σ (Outcome ListenerError Unit))) :
    countAll (calls.map Reading.onWorld) = Reading.onWorld (countAll calls) := by
  induction calls with
  | nil => rfl
  | cons call calls ih =>
    rw [List.map_cons, countAll, countAll, ih, ← addCounts_onWorld]
    rfl

theorem countAll_singleton (call : StateM τ (Outcome ListenerError Unit)) :
    countAll [call] = countOf call := by
  funext world
  rcases hcall : countOf call world with ⟨e | failed, after⟩
  · exact addCounts_of_error hcall
  · exact addCounts_of_ok hcall

theorem beginPoll_listing {h : Harvester} {root : String} {members : List ListenerId}
    (hbegin : h.beginPoll = .listing root members) :
    h.status = .polling ∧ root = h.config.root ∧ members = h.members := by
  unfold beginPoll at hbegin
  split at hbegin
  · cases hbegin
  · rename_i hstatus
    split at hbegin
    · cases hbegin
    · cases hbegin
      exact ⟨not_not.mp hstatus, rfl, rfl⟩

theorem beginPoll_notRunning {h : Harvester} (hbegin : h.beginPoll = .notRunning) :
    h.status ≠ .polling := by
  intro hrunning
  unfold beginPoll at hbegin
  rw [if_neg (not_not.mpr hrunning)] at hbegin
  split at hbegin <;> cases hbegin

theorem beginPoll_idle {h : Harvester} (hbegin : h.beginPoll = .idle) : h.members = [] := by
  unfold beginPoll at hbegin
  split at hbegin
  · cases hbegin
  · split at hbegin
    · rename_i hnobody
      exact hnobody.1
    · cases hbegin

theorem events_ofDiff (diff : Diff) (failures : Nat) :
    (PollReport.ofDiff diff failures).events = diff.changes.length :=
  diff.count_add_count_add_count

def withListing (h : Harvester) (listing : List ListingEntry) : Harvester :=
  { h with snapshot := some (Snapshot.ofListing listing) }

theorem events_eq_zero_iff (previous : Option Snapshot) (listing : List ListingEntry)
    (failures : Nat) :
    ((PollReport.ofDiff (diff previous listing) failures).events = 0 ∧ previous.isSome) ↔
      previous = some (.ofListing listing) := by
  rw [events_ofDiff, List.length_eq_zero_iff]
  constructor
  · rintro ⟨hchanges, hsome⟩
    obtain ⟨snapshot, rfl⟩ := Option.isSome_iff_exists.mp hsome
    rw [ofListing_eq_of_diff_eq_nil hchanges]
  · rintro rfl
    exact ⟨changes_diff_self listing, rfl⟩

theorem commit_of_same (store : BlobStore σ) {h : Harvester} {listing : List ListingEntry}
    (hsame : h.snapshot = some (Snapshot.ofListing listing)) (failures : Nat) (world : σ) :
    commit store h (diff h.snapshot listing) (.ofDiff (diff h.snapshot listing) failures) world =
      ((.ok (.ofDiff (diff h.snapshot listing) failures), h.withListing listing), world) := by
  rw [commit, if_pos ((events_eq_zero_iff h.snapshot listing failures).mpr hsame), withListing,
    ← hsame]
  rfl

theorem commit_of_ne (store : BlobStore σ) {h : Harvester} {listing : List ListingEntry}
    (hne : h.snapshot ≠ some (Snapshot.ofListing listing)) (failures : Nat) (world : σ) :
    commit store h (diff h.snapshot listing) (.ofDiff (diff h.snapshot listing) failures) world =
      match store.store h.snapshotKey (Snapshot.ofListing listing).encode world with
      | (.error e, after) => ((.error (.persistence e), h), after)
      | (.ok (), after) =>
        ((.ok (.ofDiff (diff h.snapshot listing) failures), h.withListing listing), after) := by
  rw [commit, if_neg fun hquiet =>
    hne ((events_eq_zero_iff h.snapshot listing failures).mp hquiet), next_diff]
  simp only [bind, StateT.bind]
  rcases store.store h.snapshotKey (Snapshot.ofListing listing).encode world with ⟨_ | _, after⟩
  · rfl
  · rfl

theorem commit_cases (store : BlobStore σ) (h : Harvester) (listing : List ListingEntry)
    (failures : Nat) (world : σ) :
    (h.snapshot = some (Snapshot.ofListing listing) ∧
      commit store h (diff h.snapshot listing) (.ofDiff (diff h.snapshot listing) failures) world =
        ((.ok (.ofDiff (diff h.snapshot listing) failures), h.withListing listing), world)) ∨
    (∃ e after, store.store h.snapshotKey (Snapshot.ofListing listing).encode world =
        (.error e, after) ∧
      commit store h (diff h.snapshot listing) (.ofDiff (diff h.snapshot listing) failures) world =
        ((.error (.persistence e), h), after)) ∨
    (∃ after, store.store h.snapshotKey (Snapshot.ofListing listing).encode world =
        (.ok (), after) ∧
      commit store h (diff h.snapshot listing) (.ofDiff (diff h.snapshot listing) failures) world =
        ((.ok (.ofDiff (diff h.snapshot listing) failures), h.withListing listing), after)) := by
  by_cases hsame : h.snapshot = some (Snapshot.ofListing listing)
  · exact Or.inl ⟨hsame, commit_of_same store hsame failures world⟩
  · rw [commit_of_ne store hsame]
    rcases hstore : store.store h.snapshotKey (Snapshot.ofListing listing).encode world with
      ⟨e | _, after⟩
    · exact Or.inr (Or.inl ⟨e, after, rfl, rfl⟩)
    · exact Or.inr (Or.inr ⟨after, rfl, rfl⟩)

theorem finishPoll_of_aborted {lister : Lister σ} {store : BlobStore σ}
    {listeners : List (Listener σ)} {h : Harvester} {root : String} {listing : List ListingEntry}
    {world after : σ} {e : StoreError}
    (hdeliver : deliverAll lister root h.properties listeners (diff h.snapshot listing).changes
      world = (.error e, after)) :
    finishPoll lister store listeners h root (.ok listing) world =
      ((.error (.persistence e), h), after) := by
  simp only [finishPoll, bind, StateT.bind, hdeliver]
  rfl

theorem finishPoll_of_delivered {lister : Lister σ} {store : BlobStore σ}
    {listeners : List (Listener σ)} {h : Harvester} {root : String} {listing : List ListingEntry}
    {world after : σ} {failures : Nat}
    (hdeliver : deliverAll lister root h.properties listeners (diff h.snapshot listing).changes
      world = (.ok failures, after)) :
    finishPoll lister store listeners h root (.ok listing) world =
      commit store h (diff h.snapshot listing) (.ofDiff (diff h.snapshot listing) failures)
        after := by
  simp only [finishPoll, bind, StateT.bind, hdeliver]

end CatalogSync.Harvester
