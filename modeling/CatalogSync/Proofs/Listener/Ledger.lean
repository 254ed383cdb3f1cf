import CatalogSync.Proofs.Listener.Effect

namespace CatalogSync

@[ext] structure Ledger where
  /-- The id and the location in the row under a key. -/
  rows : String → Option (String × String)
  records : Table String
  /-- How many ids have been issued. -/
  issued : Nat

namespace Ledger

variable (locate : String → String → String) (root : String)

def keyOf (change : Change) : String :=
  correlationId (locate root change.path)

/-- What the adapter is asked to do about a location that has changed. -/
def call? (ledger : Ledger) (kind : ChangeKind) (location : String) : Option AdapterCall :=
  match kind, ledger.rows (correlationId location) with
  | .created, none => some (.create location)
  | .created, some _ => none
  | .modified, none => none
  | .modified, some row => some (.update location row.1)
  | .deleted, none => none
  | .deleted, some row => some (.delete row.1)

def setRow (ledger : Ledger) (key : String) (row : Option (String × String)) : Ledger :=
  { ledger with rows := fun other => if other = key then row else ledger.rows other }

/-- The ledger once a call of the adapter about the location with a key has been answered and the
answer has been mapped. -/
def enter (ledger : Ledger) (key : String) : AdapterCall → Ledger
  | .create location =>
    let id := (UuidSupply.nth ledger.issued).text
    { ledger.setRow key (some (id, location)) with
      records := ledger.records.insert id location
      issued := ledger.issued + 1 }
  | .update location id =>
    { ledger.setRow key (some (id, location)) with records := ledger.records.insert id location }
  | .delete id => { ledger.setRow key none with records := ledger.records.erase id }

def after (ledger : Ledger) (kind : ChangeKind) (location : String) : Ledger :=
  match ledger.call? kind location with
  | none => ledger
  | some call => ledger.enter (correlationId location) call

def afterAll (ledger : Ledger) (changes : List Change) : Ledger :=
  changes.foldl (fun ledger change => ledger.after change.kind (locate root change.path)) ledger

def calls (ledger : Ledger) : List Change → List AdapterCall
  | [] => []
  | change :: changes =>
    (ledger.call? change.kind (locate root change.path)).toList ++
      calls (ledger.after change.kind (locate root change.path)) changes

def IsSound (ledger : Ledger) : Prop :=
  ∀ key id location, ledger.rows key = some (id, location) →
    ledger.records.get? id = some location

/-- A change of a location has been dealt with: what has appeared is mapped, what was modified is
mapped to a record of that location if it is mapped, and what is gone is not mapped. -/
def Settled (ledger : Ledger) (kind : ChangeKind) (location : String) : Prop :=
  match kind with
  | .created => ledger.rows (correlationId location) ≠ none
  | .modified => ∀ id found, ledger.rows (correlationId location) = some (id, found) →
      found = location
  | .deleted => ledger.rows (correlationId location) = none

variable {locate : String → String → String} {root : String} {ledger : Ledger}

@[simp] theorem rows_setRow (key other : String) (row : Option (String × String)) :
    (ledger.setRow key row).rows other = if other = key then row else ledger.rows other := rfl

theorem rows_enter_ne {key other : String} (hne : other ≠ key) (call : AdapterCall) :
    (ledger.enter key call).rows other = ledger.rows other := by
  cases call <;> exact if_neg hne

theorem rows_after_ne {kind : ChangeKind} {location key : String}
    (hne : key ≠ correlationId location) :
    (ledger.after kind location).rows key = ledger.rows key := by
  unfold after
  cases ledger.call? kind location with
  | none => rfl
  | some call => exact rows_enter_ne hne call

theorem Settled.after_ne {kind other : ChangeKind} {location changed : String}
    (hne : correlationId location ≠ correlationId changed) (h : ledger.Settled kind location) :
    (ledger.after other changed).Settled kind location := by
  have hrow := @rows_after_ne ledger other _ _ hne
  cases kind <;> simp only [Settled, hrow] at h ⊢ <;> exact h

theorem settled_after (ledger : Ledger) (kind : ChangeKind) (location : String) :
    (ledger.after kind location).Settled kind location := by
  unfold after call?
  cases kind with
  | created =>
    cases hrow : ledger.rows (correlationId location) with
    | none => simp [Settled, enter]
    | some row => simp [Settled, hrow]
  | modified =>
    cases hrow : ledger.rows (correlationId location) with
    | none => simp [Settled, hrow]
    | some row => simp [Settled, enter]
  | deleted =>
    cases hrow : ledger.rows (correlationId location) with
    | none => simp [Settled, hrow]
    | some row => simp [Settled, enter]

theorem after_of_settled (hsound : ledger.IsSound) {kind : ChangeKind} {location : String}
    (h : ledger.Settled kind location) :
    ledger.after kind location = ledger ∧
      ∀ call ∈ ledger.call? kind location, call.isUpdate = true := by
  unfold after call?
  cases kind with
  | created =>
    obtain ⟨row, hrow⟩ := Option.ne_none_iff_exists'.mp h
    rw [hrow]
    exact ⟨rfl, nofun⟩
  | deleted =>
    have hrow : ledger.rows (correlationId location) = none := h
    rw [hrow]
    exact ⟨rfl, nofun⟩
  | modified =>
    cases hrow : ledger.rows (correlationId location) with
    | none => exact ⟨rfl, nofun⟩
    | some row =>
      obtain ⟨id, found⟩ := row
      obtain rfl := h id found hrow
      -- The update writes what is already there: the row by `hrow`, the record because rows lead to
      -- live records.
      constructor
      · refine Ledger.ext ?_ (Table.ext_get? fun other => ?_) rfl
        · funext other
          simp only [enter, rows_setRow]
          split
          · rename_i hsame
            rw [hsame, hrow]
          · rfl
        · simp only [enter, Table.get?_insert]
          split
          · rename_i hsame
            rw [hsame, hsound _ id found hrow]
          · rfl
      · rintro _ ⟨⟩
        rfl

theorem call?_after_ne {kind other : ChangeKind} {location changed : String}
    (hne : correlationId location ≠ correlationId changed) :
    (ledger.after other changed).call? kind location = ledger.call? kind location := by
  simp only [call?, rows_after_ne hne]

section Calls

variable {kind : ChangeKind} {location other id : String}

/-- Calls that are not updates. -/
def lasting (calls : List AdapterCall) : List AdapterCall :=
  calls.filter fun call => !call.isUpdate

theorem lasting_append (calls more : List AdapterCall) :
    lasting (calls ++ more) = lasting calls ++ lasting more :=
  List.filter_append ..

theorem lasting_of_updates {calls : List AdapterCall} (h : ∀ call ∈ calls, call.isUpdate = true) :
    lasting calls = [] := by
  refine List.filter_eq_nil_iff.mpr ?_
  intro call hcall
  simp [h call hcall]

end Calls

section Changes

variable {first rest changes : List Change}

theorem afterAll_append (ledger : Ledger) (first rest : List Change) :
    ledger.afterAll locate root (first ++ rest) =
      (ledger.afterAll locate root first).afterAll locate root rest :=
  List.foldl_append

theorem issued_le_after (ledger : Ledger) (kind : ChangeKind) (location : String) :
    ledger.issued ≤ (ledger.after kind location).issued ∧
      (ledger.after kind location).issued ≤ ledger.issued + 1 := by
  unfold after
  cases ledger.call? kind location with
  | none => exact ⟨Nat.le_refl _, Nat.le_succ _⟩
  | some call =>
    cases call with
    | create => exact ⟨Nat.le_succ _, Nat.le_refl _⟩
    | update | delete => exact ⟨Nat.le_refl _, Nat.le_succ _⟩

theorem issued_le_afterAll (ledger : Ledger) (changes : List Change) :
    ledger.issued ≤ (ledger.afterAll locate root changes).issued ∧
      (ledger.afterAll locate root changes).issued ≤ ledger.issued + changes.length := by
  induction changes generalizing ledger with
  | nil => exact ⟨Nat.le_refl _, Nat.le_refl _⟩
  | cons change changes ih =>
    obtain ⟨hfirst, hnext⟩ := issued_le_after ledger change.kind (locate root change.path)
    obtain ⟨hrest, hlast⟩ := ih (ledger.after change.kind (locate root change.path))
    rw [List.length_cons]
    refine ⟨Nat.le_trans hfirst hrest, Nat.le_trans hlast ?_⟩
    omega

theorem calls_append (ledger : Ledger) (first rest : List Change) :
    ledger.calls locate root (first ++ rest) =
      ledger.calls locate root first ++
        (ledger.afterAll locate root first).calls locate root rest := by
  induction first generalizing ledger with
  | nil => rfl
  | cons change first ih =>
    rw [List.cons_append, calls, ih, calls, List.append_assoc]
    rfl

theorem Settled.afterAll_ne {kind : ChangeKind} {location : String}
    (h : ledger.Settled kind location)
    (hne : ∀ change ∈ changes, correlationId location ≠ keyOf locate root change) :
    (ledger.afterAll locate root changes).Settled kind location := by
  induction changes generalizing ledger with
  | nil => exact h
  | cons change changes ih =>
    exact ih (h.after_ne (hne change List.mem_cons_self)) fun other hother =>
      hne other (List.mem_cons_of_mem _ hother)

theorem settled_afterAll (ledger : Ledger) (hkeys : (changes.map (keyOf locate root)).Nodup)
    {change : Change} (hchange : change ∈ changes) :
    (ledger.afterAll locate root changes).Settled change.kind (locate root change.path) := by
  induction changes generalizing ledger with
  | nil => cases hchange
  | cons other changes ih =>
    obtain ⟨hnew, hrest⟩ := List.nodup_cons.mp hkeys
    rcases List.mem_cons.mp hchange with rfl | hlater
    · refine (settled_after ledger _ _).afterAll_ne ?_
      intro later hlater hsame
      exact hnew (List.mem_map.mpr ⟨later, hlater, hsame.symm⟩)
    · exact ih _ hrest hlater

theorem afterAll_of_settled (hsound : ledger.IsSound)
    (h : ∀ change ∈ changes, ledger.Settled change.kind (locate root change.path)) :
    ledger.afterAll locate root changes = ledger ∧
      ∀ call ∈ ledger.calls locate root changes, call.isUpdate = true := by
  induction changes with
  | nil => exact ⟨rfl, nofun⟩
  | cons change changes ih =>
    obtain ⟨hsame, hupdate⟩ := after_of_settled hsound (h change List.mem_cons_self)
    obtain ⟨hrest, hupdates⟩ := ih fun other hother => h other (List.mem_cons_of_mem _ hother)
    rw [afterAll, List.foldl_cons, hsame, calls, hsame]
    refine ⟨hrest, ?_⟩
    intro call hcall
    rcases List.mem_append.mp hcall with hcall | hcall
    · exact hupdate call (Option.mem_toList.mp hcall)
    · exact hupdates call hcall

/-- After all changes, some of them once more make no difference. -/
theorem afterAll_again (ledger : Ledger) (hkeys : (changes.map (keyOf locate root)).Nodup)
    (hsound : (ledger.afterAll locate root changes).IsSound) {part : List Change}
    (hpart : part ⊆ changes) :
    (ledger.afterAll locate root changes).afterAll locate root part =
        ledger.afterAll locate root changes ∧
      ∀ call ∈ (ledger.afterAll locate root changes).calls locate root part,
        call.isUpdate = true :=
  afterAll_of_settled hsound fun _ hchange => settled_afterAll ledger hkeys (hpart hchange)

theorem calls_eq_filterMap (ledger : Ledger) (hkeys : (changes.map (keyOf locate root)).Nodup) :
    ledger.calls locate root changes =
      changes.filterMap fun change => ledger.call? change.kind (locate root change.path) := by
  induction changes generalizing ledger with
  | nil => rfl
  | cons change changes ih =>
    obtain ⟨hnew, hrest⟩ := List.nodup_cons.mp hkeys
    have hlater : ∀ later ∈ changes,
        (ledger.after change.kind (locate root change.path)).call? later.kind
          (locate root later.path) = ledger.call? later.kind (locate root later.path) := by
      intro later hlater
      refine call?_after_ne fun hsame => ?_
      exact hnew (List.mem_map.mpr ⟨later, hlater, hsame⟩)
    rw [calls, ih _ hrest, List.filterMap_congr hlater, List.filterMap_cons]
    cases ledger.call? change.kind (locate root change.path) <;> rfl

/-- A beginning of the changes and then another one come to the longer of them, if one does not mind
that updates are repeated. -/
theorem afterAll_take_take (ledger : Ledger) (hkeys : (changes.map (keyOf locate root)).Nodup)
    (m n : Nat) (hsound : (ledger.afterAll locate root (changes.take m)).IsSound) :
    (ledger.afterAll locate root (changes.take m)).afterAll locate root (changes.take n) =
        ledger.afterAll locate root (changes.take (max m n)) ∧
      lasting (ledger.calls locate root (changes.take m) ++
          (ledger.afterAll locate root (changes.take m)).calls locate root (changes.take n)) =
        lasting (ledger.calls locate root (changes.take (max m n))) := by
  have htaken : ((changes.take m).map (keyOf locate root)).Nodup := by
    rw [List.map_take]
    exact hkeys.sublist (List.take_sublist _ _)
  -- The second part is within the first one, or goes on where the first one has ended.
  rcases Nat.le_total n m with hle | hle
  · have hpart : changes.take n ⊆ changes.take m := (List.take_prefix_take_left hle).subset
    obtain ⟨hsame, hupdates⟩ := afterAll_again ledger htaken hsound hpart
    rw [Nat.max_eq_left hle, lasting_append, lasting_of_updates hupdates, List.append_nil]
    exact ⟨hsame, rfl⟩
  · obtain ⟨hsame, hupdates⟩ := afterAll_again ledger htaken hsound (List.Subset.refl _)
    obtain ⟨rest, hrest⟩ := List.take_prefix_take_left hle
    rw [Nat.max_eq_right hle, ← hrest, afterAll_append, calls_append, hsame, afterAll_append,
      calls_append, lasting_append, lasting_append, lasting_append, lasting_of_updates hupdates]
    exact ⟨rfl, rfl⟩

end Changes

end Ledger

namespace Site

def ledger (site : Site) : Ledger where
  rows := fun key => (site.row? key).map fun row => (row.downstreamId, row.location)
  records := site.adapter.records
  issued := site.supply.issued

variable {site : Site}

theorem isSound_ledger (h : site.Mirrors) : site.ledger.IsSound := by
  intro key id location hrow
  obtain ⟨row, hfound, hentry⟩ := Option.map_eq_some_iff.mp hrow
  cases hentry
  exact (h.record_of_row key row hfound).2

theorem rows_ledger {key : String} {row? : Option Correlation} (hrow : site.row? key = row?) :
    site.ledger.rows key = row?.map fun row => (row.downstreamId, row.location) :=
  congrArg (Option.map _) hrow

theorem ledger_write_never (site : Site) (key : String) {wanted : Option Correlation}
    (htime : ∀ row, wanted = some row → row.recordedAt.IsValid) :
    (site.write never key wanted).2.ledger =
      site.ledger.setRow key (wanted.map fun row => (row.downstreamId, row.location)) := by
  refine Ledger.ext ?_ ?_ ?_
  · funext other
    rw [rows_ledger (row?_write_never site key htime other), Ledger.rows_setRow]
    split <;> rfl
  · exact congrArg RecordingAdapter.records (adapter_write never site key wanted)
  · exact congrArg UuidSupply.issued (supply_write never site key wanted)

/-- While adapter and map work, a call of the listener does to the site what it does to its
ledger. -/
theorem ledger_of_callback {location : String} {kind : ChangeKind}
    {answer : Outcome ListenerError Unit × Site} (h : site.Mirrors)
    (hbehavior : site.adapter.behavior = .succeed)
    (hstep : Callback never site location kind answer) :
    answer.2.ledger = site.ledger.after kind location ∧
      Calls site answer.2 (site.ledger.call? kind location).toList := by
  have hnone : Calls site site [] := (List.append_nil _).symm
  have hserved := served_of_callback h hbehavior hstep
  generalize answer.2 = after at hserved
  cases hserved with
  | known row hrow =>
    simp only [Ledger.after, Ledger.call?, rows_ledger hrow]
    exact ⟨rfl, hnone⟩
  | unknown _ hkind hrow =>
    cases kind with
    | created => exact absurd rfl hkind
    | modified | deleted =>
      simp only [Ledger.after, Ledger.call?, rows_ledger hrow]
      exact ⟨rfl, hnone⟩
  | created time htime hrow | updated row time htime hrow =>
    simp only [Ledger.after, Ledger.call?, rows_ledger hrow]
    refine ⟨?_, calls_write rfl⟩
    rw [ledger_write_never _ _ (isValid_of_some htime)]
    rfl
  | deleted row hrow =>
    simp only [Ledger.after, Ledger.call?, rows_ledger hrow]
    refine ⟨?_, calls_write rfl⟩
    rw [ledger_write_never _ _ isValid_of_none]
    rfl

end Site

end CatalogSync
