import CatalogSync.Proofs.Listener.Callback

namespace CatalogSync

/-- The row that is kept instead names a record that the adapter no longer has. -/
def LostWrite.IsHarmful (write : LostWrite) : Prop :=
  ∃ row, write.before.bind Correlation.decode? = some row ∧
    ∀ wanted, write.wanted.bind Correlation.decode? = some wanted →
      wanted.downstreamId ≠ row.downstreamId

namespace Site

def IsSound (site : Site) : Prop :=
  ∀ key row, site.row? key = some row → site.record? row.downstreamId ≠ none

def LostNoHarm (site : Site) : Prop :=
  ∀ write ∈ site.mappings.lost, ¬ write.IsHarmful

/-- The id was mapped under a key, and it is not what the key is to be mapped to. -/
def Leaves (site : Site) (key : String) (wanted : Option Correlation) (id : String) : Prop :=
  ∃ row, site.row? key = some row ∧ row.downstreamId = id ∧
    ∀ row', wanted = some row' → row'.downstreamId ≠ id

/-- The map is sound unless it has lost something that it should not have lost. Its ids have been
issued, each for one key. -/
structure Accounts (site : Site) : Prop where
  unique : ∀ key other row row', site.row? key = some row → site.row? other = some row' →
    row.downstreamId = row'.downstreamId → key = other
  issued : ∀ key row, site.row? key = some row →
    ∃ n < site.supply.issued, row.downstreamId = (UuidSupply.nth n).text
  sound_iff : site.IsSound ↔ site.LostNoHarm

variable {fails : Nat → Bool} {site middle : Site} {key : String} {wanted : Option Correlation}

/-- What the adapter has done before a write: it has taken the id away that the key leaves, and the
id that the key is to be mapped to is live, and the key's own one or new. -/
structure Prepares (site middle : Site) (key : String) (wanted : Option Correlation) : Prop where
  mappings : middle.mappings = site.mappings
  issued : site.supply.issued ≤ middle.supply.issued
  before : ∀ row, site.row? key = some row → site.record? row.downstreamId ≠ none
  live : ∀ other row, site.row? other = some row →
    (middle.record? row.downstreamId ≠ none ↔
      site.record? row.downstreamId ≠ none ∧ ¬ site.Leaves key wanted row.downstreamId)
  valid : ∀ row, wanted = some row → row.recordedAt.IsValid
  after : ∀ row, wanted = some row → middle.record? row.downstreamId ≠ none
  known : ∀ row, wanted = some row →
    (∃ row', site.row? key = some row' ∧ row'.downstreamId = row.downstreamId) ∨
      ∃ n < middle.supply.issued, site.supply.issued ≤ n ∧
        row.downstreamId = (UuidSupply.nth n).text

theorem isHarmful_lost_iff (hvalid : ∀ row, wanted = some row → row.recordedAt.IsValid) :
    (⟨key, site.mappings.memory.blobs.get? key, wanted.map Correlation.encode⟩ :
      LostWrite).IsHarmful ↔ ∃ id, site.Leaves key wanted id := by
  have hwanted : (wanted.map Correlation.encode).bind Correlation.decode? = wanted := by
    cases wanted with
    | none => rfl
    | some row => exact Correlation.decode?_encode (hvalid row rfl)
  rw [LostWrite.IsHarmful, hwanted]
  constructor
  · rintro ⟨row, hrow, hids⟩
    exact ⟨row.downstreamId, row, hrow, rfl, hids⟩
  · rintro ⟨_, row, hrow, rfl, hids⟩
    exact ⟨row, hrow, hids⟩

theorem Prepares.row? (h : Prepares site middle key wanted) (other : String) :
    middle.row? other = site.row? other := by
  rw [Site.row?, h.mappings, Site.row?]

/-- A lost write leaves the rows as they are. They stay sound if the lost write does no harm. -/
theorem accounts_of_lost (h : site.Accounts) (hprepares : Prepares site middle key wanted)
    (hfails : fails middle.mappings.writes = true) :
    (middle.write fails key wanted).2.Accounts := by
  have hrow : ∀ other, (middle.write fails key wanted).2.row? other = site.row? other := by
    intro other
    rw [row?_write fails middle key hprepares.valid, hfails, hprepares.row?]
    simp
  have hsound : (middle.write fails key wanted).2.IsSound ↔
      site.IsSound ∧ ¬ ∃ id, site.Leaves key wanted id := by
    constructor
    · intro hafter
      have hlive : ∀ other row, site.row? other = some row →
          site.record? row.downstreamId ≠ none ∧ ¬ site.Leaves key wanted row.downstreamId := by
        intro other row hother
        have hrecord := hafter other row ((hrow other).trans hother)
        rw [record?_write] at hrecord
        exact (hprepares.live other row hother).mp hrecord
      refine ⟨fun other row hother => (hlive other row hother).1, ?_⟩
      rintro ⟨_, row, hkey, rfl, hids⟩
      exact (hlive key row hkey).2 ⟨row, hkey, rfl, hids⟩
    · rintro ⟨hbefore, hleaves⟩ other row hother
      rw [hrow] at hother
      rw [record?_write]
      refine (hprepares.live other row hother).mpr ⟨hbefore other row hother, ?_⟩
      intro hleft
      exact hleaves ⟨_, hleft⟩
  refine ⟨?_, ?_, ?_⟩
  · intro other other' row row' hother hother'
    rw [hrow] at hother hother'
    exact h.unique other other' row row' hother hother'
  · intro other row hother
    rw [hrow] at hother
    obtain ⟨n, hn, hid⟩ := h.issued other row hother
    rw [supply_write]
    exact ⟨n, Nat.lt_of_lt_of_le hn hprepares.issued, hid⟩
  · rw [hsound, h.sound_iff, LostNoHarm, LostNoHarm, lost_write, if_pos hfails,
      List.forall_mem_append, List.forall_mem_singleton, hprepares.mappings,
      isHarmful_lost_iff hprepares.valid]

theorem Prepares.id_ne (h : Prepares site middle key wanted) (haccounts : site.Accounts)
    (hfresh : middle.supply.IsFresh) {other : String} {row row' : Correlation} (hkey : other ≠ key)
    (hrow : site.row? other = some row) (hwanted : wanted = some row') :
    row.downstreamId ≠ row'.downstreamId := by
  intro hsame
  rcases h.known row' hwanted with ⟨own, hown, hid⟩ | ⟨n, hn, hissued, hid⟩
  · exact hkey (haccounts.unique other key row own hrow hown (hsame.trans hid.symm))
  · obtain ⟨m, hm, hidm⟩ := haccounts.issued other row hrow
    exact hfresh m n (Nat.lt_of_lt_of_le hm hissued) hn (hidm.symm.trans (hsame.trans hid))

theorem Prepares.id_issued (h : Prepares site middle key wanted) (haccounts : site.Accounts)
    {row : Correlation} (hwanted : wanted = some row) :
    ∃ n < middle.supply.issued, row.downstreamId = (UuidSupply.nth n).text := by
  rcases h.known row hwanted with ⟨own, hown, hid⟩ | ⟨n, hn, -, hid⟩
  · obtain ⟨n, hn, hidn⟩ := haccounts.issued key own hown
    exact ⟨n, Nat.lt_of_lt_of_le hn h.issued, hid.symm.trans hidn⟩
  · exact ⟨n, hn, hid⟩

theorem accounts_of_written (h : site.Accounts) (hprepares : Prepares site middle key wanted)
    (hfresh : middle.supply.IsFresh) (hfails : fails middle.mappings.writes = false) :
    (middle.write fails key wanted).2.Accounts := by
  have hrow : ∀ other, (middle.write fails key wanted).2.row? other =
      if other = key then wanted else site.row? other := by
    intro other
    rw [row?_write fails middle key hprepares.valid, hfails, hprepares.row?]
    simp
  refine ⟨?_, ?_, ?_⟩
  · intro other other' row row' hother hother' hsame
    rw [hrow] at hother hother'
    split at hother <;> split at hother'
    · rename_i hkey hkey'
      rw [hkey, hkey']
    · rename_i hkey hkey'
      exact absurd hsame.symm (hprepares.id_ne h hfresh hkey' hother' hother)
    · rename_i hkey hkey'
      exact absurd hsame (hprepares.id_ne h hfresh hkey hother hother')
    · exact h.unique other other' row row' hother hother' hsame
  · intro other row hother
    rw [hrow] at hother
    rw [supply_write]
    split at hother
    · exact hprepares.id_issued h hother
    · obtain ⟨n, hn, hid⟩ := h.issued other row hother
      exact ⟨n, Nat.lt_of_lt_of_le hn hprepares.issued, hid⟩
  · have hlost : (middle.write fails key wanted).2.LostNoHarm ↔ site.LostNoHarm := by
      rw [LostNoHarm, LostNoHarm, lost_write, hfails, hprepares.mappings]
      simp
    rw [hlost, ← h.sound_iff]
    constructor
    · intro hafter other row hother
      by_cases hkey : other = key
      · exact hprepares.before row (hkey ▸ hother)
      · have hrecord := hafter other row (by rw [hrow, if_neg hkey, hother])
        rw [record?_write] at hrecord
        exact ((hprepares.live other row hother).mp hrecord).1
    · intro hbefore other row hother
      rw [hrow] at hother
      rw [record?_write]
      split at hother
      · exact hprepares.after row hother
      · rename_i hkey
        refine (hprepares.live other row hother).mpr ⟨hbefore other row hother, ?_⟩
        rintro ⟨own, hown, hid, -⟩
        exact hkey (h.unique other key row own hother hown hid.symm)

theorem accounts_of_write (h : site.Accounts) (hprepares : Prepares site middle key wanted)
    (hfresh : middle.supply.IsFresh) : (middle.write fails key wanted).2.Accounts := by
  cases hfails : fails middle.mappings.writes with
  | true => exact accounts_of_lost h hprepares hfails
  | false => exact accounts_of_written h hprepares hfresh hfails

theorem ne_nextId (h : site.Accounts) (hfresh : UuidSupply.IsFresh ⟨site.supply.issued + 1⟩)
    {other : String} {row : Correlation} (hrow : site.row? other = some row) :
    row.downstreamId ≠ site.nextId := by
  intro hsame
  obtain ⟨n, hn, hid⟩ := h.issued other row hrow
  exact hfresh n site.supply.issued hn (Nat.lt_succ_self _) (hid.symm.trans hsame)

theorem not_leaves_of_none (hrow : site.row? key = none) (id : String) :
    ¬ site.Leaves key wanted id := by
  rintro ⟨row, hkey, -⟩
  rw [hrow] at hkey
  cases hkey

theorem leaves_iff {row : Correlation} (hrow : site.row? key = some row) (id : String) :
    site.Leaves key wanted id ↔
      id = row.downstreamId ∧ ∀ row', wanted = some row' →
        row'.downstreamId ≠ row.downstreamId := by
  constructor
  · rintro ⟨row', hkey, rfl, hids⟩
    rw [hrow] at hkey
    cases hkey
    exact ⟨rfl, hids⟩
  · rintro ⟨rfl, hids⟩
    exact ⟨row, hrow, rfl, hids⟩

theorem before_of_row {row : Correlation} (hrow : site.row? key = some row)
    (hlive : site.record? row.downstreamId ≠ none) :
    ∀ row', site.row? key = some row' → site.record? row'.downstreamId ≠ none := by
  intro row' hrow'
  rw [hrow] at hrow'
  cases hrow'
  exact hlive

theorem live_drop_iff {row : Correlation} (hrow : site.row? key = some row)
    (hids : ∀ row', wanted = some row' → row'.downstreamId ≠ row.downstreamId)
    (call : AdapterCall) (id : String) :
    ((site.note call).drop row.downstreamId).record? id ≠ none ↔
      site.record? id ≠ none ∧ ¬ site.Leaves key wanted id := by
  rw [record?_drop, record?_note, leaves_iff hrow]
  split
  · rename_i hsame
    apply iff_of_false
    · exact fun hnone => hnone rfl
    · exact fun hleaves => hleaves.2 ⟨hsame, hids⟩
  · rename_i hother
    exact (and_iff_left fun hleft => hother hleft.1).symm

theorem prepares_created (h : site.Accounts) {location : String} {time : Time.Timestamp}
    (htime : time.IsValid) (hrow : site.row? (correlationId location) = none)
    (hfresh : UuidSupply.IsFresh ⟨site.supply.issued + 1⟩) :
    Prepares site ((site.note (.create location)).issue location) (correlationId location)
      (some ⟨site.nextId, location, time⟩) := by
  refine ⟨rfl, Nat.le_succ _, ?_, ?_, isValid_of_some htime, ?_, ?_⟩
  · intro row hkey
    rw [hrow] at hkey
    cases hkey
  · intro other row hother
    have hne : row.downstreamId ≠ (site.note (.create location)).nextId := ne_nextId h hfresh hother
    rw [record?_issue, if_neg hne, record?_note]
    exact (and_iff_left (not_leaves_of_none hrow _)).symm
  · rintro _ ⟨⟩
    rw [record?_issue]
    simp [nextId, note]
  · rintro _ ⟨⟩
    exact Or.inr ⟨site.supply.issued, Nat.lt_succ_self _, Nat.le_refl _, rfl⟩

theorem prepares_updated {location : String} {time : Time.Timestamp} (htime : time.IsValid)
    {row : Correlation} (hrow : site.row? (correlationId location) = some row)
    (hlive : site.record? row.downstreamId ≠ none) :
    Prepares site ((site.note (.update location row.downstreamId)).put row.downstreamId location)
      (correlationId location) (some ⟨row.downstreamId, location, time⟩) := by
  have hleaves : ∀ id, ¬ site.Leaves (correlationId location)
      (some ⟨row.downstreamId, location, time⟩) id := by
    intro id hleft
    exact ((leaves_iff hrow id).mp hleft).2 _ rfl rfl
  refine ⟨rfl, Nat.le_refl _, before_of_row hrow hlive, ?_, isValid_of_some htime, ?_, ?_⟩
  · intro other row' hother
    rw [record?_put, record?_note]
    split
    · rename_i hsame
      rw [hsame]
      exact iff_of_true (Option.some_ne_none _) ⟨hlive, hleaves _⟩
    · exact (and_iff_left (hleaves _)).symm
  · rintro _ ⟨⟩
    rw [record?_put, if_pos rfl]
    exact Option.some_ne_none _
  · rintro _ ⟨⟩
    exact Or.inl ⟨row, hrow, rfl⟩

theorem prepares_reissued (h : site.Accounts) {location : String} {time : Time.Timestamp}
    (htime : time.IsValid) {row : Correlation}
    (hrow : site.row? (correlationId location) = some row)
    (hlive : site.record? row.downstreamId ≠ none)
    (hfresh : UuidSupply.IsFresh ⟨site.supply.issued + 1⟩) :
    Prepares site
      (((site.note (.update location row.downstreamId)).drop row.downstreamId).issue location)
      (correlationId location) (some ⟨site.nextId, location, time⟩) := by
  refine ⟨rfl, Nat.le_succ _, before_of_row hrow hlive, ?_, isValid_of_some htime, ?_, ?_⟩
  · intro other row' hother
    have hne : row'.downstreamId ≠
        ((site.note (.update location row.downstreamId)).drop row.downstreamId).nextId :=
      ne_nextId h hfresh hother
    rw [record?_issue, if_neg hne]
    refine live_drop_iff hrow ?_ _ _
    rintro _ ⟨⟩
    exact (ne_nextId h hfresh hrow).symm
  · rintro _ ⟨⟩
    rw [record?_issue]
    simp [nextId, note, drop]
  · rintro _ ⟨⟩
    exact Or.inr ⟨site.supply.issued, Nat.lt_succ_self _, Nat.le_refl _, rfl⟩

theorem prepares_deleted {location : String} {row : Correlation}
    (hrow : site.row? (correlationId location) = some row)
    (hlive : site.record? row.downstreamId ≠ none) :
    Prepares site ((site.note (.delete row.downstreamId)).drop row.downstreamId)
      (correlationId location) none := by
  refine ⟨rfl, Nat.le_refl _, before_of_row hrow hlive, ?_, isValid_of_none, ?_, ?_⟩
  · intro other row' hother
    refine live_drop_iff hrow ?_ _ _
    intro _ hnone
    cases hnone
  · intro _ hnone
    cases hnone
  · intro _ hnone
    cases hnone

theorem accounts_note (h : site.Accounts) (call : AdapterCall) : (site.note call).Accounts :=
  ⟨h.unique, h.issued, h.sound_iff⟩

theorem accounts_of_callback {location : String} {kind : ChangeKind}
    {answer : Outcome ListenerError Unit × Site} (h : site.Accounts)
    (hstep : Callback fails site location kind answer) (hfresh : answer.2.supply.IsFresh) :
    answer.2.Accounts := by
  cases hstep with
  | known | unknown => exact h
  | refusedCreate | refusedUpdate | refusedDelete => exact accounts_note h _
  | created time htime hrow =>
    rw [supply_write] at hfresh
    exact accounts_of_write h (prepares_created h htime hrow hfresh) hfresh
  | updated row time htime hrow hlive =>
    rw [supply_write] at hfresh
    exact accounts_of_write h (prepares_updated htime hrow hlive) hfresh
  | reissued row time htime hrow hlive =>
    rw [supply_write] at hfresh
    exact accounts_of_write h (prepares_reissued h htime hrow hlive hfresh) hfresh
  | deleted row hrow hlive =>
    rw [supply_write] at hfresh
    exact accounts_of_write h (prepares_deleted hrow hlive) hfresh

end Site

end CatalogSync
