import CatalogSync.Proofs.Listener.Mirror

namespace CatalogSync

/-- The location of a resource that a call creates or updates. -/
def AdapterCall.location? : AdapterCall → Option String
  | create location => some location
  | update location _ => some location
  | delete _ => none

namespace Site

/-- What calls about other locations, and one about a location itself if it has changed, do about
that location: to the row under its key, and by calls to an adapter that always succeeds. -/
inductive Effect (location : String) (site after : Site) (calls : List AdapterCall) :
    Option ChangeKind → Prop where
  | untouched (kind? : Option ChangeKind)
      (hkind : kind? = none ∨ kind? = some .created ∧ site.row? (correlationId location) ≠ none ∨
        kind? = some .modified ∧ site.row? (correlationId location) = none)
      (hrow : after.row? (correlationId location) = site.row? (correlationId location))
      (hcalls : ∀ call ∈ calls, call.location? ≠ some location) :
      Effect location site after calls kind?
  | created (row : Correlation) (hrow : site.row? (correlationId location) = none)
      (hafter : after.row? (correlationId location) = some row)
      (hlocation : row.location = location) (hcall : .create location ∈ calls) :
      Effect location site after calls (some .created)
  | updated (row row' : Correlation) (hrow : site.row? (correlationId location) = some row)
      (hafter : after.row? (correlationId location) = some row')
      (hlocation : row'.location = location) (hid : row'.downstreamId = row.downstreamId)
      (hcall : .update location row.downstreamId ∈ calls) :
      Effect location site after calls (some .modified)
  | removed (hafter : after.row? (correlationId location) = none) :
      Effect location site after calls (some .deleted)

def Calls (site after : Site) (calls : List AdapterCall) : Prop :=
  after.adapter.calls = site.adapter.calls ++ calls

theorem calls_write {site middle : Site} {key : String} {wanted : Option Correlation}
    {calls : List AdapterCall} (h : Calls site middle calls) :
    Calls site (middle.write never key wanted).2 calls := by
  rw [Calls, adapter_write]
  exact h

/-- What a call comes to whose answers are mapped, by an adapter that does what it is asked. -/
inductive Served (site : Site) (location : String) : ChangeKind → Site → Prop where
  | known (row : Correlation) (hrow : site.row? (correlationId location) = some row) :
      Served site location .created site
  | unknown (kind : ChangeKind) (hkind : kind ≠ .created)
      (hrow : site.row? (correlationId location) = none) : Served site location kind site
  | created (time : Time.Timestamp) (htime : time.IsValid)
      (hrow : site.row? (correlationId location) = none) :
      Served site location .created
        (((site.note (.create location)).issue location).write never (correlationId location)
          (some ⟨site.nextId, location, time⟩)).2
  | updated (row : Correlation) (time : Time.Timestamp) (htime : time.IsValid)
      (hrow : site.row? (correlationId location) = some row)
      (hlive : site.record? row.downstreamId ≠ none) :
      Served site location .modified
        (((site.note (.update location row.downstreamId)).put row.downstreamId location).write never
          (correlationId location) (some ⟨row.downstreamId, location, time⟩)).2
  | deleted (row : Correlation) (hrow : site.row? (correlationId location) = some row)
      (hlive : site.record? row.downstreamId ≠ none) :
      Served site location .deleted
        (((site.note (.delete row.downstreamId)).drop row.downstreamId).write never
          (correlationId location) none).2

/-- Nothing is refused as long as rows lead to live records. -/
theorem served_of_callback {site : Site} {location : String} {kind : ChangeKind}
    {answer : Outcome ListenerError Unit × Site} (h : site.Mirrors)
    (hbehavior : site.adapter.behavior = .succeed)
    (hstep : Callback never site location kind answer) : Served site location kind answer.2 := by
  have hlive : ∀ row, site.row? (correlationId location) = some row →
      site.record? row.downstreamId ≠ none := by
    intro row hrow
    rw [(h.record_of_row _ row hrow).2]
    exact Option.some_ne_none _
  have hserves : ∀ behavior, behavior ≠ .succeed → site.adapter.behavior ≠ behavior := by
    rintro _ hother rfl
    exact hother hbehavior
  cases hstep with
  | known row hrow => exact .known row hrow
  | unknown _ hkind hrow => exact .unknown _ hkind hrow
  | refusedCreate _ hfailing => exact absurd hfailing (hserves _ nofun)
  | refusedUpdate row hrow hrefused | refusedDelete row hrow hrefused =>
    exact absurd hrefused (not_or.mpr ⟨hserves _ nofun, hlive row hrow⟩)
  | created time htime hrow => exact .created time htime hrow
  | updated row time htime hrow hlive => exact .updated row time htime hrow hlive
  | reissued _ _ _ _ _ hreissue => exact absurd hreissue (hserves _ nofun)
  | deleted row hrow hlive => exact .deleted row hrow hlive

theorem effect_of_callback {site : Site} {location : String} {kind : ChangeKind}
    {answer : Outcome ListenerError Unit × Site} (h : site.Mirrors)
    (hbehavior : site.adapter.behavior = .succeed)
    (hstep : Callback never site location kind answer) :
    ∃ calls, Calls site answer.2 calls ∧ Effect location site answer.2 calls (some kind) := by
  have hnone : Calls site site [] := (List.append_nil _).symm
  have hserved := served_of_callback h hbehavior hstep
  generalize answer.2 = after at hserved
  cases hserved with
  | known row hrow =>
    refine ⟨[], hnone, .untouched _ (Or.inr (Or.inl ⟨rfl, ?_⟩)) rfl nofun⟩
    rw [hrow]
    exact Option.some_ne_none _
  | unknown _ hkind hrow =>
    cases kind with
    | created => exact absurd rfl hkind
    | modified => exact ⟨[], hnone, .untouched _ (Or.inr (Or.inr ⟨rfl, hrow⟩)) rfl nofun⟩
    | deleted => exact ⟨[], hnone, .removed hrow⟩
  | created time htime hrow =>
    refine ⟨[.create location], calls_write rfl,
      .created ⟨site.nextId, location, time⟩ hrow ?_ rfl List.mem_cons_self⟩
    exact (row?_write_never _ _ (isValid_of_some htime) _).trans (if_pos rfl)
  | updated row time htime hrow =>
    refine ⟨[.update location row.downstreamId], calls_write rfl,
      .updated row ⟨row.downstreamId, location, time⟩ hrow ?_ rfl rfl List.mem_cons_self⟩
    exact (row?_write_never _ _ (isValid_of_some htime) _).trans (if_pos rfl)
  | deleted row hrow =>
    refine ⟨[.delete row.downstreamId], calls_write rfl, .removed ?_⟩
    exact (row?_write_never _ _ isValid_of_none _).trans (if_pos rfl)

theorem ok_of_callback_never {site : Site} {location : String} {kind : ChangeKind}
    {answer : Outcome ListenerError Unit × Site}
    (hstep : Callback never site location kind answer) :
    answer.1 = .ok () := by
  cases hstep <;> rfl

theorem calls_of_callback {site : Site} {location : String} {kind : ChangeKind}
    {answer : Outcome ListenerError Unit × Site}
    (hstep : Callback never site location kind answer) :
    ∃ calls, Calls site answer.2 calls ∧
      ∀ call ∈ calls, call.location? = none ∨ call.location? = some location := by
  cases hstep with
  | known | unknown =>
    refine ⟨[], (List.append_nil _).symm, ?_⟩
    intro call hcall
    cases hcall
  | refusedCreate => exact ⟨[.create location], rfl, by simp [AdapterCall.location?]⟩
  | refusedUpdate row =>
    exact ⟨[.update location row.downstreamId], rfl, by simp [AdapterCall.location?]⟩
  | refusedDelete row => exact ⟨[.delete row.downstreamId], rfl, by simp [AdapterCall.location?]⟩
  | created => exact ⟨[.create location], calls_write rfl, by simp [AdapterCall.location?]⟩
  | updated row | reissued row =>
    exact ⟨[.update location row.downstreamId], calls_write rfl, by simp [AdapterCall.location?]⟩
  | deleted row =>
    exact ⟨[.delete row.downstreamId], calls_write rfl, by simp [AdapterCall.location?]⟩

theorem effect_of_callback_ne {site : Site} {location other : String} {kind : ChangeKind}
    {answer : Outcome ListenerError Unit × Site}
    (hne : correlationId location ≠ correlationId other)
    (hstep : Callback never site other kind answer) :
    ∃ calls, Calls site answer.2 calls ∧ Effect location site answer.2 calls none := by
  obtain ⟨calls, hcalls, habout⟩ := calls_of_callback hstep
  refine ⟨calls, hcalls, .untouched none (Or.inl rfl) (row?_of_callback_ne hne hstep) ?_⟩
  intro call hcall hlocation
  rcases habout call hcall with hnone | hother
  · rw [hnone] at hlocation
    cases hlocation
  · rw [hother] at hlocation
    cases hlocation
    exact hne rfl

theorem Effect.refl {site : Site} {location : String} : Effect location site site [] none :=
  .untouched none (Or.inl rfl) rfl nofun

theorem Calls.append {site middle last : Site} {first rest : List AdapterCall}
    (hfirst : Calls site middle first) (hrest : Calls middle last rest) :
    Calls site last (first ++ rest) := by
  rw [Calls, hrest, hfirst, List.append_assoc]

theorem Effect.between {site before middle last : Site} {location : String}
    {first calls rest : List AdapterCall} {kind? : Option ChangeKind}
    (hfirst : Effect location site before first none)
    (h : Effect location before middle calls kind?)
    (hrest : Effect location middle last rest none) :
    Effect location site last (first ++ calls ++ rest) kind? := by
  cases hfirst with
  | untouched _ _ hbefore hquiet =>
  cases hrest with
  | untouched _ _ hlast hquiet' =>
  cases h with
  | untouched _ hkind hrow hcalls =>
    rw [hbefore] at hkind hrow
    refine .untouched _ hkind (hlast.trans hrow) ?_
    intro call hcall
    simp only [List.mem_append] at hcall
    rcases hcall with (hcall | hcall) | hcall
    · exact hquiet call hcall
    · exact hcalls call hcall
    · exact hquiet' call hcall
  | created row hrow hafter hlocation hcall =>
    exact .created row (hbefore ▸ hrow) (hlast.trans hafter) hlocation (by simp [hcall])
  | updated row row' hrow hafter hlocation hid hcall =>
    exact .updated row row' (hbefore ▸ hrow) (hlast.trans hafter) hlocation hid (by simp [hcall])
  | removed hafter => exact .removed (hlast.trans hafter)

end Site

end CatalogSync
