import CatalogSync.Proofs.Listener.Effect

namespace CatalogSync

structure Playback where
  state : RecordingAdapter.WithSupply
  /-- What the last creation at a location has answered. -/
  given : String → Option String

namespace Playback

def start : Playback :=
  ⟨(.start .succeed, .start), fun _ => none⟩

def next (playback : Playback) : AdapterCall → Playback
  | .create location =>
    let (answer, state) := RecordingAdapter.create location playback.state
    ⟨state, fun other => if other = location then answer.toOption else playback.given other⟩
  | .update location id =>
    { playback with state := (RecordingAdapter.update location id playback.state).2 }
  | .delete id =>
    { playback with
      state := ((RecordingAdapter.delete id playback.state.1).2, playback.state.2) }

def ofLog (log : List AdapterCall) : Playback :=
  log.foldl next start

theorem ofLog_concat (log : List AdapterCall) (call : AdapterCall) :
    ofLog (log ++ [call]) = (ofLog log).next call := by
  rw [ofLog, List.foldl_append]
  rfl

end Playback

def lastGiven? (log : List AdapterCall) (location : String) : Option String :=
  (Playback.ofLog log).given location

namespace Site

/-- The log of the adapter leads to where the adapter is, and rows are about some locations and hold
the ids that were given there last. -/
structure Logged (locations : Set String) (site : Site) : Prop where
  mirrors : site.Mirrors
  behavior : site.adapter.behavior = .succeed
  state : (Playback.ofLog site.adapter.calls).state = (site.adapter, site.supply)
  rows : ∀ key row, site.row? key = some row → row.location ∈ locations ∧
    lastGiven? site.adapter.calls row.location = some row.downstreamId

variable {locations : Set String} {site after : Site}

theorem logged_empty (locations : Set String) : Site.empty.Logged locations := by
  refine ⟨.empty, rfl, rfl, ?_⟩
  intro _ _ hrow
  cases hrow

theorem Logged.row_location (h : site.Logged locations)
    (hcollisions : Set.InjOn correlationId locations) {location : String}
    (hlocation : location ∈ locations) {row : Correlation}
    (hrow : site.row? (correlationId location) = some row) : row.location = location := by
  obtain ⟨hmem, -⟩ := h.rows _ row hrow
  exact hcollisions hmem hlocation (h.mirrors.record_of_row _ row hrow).1

theorem logged_of_call (h : site.Logged locations) (location : String) {call : AdapterCall}
    (row? : Option Correlation) (hmirrors : after.Mirrors)
    (hbehavior : after.adapter.behavior = .succeed)
    (hcalls : after.adapter.calls = site.adapter.calls ++ [call])
    (hstate : ((Playback.ofLog site.adapter.calls).next call).state =
      (after.adapter, after.supply))
    (hrows : ∀ key, after.row? key =
      if key = correlationId location then row? else site.row? key)
    (hnew : ∀ row, row? = some row → row.location ∈ locations ∧
      ((Playback.ofLog site.adapter.calls).next call).given row.location = some row.downstreamId)
    (hothers : ∀ other, correlationId other ≠ correlationId location →
      ((Playback.ofLog site.adapter.calls).next call).given other =
        lastGiven? site.adapter.calls other) : after.Logged locations := by
  refine ⟨hmirrors, hbehavior, ?_, ?_⟩
  · rw [hcalls, Playback.ofLog_concat, hstate]
  · intro key row hrow
    rw [lastGiven?, hcalls, Playback.ofLog_concat]
    rw [hrows] at hrow
    split at hrow
    · exact hnew row hrow
    · rename_i hkey
      obtain ⟨hlocation, hgiven⟩ := h.rows key row hrow
      rw [hothers _ fun hsame => hkey ?_]
      · exact ⟨hlocation, hgiven⟩
      · rw [← hsame, (h.mirrors.record_of_row key row hrow).1]

theorem logged_of_callback {location : String} {kind : ChangeKind}
    {answer : Outcome ListenerError Unit × Site} (hsite : site.WellFormed)
    (hcollisions : Set.InjOn correlationId locations) (hlocation : location ∈ locations)
    (h : site.Logged locations) (hstep : Callback never site location kind answer)
    (hfresh : answer.2.supply.IsFresh) : answer.2.Logged locations := by
  have hmirrors := mirrors_of_callback hsite h.mirrors hstep hfresh
  have hbehavior := (behavior_of_callback hstep).trans h.behavior
  have hserves : ∀ behavior, behavior ≠ .succeed → site.adapter.behavior ≠ behavior := by
    rintro _ hother rfl
    exact hother h.behavior
  have hserved := served_of_callback h.mirrors h.behavior hstep
  generalize answer.2 = after at hserved hmirrors hbehavior
  cases hserved with
  | known | unknown => exact h
  | created time htime hrow =>
    have hcreate : RecordingAdapter.create location (site.adapter, site.supply) =
        (.ok site.nextId, ((site.note (.create location)).issue location).adapter,
          ⟨site.supply.issued + 1⟩) := if_neg (hserves .failCreate nofun)
    refine logged_of_call h location (some ⟨site.nextId, location, time⟩) hmirrors hbehavior
      (calls_write rfl) ?_ ?_ ?_ ?_
    · rw [Playback.next, h.state, hcreate, adapter_write, supply_write]
      rfl
    · exact row?_write_never _ _ (isValid_of_some htime)
    · rintro _ ⟨⟩
      refine ⟨hlocation, ?_⟩
      rw [Playback.next, h.state, hcreate]
      exact if_pos rfl
    · intro other hother
      rw [Playback.next]
      exact if_neg fun hsame => hother (congrArg correlationId hsame)
  | updated row time htime hrow hlive =>
    have hsame := h.row_location hcollisions hlocation hrow
    refine logged_of_call h location (some ⟨row.downstreamId, location, time⟩) hmirrors hbehavior
      (calls_write rfl) ?_ ?_ ?_ ?_
    · rw [Playback.next, h.state, update_of_succeed location hlive (hserves _ nofun)
        (hserves _ nofun), adapter_write, supply_write]
      rfl
    · exact row?_write_never _ _ (isValid_of_some htime)
    · rintro _ ⟨⟩
      obtain ⟨-, hgiven⟩ := h.rows _ row hrow
      rw [hsame] at hgiven
      exact ⟨hlocation, hgiven⟩
    · intro other _
      rfl
  | deleted row hrow hlive =>
    refine logged_of_call h location none hmirrors hbehavior (calls_write rfl) ?_ ?_ ?_ ?_
    · rw [Playback.next, h.state, delete_of_succeed hlive (hserves _ nofun), adapter_write,
        supply_write]
      rfl
    · exact row?_write_never _ _ isValid_of_none
    · rintro _ ⟨⟩
    · intro other _
      rfl

end Site

end CatalogSync
