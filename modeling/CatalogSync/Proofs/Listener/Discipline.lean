import CatalogSync.Ingest.Scripted
import CatalogSync.Proofs.Listener.Desk
import Mathlib.Data.Set.Function

namespace CatalogSync

namespace Exchange

def latestId? (exchanges : List Exchange) : Option String :=
  exchanges.reverse.findSome? issued?

/-- What there has been since a record was deleted for the last time. -/
def sinceRemoved (exchanges : List Exchange) : List Exchange :=
  (exchanges.reverse.takeWhile fun exchange => !exchange.removes).reverse

def creates (exchange : Exchange) : Bool :=
  exchange.call.isCreate && exchange.issued?.isSome

/-- What a location is mapped to by the exchanges about it. -/
structure Tells (exchanges : List Exchange) (id? : Option String) : Prop where
  mapped_iff : id?.isSome = true ↔ ∃ exchange ∈ sinceRemoved exchanges, exchange.creates = true
  latest : ∀ id, id? = some id → latestId? exchanges = some id ∧ id ≠ ""

variable {exchanges : List Exchange} {exchange : Exchange} {id? : Option String}

theorem ne_empty_of_issued? {id : String} (hissued : exchange.issued? = some id) : id ≠ "" := by
  have hanswered : ∀ answer, answeredId? answer = some id → id ≠ "" := by
    intro answer hanswer
    cases answer with
    | ok other =>
      rw [answeredId?] at hanswer
      split at hanswer
      · cases hanswer
      · rename_i hsome
        cases hanswer
        exact fun hempty => hsome (hempty ▸ rfl)
    | error e => cases hanswer
    | panicked => cases hanswer
  cases exchange with
  | create location answer => exact hanswered answer hissued
  | update location id' answer => exact hanswered answer hissued
  | delete id' answer => cases hissued

theorem latestId?_concat (exchanges : List Exchange) (exchange : Exchange) :
    latestId? (exchanges ++ [exchange]) = exchange.issued?.or (latestId? exchanges) := by
  rw [latestId?, List.reverse_append, List.reverse_singleton, List.singleton_append,
    List.findSome?_cons]
  cases exchange.issued? <;> rfl

theorem sinceRemoved_concat (hkept : exchange.removes = false) (exchanges : List Exchange) :
    sinceRemoved (exchanges ++ [exchange]) = sinceRemoved exchanges ++ [exchange] := by
  rw [sinceRemoved, List.reverse_append, List.reverse_singleton, List.singleton_append,
    List.takeWhile_cons, hkept, Bool.not_false, if_pos rfl, List.reverse_cons]
  rfl

theorem sinceRemoved_concat_of_removes (hremoves : exchange.removes = true)
    (exchanges : List Exchange) : sinceRemoved (exchanges ++ [exchange]) = [] := by
  rw [sinceRemoved, List.reverse_append, List.reverse_singleton, List.singleton_append,
    List.takeWhile_cons, hremoves, Bool.not_true, if_neg Bool.false_ne_true]
  rfl

theorem tells_none (hnothing : sinceRemoved exchanges = []) : Tells exchanges none := by
  constructor
  · rw [hnothing]
    constructor
    · intro hmapped
      cases hmapped
    · rintro ⟨_, hmem, -⟩
      cases hmem
  · intro id hid
    cases hid

theorem issued?_of_creates (hcreates : exchange.creates = true) :
    exchange.issued?.isSome = true :=
  (Bool.and_eq_true_iff.mp hcreates).2

theorem creates_or_mapped {location : String} {kind : ChangeKind}
    (hdue : exchange.call ∈ AdapterCall.due location kind id?)
    (hissued : exchange.issued?.isSome = true) :
    exchange.creates = true ∨ id?.isSome = true := by
  cases exchange with
  | create location' answer => exact Or.inl hissued
  | update location' id' answer =>
    apply Or.inr
    cases id? with
    | some id => rfl
    | none => cases kind <;> simp [AdapterCall.due, call] at hdue
  | delete id' answer => cases hissued

theorem Tells.concat (h : Tells exchanges id?) {location : String} {kind : ChangeKind}
    (hdue : exchange.call ∈ AdapterCall.due location kind id?) :
    Tells (exchanges ++ [exchange]) (settle id? exchange) := by
  cases hremoves : exchange.removes with
  | true =>
    rw [settle, if_pos hremoves]
    exact tells_none (sinceRemoved_concat_of_removes hremoves exchanges)
  | false =>
    rw [settle, if_neg (Bool.eq_false_iff.mp hremoves)]
    constructor
    · rw [sinceRemoved_concat hremoves, Option.isSome_or, Bool.or_eq_true, h.mapped_iff]
      simp only [List.mem_append, List.mem_singleton, or_and_right, exists_or, exists_eq_left]
      constructor
      · rintro (hissued | hmapped)
        -- An update is due only if there has been a creation before it.
        · rcases creates_or_mapped hdue hissued with hcreates | hmapped
          · exact Or.inr hcreates
          · exact Or.inl (h.mapped_iff.mp hmapped)
        · exact Or.inl hmapped
      · rintro (hmapped | hcreates)
        · exact Or.inr hmapped
        · exact Or.inl (issued?_of_creates hcreates)
    · intro id hid
      rw [latestId?_concat]
      cases hissued : exchange.issued? with
      | some issued =>
        rw [hissued, Option.some_or] at hid
        cases hid
        exact ⟨rfl, ne_empty_of_issued? hissued⟩
      | none =>
        rw [hissued, Option.none_or] at hid
        exact h.latest id hid

end Exchange

/-- An exchange and the location that it was about. -/
structure Dealing where
  location : String
  exchange : Exchange

namespace Dealing

def about (location : String) (dealings : List Dealing) : List Exchange :=
  (dealings.filter fun dealing => dealing.location = location).map Dealing.exchange

theorem about_append (location : String) (dealings more : List Dealing) :
    about location (dealings ++ more) = about location dealings ++ about location more := by
  rw [about, List.filter_append, List.map_append]
  rfl

end Dealing

namespace Desk

open Dealing

variable {τ : Type}

structure Notification (τ : Type) where
  kind : ChangeKind
  resource : Resource
  content : Accessor (Desk τ)

section Run

variable (adapter : Adapter τ) (clock : Desk τ → Time.Timestamp)

def notify (desk : Desk τ) (notification : Notification τ) :
    Outcome ListenerError Unit × Desk τ :=
  handle adapter clock notification.kind notification.resource notification.content desk

def notifyAll (desk : Desk τ) (notifications : List (Notification τ)) : Desk τ :=
  notifications.foldl (fun desk notification => (notify adapter clock desk notification).2) desk

def dealings (desk : Desk τ) (notification : Notification τ) : List Dealing :=
  ((notify adapter clock desk notification).2.exchanges.drop
    desk.exchanges.length).map fun exchange =>
    ⟨notification.resource.location, exchange⟩

def history : Desk τ → List (Notification τ) → List Dealing
  | _, [] => []
  | desk, notification :: notifications =>
    dealings adapter clock desk notification ++
      history (notify adapter clock desk notification).2 notifications

/-- After some dealings, the listener finds what they tell, and whatever it is told next, it asks
what is due, breaks down only together with the adapter, and leaves other locations alone. -/
structure Disciplined (locations : Set String) (past : List Dealing) (desk : Desk τ) : Prop where
  maps : ∀ location ∈ locations, ∃ id?,
    (listener adapter clock).downstreamId (correlationId location) desk = (.ok id?, desk) ∧
      Exchange.Tells (about location past) id?
  next : ∀ notification : Notification τ, ∃ id? made,
    (listener adapter clock).downstreamId (correlationId notification.resource.location) desk =
        (.ok id?, desk) ∧
      (notify adapter clock desk notification).2.exchanges = desk.exchanges ++ made ∧
      made.map Exchange.call =
        AdapterCall.due notification.resource.location notification.kind id? ∧
      (notify adapter clock desk notification).1 =
        if made.any Exchange.isBreakdown then .panicked else .ok ()
  others : ∀ notification : Notification τ, notification.resource.location ∈ locations →
    ∀ other ∈ locations, other ≠ notification.resource.location →
      ((listener adapter clock).downstreamId (correlationId other)
          (notify adapter clock desk notification).2).1 =
        ((listener adapter clock).downstreamId (correlationId other) desk).1

end Run

structure Records (locations : Set String) (past : List Dealing) (desk : Desk τ) : Prop where
  sound : desk.Sound
  tells : ∀ location ∈ locations,
    Exchange.Tells (about location past) (desk.id? (correlationId location))

variable {adapter : Adapter τ} {clock : Desk τ → Time.Timestamp} {locations : Set String}
  {past : List Dealing} {desk : Desk τ}

theorem records_empty (downstream : τ) : Records locations [] (empty downstream) :=
  ⟨sound_empty downstream, fun _ _ => Exchange.tells_none rfl⟩

theorem about_dealings {notification : Notification τ} {made : List Exchange}
    (hmade : (notify adapter clock desk notification).2.exchanges = desk.exchanges ++ made)
    (location : String) :
    about location (dealings adapter clock desk notification) =
      if notification.resource.location = location then made else [] := by
  rw [dealings, hmade, List.drop_left, about, List.filter_map, List.map_map]
  split
  · rename_i hsame
    simp [Function.comp_def, hsame]
  · rename_i hother
    simp [Function.comp_def, hother]

theorem tells_settled {exchanges made : List Exchange} {id? : Option String} {location : String}
    {kind : ChangeKind} (h : Exchange.Tells exchanges id?)
    (hcalls : made.map Exchange.call = AdapterCall.due location kind id?) :
    Exchange.Tells (exchanges ++ made) (made.foldl Exchange.settle id?) := by
  have hone : (AdapterCall.due location kind id?).length ≤ 1 := by
    unfold AdapterCall.due
    split <;> simp
  cases made with
  | nil =>
    rw [List.append_nil]
    exact h
  | cons exchange more =>
    have hnothing : more = [] := by
      rw [← hcalls, List.length_map, List.length_cons] at hone
      exact List.length_eq_zero_iff.mp (by omega)
    subst hnothing
    apply h.concat
    rw [← hcalls]
    exact List.mem_singleton_self _

theorem records_notify (hclock : ∀ desk, (clock desk).IsValid)
    (hcollisions : Set.InjOn correlationId locations) (h : Records locations past desk)
    {notification : Notification τ} (hlocation : notification.resource.location ∈ locations) :
    Records locations (past ++ dealings adapter clock desk notification)
      (notify adapter clock desk notification).2 := by
  obtain ⟨made, hhandled⟩ := @exists_handled _ adapter clock _ hclock h.sound notification.kind
    notification.resource notification.content
  refine ⟨hhandled.sound, ?_⟩
  intro location hmember
  have hid : (notify adapter clock desk notification).2.id? (correlationId location) = _ :=
    hhandled.ids (correlationId location)
  rw [about_append, about_dealings hhandled.exchanges, hid]
  by_cases hsame : notification.resource.location = location
  · subst hsame
    rw [if_pos rfl, if_pos rfl]
    exact tells_settled (h.tells _ hlocation) hhandled.calls
  -- The map has changed under one key only, and that is the key of no other location.
  · have hkeys : correlationId location ≠ correlationId notification.resource.location := by
      intro hkeys
      exact hsame (hcollisions hmember hlocation hkeys).symm
    rw [if_neg hsame, if_neg hkeys, List.append_nil]
    exact h.tells location hmember

theorem records_notifyAll (hclock : ∀ desk, (clock desk).IsValid)
    (hcollisions : Set.InjOn correlationId locations) (h : Records locations past desk)
    (notifications : List (Notification τ))
    (hlocations : ∀ notification ∈ notifications, notification.resource.location ∈ locations) :
    Records locations (past ++ history adapter clock desk notifications)
      (notifyAll adapter clock desk notifications) := by
  induction notifications generalizing past desk with
  | nil =>
    rw [history, List.append_nil]
    exact h
  | cons notification notifications ih =>
    obtain ⟨hfirst, hrest⟩ := List.forall_mem_cons.mp hlocations
    rw [history, ← List.append_assoc]
    exact ih (records_notify hclock hcollisions h hfirst) hrest

theorem Records.disciplined (hclock : ∀ desk, (clock desk).IsValid)
    (hcollisions : Set.InjOn correlationId locations) (h : Records locations past desk) :
    Disciplined adapter clock locations past desk := by
  constructor
  · intro location hlocation
    exact ⟨_, downstreamId_listener h.sound _, h.tells location hlocation⟩
  · intro notification
    obtain ⟨made, hhandled⟩ := @exists_handled _ adapter clock _ hclock h.sound
      notification.kind notification.resource notification.content
    exact ⟨_, made, downstreamId_listener h.sound _, hhandled.exchanges, hhandled.calls,
      hhandled.reply⟩
  · intro notification hlocation other hmember hother
    obtain ⟨made, hhandled⟩ := @exists_handled _ adapter clock _ hclock h.sound
      notification.kind notification.resource notification.content
    have hkeys : correlationId other ≠ correlationId notification.resource.location := by
      intro hkeys
      exact hother (hcollisions hmember hlocation hkeys)
    have hsound : (notify adapter clock desk notification).2.Sound := hhandled.sound
    rw [downstreamId_listener h.sound, downstreamId_listener hsound]
    have hid : (notify adapter clock desk notification).2.id? (correlationId other) = _ :=
      hhandled.ids (correlationId other)
    rw [hid, if_neg hkeys]

/-- Whatever the listener has been told and whatever the adapter has answered, an id, an empty id,
an error or nothing at all, the listener is disciplined afterwards, provided that no two locations
have the same digest. -/
theorem every_history_is_disciplined (adapter : Adapter τ) (clock : Desk τ → Time.Timestamp)
    (hclock : ∀ desk, (clock desk).IsValid) (hcollisions : Set.InjOn correlationId locations)
    (downstream : τ) (notifications : List (Notification τ))
    (hlocations : ∀ notification ∈ notifications, notification.resource.location ∈ locations) :
    Disciplined adapter clock locations
      (history adapter clock (empty downstream) notifications)
      (notifyAll adapter clock (empty downstream) notifications) := by
  have hrecords := @records_notifyAll _ adapter clock _ _ _ hclock hcollisions
    (records_empty downstream) notifications hlocations
  rw [List.nil_append] at hrecords
  exact hrecords.disciplined hclock hcollisions

def atEpoch : Desk τ → Time.Timestamp := fun _ => ⟨0, 0⟩

theorem isValid_atEpoch (desk : Desk τ) : (atEpoch desk).IsValid := by
  have hepoch : (⟨0, 0⟩ : Time.Timestamp).IsValid := ⟨by decide, Or.inl (by decide)⟩
  exact hepoch

def moody : ScriptedAdapter :=
  .start [.ok "", .ok "1", .panicked, .error (.rejected ""), .ok "2", .ok ""]

def moodily : List (Notification ScriptedAdapter) :=
  [(.created, "a"), (.created, "a"), (.created, "b"), (.modified, "a"), (.modified, "a"),
    (.modified, "b"), (.deleted, "a")].map fun (kind, location) =>
      ⟨kind, ⟨location, Table.empty⟩, .unavailable location⟩

theorem moody_history_is_disciplined :
    Disciplined (ScriptedAdapter.adapter Part.whole) atEpoch { location | location ∈ ["a", "b"] }
        (history (ScriptedAdapter.adapter Part.whole) atEpoch (empty moody) moodily)
        (notifyAll (ScriptedAdapter.adapter Part.whole) atEpoch (empty moody) moodily) ∧
      (history (ScriptedAdapter.adapter Part.whole) atEpoch (empty moody) moodily).map
          (fun dealing => dealing.exchange) =
        [.create "a" (.ok ""), .create "a" (.ok "1"), .create "b" .panicked,
          .update "a" "1" (.error (.rejected "")), .update "a" "1" (.ok "2"),
          .delete "2" (.ok ())] := by
  refine ⟨?_, by decide +kernel⟩
  apply every_history_is_disciplined _ atEpoch isValid_atEpoch
  · have hdigests : (["a", "b"].map correlationId).Nodup := by
      decide +kernel
    intro _ hone _ hother
    exact List.inj_on_of_nodup_map hdigests hone hother
  · decide +kernel

end Desk

end CatalogSync
