import CatalogSync.Proofs.Catalog.Shelf

/-!
Calls of a catalog that may be cut off. Whenever a call stops, between its steps or within the
writing of a draft, every id stands for what it stood for before or for what the call makes of it,
and never for anything in between.
-/

namespace CatalogSync.DirectoryCatalog

/-- A call for an identifier that the catalog issues, or has issued. -/
inductive Call where
  | create (uuid : Uuid) (record : Record)
  | update (uuid : Uuid) (record : Record)
  | delete (uuid : Uuid)

namespace Call

def uuid : Call → Uuid
  | create uuid _ => uuid
  | update uuid _ => uuid
  | delete uuid => uuid

/-- What the id stands for once the call has taken effect. -/
def effect : Call → Option Record
  | create uuid record => some { record with id := some uuid.text }
  | update uuid record => some { record with id := some uuid.text }
  | delete _ => none

/-- What the call asks for is there. -/
def Finds (shelf : Uuid → Option Record) : Call → Prop
  | create _ _ => True
  | update uuid _ => (shelf uuid).isSome
  | delete uuid => (shelf uuid).isSome

def IsStorable : Call → Prop
  | create _ record => record.IsStorable
  | update _ record => record.IsStorable
  | delete _ => True

/-- The call up to its end. The answer tells whether it succeeds. -/
def run (catalog : DirectoryCatalog) : Call → Disk → Bool × Disk
  | create uuid record, disk =>
    let (answer, disk) := catalog.createAs uuid record disk
    (answer.isOk, disk)
  | update uuid record, disk =>
    let (answer, disk) := catalog.update uuid.text record disk
    (answer.isOk, disk)
  | delete uuid, disk =>
    let (answer, disk) := catalog.delete uuid.text disk
    (answer.isOk, disk)

/-- The steps in which the call changes the disk. -/
def steps (catalog : DirectoryCatalog) : Call → Disk → List DiskStep
  | create uuid record, _ =>
    writeSteps (catalog.recordFile uuid) { record with id := some uuid.text }
  | update uuid record, disk =>
    match disk.node? (catalog.recordFile uuid) with
    | .ok _ => writeSteps (catalog.recordFile uuid) { record with id := some uuid.text }
    | .error _ => []
  | delete uuid, _ => [.remove (catalog.recordFile uuid)]

theorem id_of_effect {call : Call} {record : Record} (h : call.effect = some record) :
    record.id = some call.uuid.text := by
  cases call with
  | create _ _ =>
    obtain rfl := Option.some.inj h
    rfl
  | update _ _ =>
    obtain rfl := Option.some.inj h
    rfl
  | delete _ => cases h

theorem run_eq_runAll (catalog : DirectoryCatalog) (call : Call) (disk : Disk) :
    (call.run catalog disk).2 = (DiskStep.runAll (call.steps catalog disk) disk).2 := by
  have hread : ∀ uuid : Uuid, catalog.recordPath uuid.text = .ok (catalog.recordFile uuid) := by
    intro uuid
    simp only [recordPath, Uuid.ofText?_text]
  cases call with
  | create uuid record =>
    simp only [run, steps, createAs, bind, StateT.bind, write_eq]
    generalize DiskStep.runAll (writeSteps _ _) disk = result
    obtain ⟨answer, disk'⟩ := result
    cases answer <;> rfl
  | update uuid record =>
    simp only [run, steps, DirectoryCatalog.update, hread, write_eq]
    cases disk.node? (catalog.recordFile uuid) with
    | error e => cases e <;> rfl
    | ok node =>
      simp only
      generalize DiskStep.runAll (writeSteps _ _) disk = result
      obtain ⟨answer, disk'⟩ := result
      cases answer <;> rfl
  | delete uuid =>
    simp only [run, steps, DirectoryCatalog.delete, hread]
    generalize DiskStep.runAll [.remove (catalog.recordFile uuid)] disk = result
    obtain ⟨answer, disk'⟩ := result
    cases answer with
    | ok _ => rfl
    | error e => cases e <;> rfl

end Call

/-- How a call ends: by itself, or after some of its steps, because of a crash or of an error that
makes it fail. The writing that is under way then may have left any bytes behind. -/
inductive Ending where
  | returned
  | cutOff (count : Nat) (torn : Option Bytes)

structure Event where
  call : Call
  ending : Ending

/-- What is left of steps of which the first `count` have been done and the next one is under
way. -/
def cutOff (steps : List DiskStep) (count : Nat) (torn : Option Bytes) (disk : Disk) : Disk :=
  let begun := (DiskStep.runAll (steps.take count) disk).2
  match torn, steps.drop count with
  | some bytes, .write path _ :: _ => ((DiskStep.write path bytes).run begun).2
  | _, _ => begun

theorem Call.run_eq_cutOff (catalog : DirectoryCatalog) (call : Call) (disk : Disk) :
    (call.run catalog disk).2 =
      cutOff (call.steps catalog disk) (call.steps catalog disk).length none disk := by
  rw [run_eq_runAll]
  simp only [cutOff, List.take_length]

namespace Event

def after (catalog : DirectoryCatalog) (disk : Disk) (event : Event) : Disk :=
  match event.ending with
  | .returned => (event.call.run catalog disk).2
  | .cutOff count torn => cutOff (event.call.steps catalog disk) count torn disk

/-- The call has come to its end and succeeded. -/
def Succeeds (catalog : DirectoryCatalog) (disk : Disk) (event : Event) : Prop :=
  event.ending = .returned ∧ (event.call.run catalog disk).1 = true

end Event

/-- The disk after a history. -/
def diskAfter (catalog : DirectoryCatalog) (start : Disk) (events : List Event) : Disk :=
  events.foldl (Event.after catalog) start

theorem diskAfter_cons (catalog : DirectoryCatalog) (start : Disk) (event : Event)
    (events : List Event) : diskAfter catalog start (event :: events) =
      diskAfter catalog (event.after catalog start) events := rfl

theorem diskAfter_append (catalog : DirectoryCatalog) (start : Disk) (earlier later : List Event) :
    diskAfter catalog start (earlier ++ later) =
      diskAfter catalog (diskAfter catalog start earlier) later :=
  List.foldl_append

section Steps

variable {catalog : DirectoryCatalog} {start disk : Disk} {place : List Bytes}
  {shelf : Uuid → Option Record}
  (hstart : start.resolve true (Bytes.ofText catalog.dir) = .ok (place, some (.directory [])))
  (hroom : ∀ uuid, (catalog.recordFile uuid).length ≤ Path.maxLength)
  (h : Keeps start place shelf disk)
include hstart hroom h

/-- Wherever the writing of a record is cut off, the record is there or what was there before. -/
theorem keeps_cutOff_writeSteps (uuid : Uuid) (record : Record) (count : Nat)
    (torn : Option Bytes) :
    let left := cutOff (writeSteps (catalog.recordFile uuid) record) count torn disk
    Keeps start place shelf left ∨
      Keeps start place (Function.update shelf uuid (some record)) left := by
  rw [writeSteps_recordFile]
  have hcases := writeSteps_cases hstart hroom h uuid record
  -- Only the draft can be torn; once it has been renamed both steps are done.
  match count with
  | 0 =>
    left
    cases torn with
    | none => exact h
    | some bytes => exact keeps_draft hstart h uuid bytes
  | 1 =>
    left
    have hbegun : cutOff [.write (catalog.draftFile uuid) record.encodePretty,
        .rename (catalog.draftFile uuid) (catalog.recordFile uuid)] 1 torn disk =
        (DiskStep.runAll [.write (catalog.draftFile uuid) record.encodePretty] disk).2 := by
      cases torn <;> rfl
    rw [hbegun]
    obtain ⟨drafted, -, hwrite, hkeeps, -⟩ | ⟨-, e, hwrite⟩ := hcases
    · rwa [DiskStep.runAll_of_ok hwrite, DiskStep.runAll_nil]
    · rwa [DiskStep.runAll_of_error hwrite]
  | count + 2 =>
    have hdone : cutOff [.write (catalog.draftFile uuid) record.encodePretty,
        .rename (catalog.draftFile uuid) (catalog.recordFile uuid)] (count + 2) torn disk =
        (DiskStep.runAll [.write (catalog.draftFile uuid) record.encodePretty,
          .rename (catalog.draftFile uuid) (catalog.recordFile uuid)] disk).2 := by
      cases torn <;> simp [cutOff]
    rw [hdone]
    obtain ⟨drafted, written, hwrite, -, hrename, hkeeps⟩ | ⟨-, e, hwrite⟩ := hcases
    · right
      rwa [DiskStep.runAll_of_ok hwrite, DiskStep.runAll_of_ok hrename, DiskStep.runAll_nil]
    · left
      rwa [DiskStep.runAll_of_error hwrite]

theorem keeps_cutOff_remove (uuid : Uuid) (count : Nat) (torn : Option Bytes) :
    let left := cutOff [.remove (catalog.recordFile uuid)] count torn disk
    Keeps start place shelf left ∨ Keeps start place (Function.update shelf uuid none) left := by
  match count with
  | 0 =>
    left
    cases torn <;> exact h
  | count + 1 =>
    have hdone : cutOff [.remove (catalog.recordFile uuid)] (count + 1) torn disk =
        (DiskStep.runAll [.remove (catalog.recordFile uuid)] disk).2 := by
      cases torn <;> simp [cutOff]
    rw [hdone]
    cases hshelf : shelf uuid with
    | none =>
      left
      rwa [DiskStep.runAll_of_error (remove_of_none hstart hroom h hshelf)]
    | some record =>
      right
      have hsome : (shelf uuid).isSome := by rw [hshelf]; rfl
      obtain ⟨disk', hremove, hkeeps⟩ := remove_of_some hstart hroom h hsome
      rwa [DiskStep.runAll_of_ok hremove, DiskStep.runAll_nil]

/-- A call that returns has its effect if it succeeds, and none if it does not. It fails only if it
asks for a record that is not there, or has no room for the path of the draft. -/
theorem run_cases (call : Call) :
    (call.Finds shelf ∧ ∃ disk', call.run catalog disk = (true, disk') ∧
      Keeps start place (Function.update shelf call.uuid call.effect) disk') ∨
    (¬call.Finds shelf ∨ Path.maxLength < (catalog.draftFile call.uuid).length) ∧
      call.run catalog disk = (false, disk) := by
  cases call with
  | create uuid record =>
    obtain ⟨disk', hcreate, hkeeps⟩ | ⟨hlong, e, hcreate⟩ :=
      createAs_cases hstart hroom h uuid record
    · exact .inl ⟨trivial, disk', by rw [Call.run, hcreate]; rfl, hkeeps⟩
    · exact .inr ⟨.inr hlong, by rw [Call.run, hcreate]; rfl⟩
  | update uuid record =>
    have hid := Uuid.ofText?_text uuid
    rw [Call.Finds]
    cases hshelf : shelf uuid with
    | none =>
      have hupdate := update_of_none hstart hroom h hid hshelf record
      exact .inr ⟨.inl nofun, by rw [Call.run, hupdate]; rfl⟩
    | some _ =>
      obtain ⟨disk', hupdate, hkeeps⟩ | ⟨hlong, e, hupdate⟩ :=
        update_cases hstart hroom h hid (by rw [hshelf]; rfl) record
      · exact .inl ⟨rfl, disk', by rw [Call.run, hupdate]; rfl, hkeeps⟩
      · exact .inr ⟨.inr hlong, by rw [Call.run, hupdate]; rfl⟩
  | delete uuid =>
    have hid := Uuid.ofText?_text uuid
    rw [Call.Finds]
    cases hshelf : shelf uuid with
    | none =>
      have hdelete := delete_of_none hstart hroom h hid hshelf
      exact .inr ⟨.inl nofun, by rw [Call.run, hdelete]; rfl⟩
    | some _ =>
      obtain ⟨disk', hdelete, hkeeps⟩ := delete_of_some hstart hroom h hid (by rw [hshelf]; rfl)
      exact .inl ⟨rfl, disk', by rw [Call.run, hdelete]; rfl, hkeeps⟩

theorem keeps_cutOff (call : Call) (count : Nat) (torn : Option Bytes) :
    let left := cutOff (call.steps catalog disk) count torn disk
    Keeps start place shelf left ∨
      Keeps start place (Function.update shelf call.uuid call.effect) left := by
  cases call with
  | create uuid record => exact keeps_cutOff_writeSteps hstart hroom h uuid _ count torn
  | update uuid record =>
    rw [Call.steps]
    split
    · exact keeps_cutOff_writeSteps hstart hroom h uuid _ count torn
    · left
      cases torn <;> simpa [cutOff, DiskStep.runAll_nil] using h
  | delete uuid => exact keeps_cutOff_remove hstart hroom h uuid count torn

/-- However a call ends, it has its effect, or it has none and has not succeeded. -/
theorem keeps_after (event : Event) :
    Keeps start place (Function.update shelf event.call.uuid event.call.effect)
        (event.after catalog disk) ∨
      ¬event.Succeeds catalog disk ∧ Keeps start place shelf (event.after catalog disk) := by
  obtain ⟨call, ending⟩ := event
  cases ending with
  | returned =>
    by_cases hsucceeds : (call.run catalog disk).1 = true
    · obtain ⟨-, disk', hrun, hkeeps⟩ | ⟨-, hrun⟩ := run_cases hstart hroom h call
      · left
        rwa [Event.after, hrun]
      · rw [hrun] at hsucceeds
        cases hsucceeds
    · -- What a call leaves that fails it could leave as well if it were cut off.
      rw [Event.after, Call.run_eq_cutOff]
      obtain hkept | hdone := keeps_cutOff hstart hroom h call _ none
      · exact .inr ⟨fun hreturned => hsucceeds hreturned.2, hkept⟩
      · exact .inl hdone
  | cutOff count torn =>
    obtain hkept | hdone := keeps_cutOff hstart hroom h call count torn
    · exact .inr ⟨nofun, hkept⟩
    · exact .inl hdone

end Steps

section History

/-- Every id stands for the same as before, or for what one of the calls has made of it. -/
def Follows (events : List Event) (shelf shelf' : Uuid → Option Record) : Prop :=
  ∀ uuid, shelf' uuid = shelf uuid ∨
    ∃ event ∈ events, event.call.uuid = uuid ∧ event.call.effect = shelf' uuid

variable {catalog : DirectoryCatalog} {start disk : Disk} {place : List Bytes}
  {shelf shelf' shelf'' : Uuid → Option Record} {events later : List Event} {event : Event}

theorem Follows.refl (events : List Event) (shelf : Uuid → Option Record) :
    Follows events shelf shelf :=
  fun _ => .inl rfl

theorem Follows.trans (h : Follows events shelf shelf') (h' : Follows later shelf' shelf'') :
    Follows (events ++ later) shelf shelf'' := by
  intro uuid
  obtain hlater | ⟨event, hevent, huuid, heffect⟩ := h' uuid
  · obtain hevents | ⟨event, hevent, huuid, heffect⟩ := h uuid
    · exact .inl (hlater.trans hevents)
    · exact .inr ⟨event, List.mem_append_left _ hevent, huuid, heffect.trans hlater.symm⟩
  · exact .inr ⟨event, List.mem_append_right _ hevent, huuid, heffect⟩

theorem follows_update (event : Event) (shelf : Uuid → Option Record) :
    Follows [event] shelf (Function.update shelf event.call.uuid event.call.effect) := by
  intro uuid
  by_cases huuid : event.call.uuid = uuid
  · subst huuid
    exact .inr ⟨event, List.mem_singleton_self _, rfl, by rw [Function.update_self]⟩
  · exact .inl (Function.update_of_ne (Ne.symm huuid) ..)

theorem Follows.eq_of_no_call (h : Follows events shelf shelf') {uuid : Uuid}
    (hnone : ∀ event ∈ events, event.call.uuid ≠ uuid) : shelf' uuid = shelf uuid := by
  obtain hsame | ⟨event, hevent, huuid, -⟩ := h uuid
  · exact hsame
  · exact absurd huuid (hnone event hevent)

theorem Follows.isStorable (h : Follows events (fun _ => none) shelf)
    (hstorable : ∀ event ∈ events, event.call.IsStorable) {uuid : Uuid} {record : Record}
    (hrecord : shelf uuid = some record) : record.IsStorable := by
  obtain hsame | ⟨⟨call, ending⟩, hevent, -, heffect⟩ := h uuid
  · rw [hsame] at hrecord
    cases hrecord
  · have hcall := hstorable _ hevent
    rw [hrecord] at heffect
    cases call with
    | create _ _ =>
      obtain rfl := Option.some.inj heffect
      exact hcall
    | update _ _ =>
      obtain rfl := Option.some.inj heffect
      exact hcall
    | delete _ => cases heffect

section Shelves

variable (hstart : start.resolve true (Bytes.ofText catalog.dir) =
  .ok (place, some (.directory [])))
  (hroom : ∀ uuid, (catalog.recordFile uuid).length ≤ Path.maxLength)
include hstart hroom

theorem exists_shelf_after (h : Keeps start place shelf disk) (events : List Event) :
    ∃ shelf', Keeps start place shelf' (diskAfter catalog disk events) ∧
      Follows events shelf shelf' := by
  induction events generalizing shelf disk with
  | nil => exact ⟨shelf, h, .refl [] shelf⟩
  | cons event events ih =>
    obtain hdone | ⟨-, hkept⟩ := keeps_after hstart hroom h event
    · obtain ⟨shelf', hkeeps, hfollows⟩ := ih hdone
      exact ⟨shelf', hkeeps, (follows_update event shelf).trans hfollows⟩
    · obtain ⟨shelf', hkeeps, hfollows⟩ := ih hkept
      exact ⟨shelf', hkeeps, (Follows.refl [event] shelf).trans hfollows⟩

section Reading

variable (h : Keeps start place shelf disk) (hfollows : Follows events (fun _ => none) shelf)
  (hstorable : ∀ event ∈ events, event.call.IsStorable)
include h hfollows hstorable

theorem get?_text (uuid : Uuid) : catalog.get? disk uuid.text = .ok (shelf uuid) := by
  have hid := Uuid.ofText?_text uuid
  cases hshelf : shelf uuid with
  | none => exact get?_of_none hstart hroom h hid hshelf
  | some record =>
    exact get?_of_some hstart hroom h hid hshelf (hfollows.isStorable hstorable hshelf)

theorem exists_whole (uuid : Uuid) : ∃ found, catalog.get? disk uuid.text = .ok found ∧
    ∀ record ∈ found, record.id = some uuid.text ∧
      ∃ event ∈ events, event.call.uuid = uuid ∧ event.call.effect = some record := by
  refine ⟨shelf uuid, get?_text hstart hroom h hfollows hstorable uuid, ?_⟩
  intro record hrecord
  obtain hsame | ⟨event, hevent, rfl, heffect⟩ := hfollows uuid
  · rw [hsame] at hrecord
    cases hrecord
  · have hgiven := heffect.trans hrecord
    exact ⟨Call.id_of_effect hgiven, event, hevent, rfl, hgiven⟩

theorem exists_listed : ∃ ids, catalog.ids disk = .ok ids ∧
    ids.Pairwise (fun a b => Text.before a b = true) ∧
    ∀ id, id ∈ ids ↔ ∃ (uuid : Uuid) (record : Record), id = uuid.text ∧
      catalog.get? disk id = .ok (some record) := by
  have hget := get?_text hstart hroom h hfollows hstorable
  obtain ⟨ids, hids, hascending, hmem⟩ := exists_ids hstart h
  refine ⟨ids, hids, hascending, ?_⟩
  intro id
  rw [hmem]
  refine exists_congr fun uuid => ?_
  constructor
  · rintro ⟨rfl, hshelf⟩
    obtain ⟨record, hrecord⟩ := Option.isSome_iff_exists.mp hshelf
    exact ⟨record, rfl, by rw [hget, hrecord]⟩
  · rintro ⟨record, rfl, hrecord⟩
    rw [hget] at hrecord
    exact ⟨rfl, by rw [Except.ok.inj hrecord]; rfl⟩

theorem get?_after_of_ne (hevent : event.call.IsStorable) {uuid : Uuid}
    (hne : uuid ≠ event.call.uuid) :
    catalog.get? (event.after catalog disk) uuid.text = catalog.get? disk uuid.text := by
  have hwhole : ∀ other ∈ events ++ [event], other.call.IsStorable :=
    List.forall_mem_append.mpr ⟨hstorable, List.forall_mem_singleton.mpr hevent⟩
  rw [get?_text hstart hroom h hfollows hstorable]
  obtain hdone | ⟨-, hkept⟩ := keeps_after hstart hroom h event
  · have hdoes := hfollows.trans (follows_update event shelf)
    rw [get?_text hstart hroom hdone hdoes hwhole, Function.update_of_ne hne]
  · have hdoes := hfollows.trans (.refl [event] shelf)
    rw [get?_text hstart hroom hkept hdoes hwhole]

theorem get?_after_event (hevents : ∀ other ∈ event :: later, other.call.IsStorable)
    (hlater : ∀ other ∈ later, other.call.uuid ≠ event.call.uuid) :
    let left := diskAfter catalog (event.after catalog disk) later
    catalog.get? left event.call.uuid.text = .ok event.call.effect ∨
      ¬event.Succeeds catalog disk ∧
        catalog.get? left event.call.uuid.text = catalog.get? disk event.call.uuid.text := by
  have hwhole := List.forall_mem_append.mpr ⟨hstorable, hevents⟩
  obtain hdone | ⟨hfails, hkept⟩ := keeps_after hstart hroom h event
  · left
    obtain ⟨shelf', hkeeps, hdoes⟩ := exists_shelf_after hstart hroom hdone later
    have hall := hfollows.trans ((follows_update event shelf).trans hdoes)
    rw [get?_text hstart hroom hkeeps hall hwhole, hdoes.eq_of_no_call hlater, Function.update_self]
  · right
    obtain ⟨shelf', hkeeps, hdoes⟩ := exists_shelf_after hstart hroom hkept later
    have hall := hfollows.trans ((Follows.refl [event] shelf).trans hdoes)
    refine ⟨hfails, ?_⟩
    rw [get?_text hstart hroom hkeeps hall hwhole, hdoes.eq_of_no_call hlater,
      get?_text hstart hroom h hfollows hstorable]

end Reading

end Shelves

theorem run_succeeds_iff (hvacant : catalog.IsVacant start)
    (hdraft : ∀ uuid, (catalog.draftFile uuid).length ≤ Path.maxLength) (events : List Event)
    (hstorable : ∀ event ∈ events, event.call.IsStorable) (call : Call) :
    (call.run catalog (diskAfter catalog start events)).1 = true ↔
      call.Finds fun uuid =>
        (catalog.get? (diskAfter catalog start events) uuid.text).toOption.join := by
  obtain ⟨place, hstart⟩ := exists_place hvacant.readDirectory_eq
  have hroom := hvacant.hasRoom
  obtain ⟨shelf, hkeeps, hfollows⟩ := exists_shelf_after hstart hroom (keeps_start hstart) events
  simp only [get?_text hstart hroom hkeeps hfollows hstorable, Except.toOption, Option.join_some]
  obtain ⟨hfinds, disk', hrun, -⟩ | ⟨hfails, hrun⟩ := run_cases hstart hroom hkeeps call
  · exact iff_of_true (by rw [hrun]) hfinds
  · have hnot := hfails.resolve_right (Nat.not_lt.mpr (hdraft call.uuid))
    exact iff_of_false (by rw [hrun]; exact Bool.false_ne_true) hnot

/-- What holds of a history of calls, however each of them has ended. -/
structure IsAllOrNothing (catalog : DirectoryCatalog) (start : Disk) (events : List Event) :
    Prop where
  /-- Every id stands for nothing, or for a whole record with this id that one of its calls was
  given. -/
  whole : ∀ uuid : Uuid, ∃ found,
    catalog.get? (diskAfter catalog start events) uuid.text = .ok found ∧
    ∀ record ∈ found, record.id = some uuid.text ∧
      ∃ event ∈ events, event.call.uuid = uuid ∧ event.call.effect = some record
  /-- The ids that are listed are those that stand for a record, each once and in ascending
  order. -/
  listed : ∃ ids, catalog.ids (diskAfter catalog start events) = .ok ids ∧
    ids.Pairwise (fun a b => Text.before a b = true) ∧
    ∀ id, id ∈ ids ↔ ∃ (uuid : Uuid) (record : Record), id = uuid.text ∧
      catalog.get? (diskAfter catalog start events) id = .ok (some record)
  /-- A call changes nothing for other ids. -/
  others_kept : ∀ earlier event later, events = earlier ++ event :: later →
    ∀ uuid : Uuid, uuid ≠ event.call.uuid →
      catalog.get? (event.after catalog (diskAfter catalog start earlier)) uuid.text =
        catalog.get? (diskAfter catalog start earlier) uuid.text
  /-- Until the next call for the id, it stands for what the call has made of it. Only if the call
  has failed or has been cut off it may stand for what it stood for before. -/
  effect_or_kept : ∀ earlier event later, events = earlier ++ event :: later →
    (∀ other ∈ later, other.call.uuid ≠ event.call.uuid) →
      catalog.get? (diskAfter catalog start events) event.call.uuid.text = .ok event.call.effect ∨
      ¬event.Succeeds catalog (diskAfter catalog start earlier) ∧
        catalog.get? (diskAfter catalog start events) event.call.uuid.text =
          catalog.get? (diskAfter catalog start earlier) event.call.uuid.text

/-- In a directory that was empty, all calls are all or nothing: a crash or an error may cut each of
them off after any step, and even within the writing of a draft. -/
theorem every_history_is_all_or_nothing (hvacant : catalog.IsVacant start) (events : List Event)
    (hstorable : ∀ event ∈ events, event.call.IsStorable) :
    IsAllOrNothing catalog start events := by
  obtain ⟨place, hstart⟩ := exists_place hvacant.readDirectory_eq
  have hroom := hvacant.hasRoom
  have hshelves := exists_shelf_after hstart hroom (keeps_start hstart)
  obtain ⟨shelf, hkeeps, hfollows⟩ := hshelves events
  constructor
  case whole => exact exists_whole hstart hroom hkeeps hfollows hstorable
  case listed => exact exists_listed hstart hroom hkeeps hfollows hstorable
  case others_kept =>
    rintro earlier event later rfl uuid hne
    obtain ⟨hearlier, hevents⟩ := List.forall_mem_append.mp hstorable
    obtain ⟨shelf', hkeeps', hfollows'⟩ := hshelves earlier
    exact get?_after_of_ne hstart hroom hkeeps' hfollows' hearlier
      (List.forall_mem_cons.mp hevents).1 hne
  case effect_or_kept =>
    rintro earlier event later rfl hlater
    obtain ⟨hearlier, hevents⟩ := List.forall_mem_append.mp hstorable
    obtain ⟨shelf', hkeeps', hfollows'⟩ := hshelves earlier
    rw [diskAfter_append, diskAfter_cons]
    exact get?_after_event hstart hroom hkeeps' hfollows' hearlier hevents hlater

/-- A creation that was cut off while its draft was written leaves nothing that the next one would
stumble over. -/
theorem torn_draft_is_passed_over :
    let record : Record := ⟨none, Table.empty.insert "title" (.str "first")⟩
    let torn : Event := ⟨.create ⟨7⟩ record, .cutOff 0 (some (Bytes.ofText "\x7b"))⟩
    let again : Event := ⟨.create ⟨7⟩ record, .returned⟩
    get? ⟨"/c"⟩ (diskAfter ⟨"/c"⟩ (Disk.start "/" "/c") [torn, again]) (Uuid.text ⟨7⟩) =
      .ok (some { record with id := some (Uuid.text ⟨7⟩) }) := by
  intro record torn again
  obtain ⟨hvacant, hdraft⟩ := isVacant_spare
  have hrecord : record.IsStorable := by
    intro entry hentry
    obtain rfl := List.mem_singleton.mp hentry
    exact .str "first"
  have hstorable : ∀ event ∈ [torn, again], event.call.IsStorable := by
    simp [torn, again, Call.IsStorable, hrecord]
  have hbegun : ∀ event ∈ [torn], event.call.IsStorable := by
    simp [torn, Call.IsStorable, hrecord]
  have hsucceeds := (run_succeeds_iff hvacant hdraft [torn] hbegun (.create ⟨7⟩ record)).mpr trivial
  have hhistory := every_history_is_all_or_nothing hvacant [torn, again] hstorable
  obtain heffect | ⟨hfails, -⟩ := hhistory.effect_or_kept [torn] again [] rfl nofun
  · exact heffect
  · exact absurd ⟨rfl, hsucceeds⟩ hfails

end History

end CatalogSync.DirectoryCatalog
