import CatalogSync.Proofs.Catalog.Shelf

namespace CatalogSync

namespace DirectoryCatalog

/-- A call with any id. Creation comes with the identifier that is drawn for it. -/
inductive Request where
  | create (uuid : Uuid) (record : Record)
  | update (id : String) (record : Record)
  | get (id : String)
  | delete (id : String)

namespace Request

/-- The id of the record that the request would change. -/
def target? : Request → Option String
  | update id _ => some id
  | delete id => some id
  | _ => none

end Request

/-- The disk, and the ids that were issued for the records on it. -/
structure Session where
  disk : Disk
  issued : List String

namespace Session

/-- The session once a call has been answered; `onSuccess` is what becomes of the issued ids if it
has succeeded. -/
def answered {α : Type} (session : Session) (onSuccess : α → List String) :
    Except IngestError α × Disk → Option IngestError × Session
  | (.ok value, disk) => (none, ⟨disk, onSuccess value⟩)
  | (.error e, disk) => (some e, ⟨disk, session.issued⟩)

/-- Serves a request. The ids of created records are issued, and no longer those of deleted ones. -/
def serve (catalog : DirectoryCatalog) (session : Session) : Request → Option IngestError × Session
  | .create uuid record =>
    session.answered (fun id => id :: session.issued) (catalog.createAs uuid record session.disk)
  | .update id record =>
    session.answered (fun _ => session.issued) (catalog.update id record session.disk)
  | .get id =>
    session.answered (fun _ => session.issued) (catalog.get? session.disk id, session.disk)
  | .delete id =>
    session.answered (fun _ => session.issued.filter (· ≠ id)) (catalog.delete id session.disk)

theorem serve_get (catalog : DirectoryCatalog) (session : Session) (id : String) :
    (session.serve catalog (.get id)).2 = session := by
  rw [serve]
  cases catalog.get? session.disk id <;> rfl

def after (catalog : DirectoryCatalog) (start : Disk) (requests : List Request) : Session :=
  requests.foldl (fun session request => (session.serve catalog request).2) ⟨start, []⟩

end Session

/-- A request that is turned down and changes nothing. -/
def IsTurnedDown (catalog : DirectoryCatalog) (session : Session) (request : Request) : Prop :=
  ∃ reason, session.serve catalog request = (some (.rejected reason), session)

/-- The file of an identifier is there. -/
def IsStored (catalog : DirectoryCatalog) (disk : Disk) (uuid : Uuid) : Prop :=
  ∃ content, disk.contentOf (catalog.recordFile uuid) = .ok content

/-- A session keeps a shelf whose identifiers have been issued, and whose records have ids that are
read as the identifiers that they stand for. -/
structure IsSound (start : Disk) (place : List Bytes) (shelf : Uuid → Option Record)
    (session : Session) : Prop where
  keeps : Keeps start place shelf session.disk
  issued_text : ∀ id ∈ session.issued, ∃ uuid : Uuid, id = uuid.text
  issued_of_shelf : ∀ uuid, (shelf uuid).isSome → uuid.text ∈ session.issued
  id_reads : ∀ uuid record, shelf uuid = some record →
    ∃ id, record.id = some id ∧ Uuid.ofText? id = some uuid

section Serving

variable {catalog : DirectoryCatalog} {start : Disk} {place : List Bytes}
  {shelf : Uuid → Option Record} {session : Session} {request : Request} {uuid : Uuid} {id : String}
  (hstart : start.resolve true (Bytes.ofText catalog.dir) = .ok (place, some (.directory [])))
  (hroom : ∀ uuid, (catalog.recordFile uuid).length ≤ Path.maxLength)

include hstart in
theorem isSound_start : IsSound start place (fun _ => none) ⟨start, []⟩ :=
  ⟨keeps_start hstart, nofun, nofun, nofun⟩

theorem IsSound.update {disk' : Disk} {record : Record} {issued : List String}
    (h : IsSound start place shelf session) (hid : Uuid.ofText? id = some uuid)
    (hkeeps : Keeps start place (Function.update shelf uuid (some { record with id := some id }))
      disk')
    (htext : ∀ id ∈ issued, ∃ uuid : Uuid, id = uuid.text)
    (hmono : ∀ id ∈ session.issued, id ∈ issued) (hissued : uuid.text ∈ issued) :
    IsSound start place (Function.update shelf uuid (some { record with id := some id }))
      ⟨disk', issued⟩ := by
  refine ⟨hkeeps, htext, ?_, ?_⟩
  · intro other hother
    by_cases hsame : other = uuid
    · rwa [hsame]
    · rw [Function.update_of_ne hsame] at hother
      exact hmono _ (h.issued_of_shelf other hother)
  · intro other stored hstored
    by_cases hsame : other = uuid
    · subst hsame
      rw [Function.update_self] at hstored
      obtain rfl := Option.some.inj hstored
      exact ⟨id, rfl, hid⟩
    · rw [Function.update_of_ne hsame] at hstored
      exact h.id_reads other stored hstored

/-- The records of a shelf after a request: those before, those under their issued ids, and one
under the id that the request gives for a record that is there. -/
def Request.Leads (request : Request) (shelf shelf' : Uuid → Option Record) : Prop :=
  ∀ uuid record, shelf' uuid = some record → shelf uuid = some record ∨
    record.id = some uuid.text ∨ ∃ id ∈ request.target?, Uuid.ofText? id = some uuid ∧
      (shelf uuid).isSome ∧ record.id = some id

theorem Request.leads_self (request : Request) (shelf : Uuid → Option Record) :
    request.Leads shelf shelf :=
  fun _ _ hrecord => .inl hrecord

theorem Request.leads_update {record : Record} (h : record.id = some uuid.text ∨
      ∃ id ∈ request.target?, Uuid.ofText? id = some uuid ∧ (shelf uuid).isSome ∧
        record.id = some id) :
    request.Leads shelf (Function.update shelf uuid (some record)) := by
  intro other stored hstored
  by_cases hsame : other = uuid
  · subst hsame
    rw [Function.update_self] at hstored
    obtain rfl := Option.some.inj hstored
    exact .inr h
  · rw [Function.update_of_ne hsame] at hstored
    exact .inl hstored

theorem eq_some_of_update_none {other : Uuid} {record : Record}
    (h : Function.update shelf uuid none other = some record) :
    other ≠ uuid ∧ shelf other = some record := by
  by_cases hsame : other = uuid
  · rw [hsame, Function.update_self] at h
    cases h
  · rw [Function.update_of_ne hsame] at h
    exact ⟨hsame, h⟩

theorem IsSound.erase {disk' : Disk} (h : IsSound start place shelf session)
    (hid : Uuid.ofText? id = some uuid)
    (hkeeps : Keeps start place (Function.update shelf uuid none) disk') :
    IsSound start place (Function.update shelf uuid none)
      ⟨disk', session.issued.filter (· ≠ id)⟩ := by
  refine ⟨hkeeps, ?_, ?_, ?_⟩
  · exact fun text htext => h.issued_text text (List.mem_of_mem_filter htext)
  · intro other hother
    obtain ⟨record, hrecord⟩ := Option.isSome_iff_exists.mp hother
    obtain ⟨hne, hshelf⟩ := eq_some_of_update_none hrecord
    refine List.mem_filter.mpr ⟨h.issued_of_shelf other (by rw [hshelf]; rfl), decide_eq_true ?_⟩
    rintro rfl
    rw [Uuid.ofText?_text] at hid
    exact hne (Option.some.inj hid)
  · intro other record hrecord
    exact h.id_reads other record (eq_some_of_update_none hrecord).2

include hstart hroom

theorem isStored_iff {disk : Disk} (h : Keeps start place shelf disk) :
    catalog.IsStored disk uuid ↔ (shelf uuid).isSome := by
  cases hshelf : shelf uuid with
  | none =>
    refine iff_of_false ?_ nofun
    rintro ⟨content, hcontent⟩
    rw [contentOf_of_none hstart hroom h hshelf] at hcontent
    cases hcontent
  | some record => exact iff_of_true ⟨_, contentOf_of_some hstart hroom h hshelf⟩ rfl

/-- A request for a change is turned down exactly if its id is read as that of no record. -/
theorem isTurnedDown_iff (h : Keeps start place shelf session.disk) (hid : id ∈ request.target?) :
    catalog.IsTurnedDown session request ↔
      ∀ uuid, Uuid.ofText? id = some uuid → shelf uuid = none := by
  constructor
  · rintro ⟨reason, hserve⟩ uuid hread
    by_contra hshelf
    have hsome := Option.isSome_iff_ne_none.mpr hshelf
    cases request with
    | update _ record =>
      obtain rfl := Option.some.inj hid
      obtain ⟨disk', hupdate, -⟩ | ⟨-, e, hupdate⟩ := update_cases hstart hroom h hread hsome record
      · rw [Session.serve, hupdate] at hserve
        cases hserve
      · rw [Session.serve, hupdate] at hserve
        cases hserve
    | delete _ =>
      obtain rfl := Option.some.inj hid
      obtain ⟨disk', hdelete, -⟩ := delete_of_some hstart hroom h hread hsome
      rw [Session.serve, hdelete] at hserve
      cases hserve
    | _ => cases hid
  · intro hnone
    cases request with
    | update given record =>
      obtain rfl : given = id := Option.some.inj hid
      cases hread : Uuid.ofText? given with
      | none => exact ⟨_, by rw [Session.serve, update_of_unread hread]; rfl⟩
      | some uuid =>
        have hupdate := update_of_none hstart hroom h hread (hnone uuid hread) record
        exact ⟨_, by rw [Session.serve, hupdate]; rfl⟩
    | delete given =>
      obtain rfl : given = id := Option.some.inj hid
      cases hread : Uuid.ofText? given with
      | none => exact ⟨_, by rw [Session.serve, delete_of_unread hread]; rfl⟩
      | some uuid =>
        have hdelete := delete_of_none hstart hroom h hread (hnone uuid hread)
        exact ⟨_, by rw [Session.serve, hdelete]; rfl⟩
    | _ => cases hid

theorem exists_of_not_isTurnedDown (h : Keeps start place shelf session.disk)
    (hid : id ∈ request.target?) (hdown : ¬catalog.IsTurnedDown session request) :
    ∃ uuid, Uuid.ofText? id = some uuid ∧ (shelf uuid).isSome := by
  rw [isTurnedDown_iff hstart hroom h hid] at hdown
  simpa [Option.isSome_iff_ne_none] using hdown

theorem exists_sound_serve (h : IsSound start place shelf session) (request : Request) :
    ∃ shelf', IsSound start place shelf' (session.serve catalog request).2 ∧
      request.Leads shelf shelf' := by
  by_cases hdown : catalog.IsTurnedDown session request
  · obtain ⟨reason, hserve⟩ := hdown
    exact ⟨shelf, by rwa [hserve], request.leads_self shelf⟩
  cases request with
  | create uuid record =>
    obtain ⟨disk', hcreate, hkeeps⟩ | ⟨-, e, hcreate⟩ :=
      createAs_cases hstart hroom h.keeps uuid record
    · have htexts := List.forall_mem_cons.mpr ⟨⟨uuid, rfl⟩, h.issued_text⟩
      have hsound := h.update (Uuid.ofText?_text uuid) hkeeps htexts
        (fun _ => List.mem_cons_of_mem _) List.mem_cons_self
      exact ⟨_, by rw [Session.serve, hcreate]; exact hsound, Request.leads_update (.inl rfl)⟩
    · exact ⟨shelf, by rw [Session.serve, hcreate]; exact h, Request.leads_self _ shelf⟩
  | get id => exact ⟨shelf, by rwa [Session.serve_get], Request.leads_self _ shelf⟩
  | update id record =>
    obtain ⟨uuid, hread, hsome⟩ := exists_of_not_isTurnedDown hstart hroom h.keeps rfl hdown
    obtain ⟨disk', hupdate, hkeeps⟩ | ⟨-, e, hupdate⟩ :=
      update_cases hstart hroom h.keeps hread hsome record
    · have hsound := h.update hread hkeeps h.issued_text (fun _ hmem => hmem)
        (h.issued_of_shelf uuid hsome)
      exact ⟨_, by rw [Session.serve, hupdate]; exact hsound,
        Request.leads_update (.inr ⟨id, rfl, hread, hsome, rfl⟩)⟩
    · exact ⟨shelf, by rw [Session.serve, hupdate]; exact h, Request.leads_self _ shelf⟩
  | delete id =>
    obtain ⟨uuid, hread, hsome⟩ := exists_of_not_isTurnedDown hstart hroom h.keeps rfl hdown
    obtain ⟨disk', hdelete, hkeeps⟩ := delete_of_some hstart hroom h.keeps hread hsome
    refine ⟨_, by rw [Session.serve, hdelete]; exact h.erase hread hkeeps, ?_⟩
    exact fun other record hrecord => .inl (eq_some_of_update_none hrecord).2

end Serving

section History

/-- Whoever changes a record spells its id as it was issued. -/
def IsSpelledAsIssued (catalog : DirectoryCatalog) (start : Disk) (requests : List Request) :
    Prop :=
  ∀ earlier request later, requests = earlier ++ request :: later → ∀ id ∈ request.target?,
    ∀ uuid, Uuid.ofText? id = some uuid →
      catalog.IsStored (Session.after catalog start earlier).disk uuid → id = uuid.text

/-- Only issued ids reach files. -/
structure IsKeptToIssued (catalog : DirectoryCatalog) (start : Disk) (requests : List Request) :
    Prop where
  /-- A change of a record is turned down, and nothing is changed, if the id has not been issued for
  one that is there. -/
  strangers_turned_down : ∀ earlier request later, requests = earlier ++ request :: later →
    ∀ id ∈ request.target?, id ∉ (Session.after catalog start earlier).issued →
      catalog.IsTurnedDown (Session.after catalog start earlier) request
  /-- Every file of an identifier holds a record with that id. -/
  names_match : ∀ (uuid : Uuid) content,
    (Session.after catalog start requests).disk.contentOf (catalog.recordFile uuid) = .ok content →
      ∃ record : Record, content = record.encodePretty ∧ record.id = some uuid.text
  /-- Every id that is listed is that of a record, which it finds. -/
  listed_found : ∃ ids, catalog.ids (Session.after catalog start requests).disk = .ok ids ∧
    ∀ id ∈ ids, ∃ (uuid : Uuid) (record : Record), id = uuid.text ∧ record.id = some id ∧
      (Session.after catalog start requests).disk.contentOf (catalog.recordFile uuid) =
        .ok record.encodePretty ∧
      (record.IsStorable →
        catalog.get? (Session.after catalog start requests).disk id = .ok (some record))

variable {catalog : DirectoryCatalog} {start : Disk} {place : List Bytes}
  {requests earlier : List Request} {request : Request}

theorem after_append (catalog : DirectoryCatalog) (start : Disk) (earlier : List Request)
    (request : Request) : Session.after catalog start (earlier ++ [request]) =
      ((Session.after catalog start earlier).serve catalog request).2 := by
  rw [Session.after, List.foldl_append]
  rfl

theorem IsSpelledAsIssued.of_append (h : IsSpelledAsIssued catalog start (earlier ++ [request])) :
    IsSpelledAsIssued catalog start earlier := by
  rintro before asked later rfl
  exact h before asked (later ++ [request]) (by simp)

variable (hstart : start.resolve true (Bytes.ofText catalog.dir) =
  .ok (place, some (.directory [])))
  (hroom : ∀ uuid, (catalog.recordFile uuid).length ≤ Path.maxLength)
include hstart hroom

theorem exists_sound_after (requests : List Request) :
    ∃ shelf, IsSound start place shelf (Session.after catalog start requests) ∧
      (IsSpelledAsIssued catalog start requests →
        ∀ uuid record, shelf uuid = some record → record.id = some uuid.text) := by
  induction requests using List.reverseRecOn with
  | nil => exact ⟨_, isSound_start hstart, fun _ => nofun⟩
  | append_singleton earlier request ih =>
    -- From the end, since the spelling of an id is judged by the session before its request.
    obtain ⟨shelf, hsound, hnames⟩ := ih
    obtain ⟨shelf', hsound', hleads⟩ := exists_sound_serve hstart hroom hsound request
    refine ⟨shelf', by rwa [after_append], fun hspelled uuid record hrecord => ?_⟩
    obtain hbefore | hissued | ⟨id, hid, hread, hsome, hrecordId⟩ := hleads uuid record hrecord
    · exact hnames hspelled.of_append uuid record hbefore
    · exact hissued
    · have hstored := (isStored_iff hstart hroom hsound.keeps).mpr hsome
      rw [hrecordId, hspelled earlier request [] rfl id hid uuid hread hstored]

theorem isKeptToIssued_iff :
    IsKeptToIssued catalog start requests ↔ IsSpelledAsIssued catalog start requests := by
  constructor
  · intro hkept earlier request later hrequests id hid uuid hread hstored
    obtain ⟨shelf, hsound, -⟩ := exists_sound_after hstart hroom earlier
    rw [isStored_iff hstart hroom hsound.keeps] at hstored
    by_contra hne
    -- All issued ids are written the one way, so another spelling was not issued and would be
    -- turned down.
    have hstranger : id ∉ (Session.after catalog start earlier).issued := by
      intro hissued
      obtain ⟨other, rfl⟩ := hsound.issued_text id hissued
      rw [Uuid.ofText?_text] at hread
      exact hne (congrArg Uuid.text (Option.some.inj hread))
    have hdown := hkept.strangers_turned_down earlier request later hrequests id hid hstranger
    rw [isTurnedDown_iff hstart hroom hsound.keeps hid] at hdown
    rw [hdown uuid hread] at hstored
    cases hstored
  · intro hspelled
    obtain ⟨shelf, hsound, hnames⟩ := exists_sound_after hstart hroom requests
    constructor
    case strangers_turned_down =>
      intro earlier request later hrequests id hid hstranger
      obtain ⟨shelf, hsound, -⟩ := exists_sound_after hstart hroom earlier
      rw [isTurnedDown_iff hstart hroom hsound.keeps hid]
      intro uuid hread
      by_contra hshelf
      have hsome := Option.isSome_iff_ne_none.mpr hshelf
      have hstored := (isStored_iff hstart hroom hsound.keeps).mpr hsome
      rw [hspelled earlier request later hrequests id hid uuid hread hstored] at hstranger
      exact hstranger (hsound.issued_of_shelf uuid hsome)
    case names_match =>
      intro uuid content hcontent
      obtain ⟨record, hrecord⟩ := Option.isSome_iff_exists.mp
        ((isStored_iff hstart hroom hsound.keeps).mp ⟨content, hcontent⟩)
      rw [contentOf_of_some hstart hroom hsound.keeps hrecord] at hcontent
      exact ⟨record, (Except.ok.inj hcontent).symm, hnames hspelled uuid record hrecord⟩
    case listed_found =>
      obtain ⟨ids, hids, -, hmem⟩ := exists_ids hstart hsound.keeps
      refine ⟨ids, hids, fun id hid => ?_⟩
      obtain ⟨uuid, rfl, hsome⟩ := (hmem id).mp hid
      obtain ⟨record, hrecord⟩ := Option.isSome_iff_exists.mp hsome
      exact ⟨uuid, record, rfl, hnames hspelled uuid record hrecord,
        contentOf_of_some hstart hroom hsound.keeps hrecord,
        get?_of_some hstart hroom hsound.keeps (Uuid.ofText?_text uuid) hrecord⟩

end History

section Main

variable {catalog : DirectoryCatalog} {start : Disk}

/-- Over all sessions in a directory that was empty: an id reaches the file of the identifier that
it is read as, and is turned down only if there is no such file; a stored record has an id that is
read as the name of its file. So only issued ids reach files, and every record has the id that names
its file, exactly if whoever changes a record spells its id as it was issued. -/
theorem issued_ids_reach_files_iff (hvacant : catalog.IsVacant start) (requests : List Request) :
    (∀ request : Request, ∀ id ∈ request.target?,
      (catalog.IsTurnedDown (Session.after catalog start requests) request ↔
        ∀ uuid, Uuid.ofText? id = some uuid →
          ¬catalog.IsStored (Session.after catalog start requests).disk uuid)) ∧
    (∀ (uuid : Uuid) content,
      (Session.after catalog start requests).disk.contentOf (catalog.recordFile uuid) =
        .ok content →
        ∃ (record : Record) (id : String), content = record.encodePretty ∧ record.id = some id ∧
          Uuid.ofText? id = some uuid) ∧
    (IsKeptToIssued catalog start requests ↔ IsSpelledAsIssued catalog start requests) := by
  obtain ⟨place, hstart⟩ := exists_place hvacant.readDirectory_eq
  have hroom := hvacant.hasRoom
  obtain ⟨shelf, hsound, -⟩ := exists_sound_after hstart hroom requests
  refine ⟨?_, ?_, isKeptToIssued_iff hstart hroom⟩
  · intro request id hid
    rw [isTurnedDown_iff hstart hroom hsound.keeps hid]
    simp only [isStored_iff hstart hroom hsound.keeps, Option.not_isSome_iff_eq_none]
  · intro uuid content hcontent
    obtain ⟨record, hrecord⟩ := Option.isSome_iff_exists.mp
      ((isStored_iff hstart hroom hsound.keeps).mp ⟨content, hcontent⟩)
    rw [contentOf_of_some hstart hroom hsound.keeps hrecord] at hcontent
    obtain ⟨id, hid, hread⟩ := hsound.id_reads uuid record hrecord
    exact ⟨record, id, (Except.ok.inj hcontent).symm, hid, hread⟩

theorem path_is_turned_down :
    IsTurnedDown ⟨"/c"⟩ (Session.after ⟨"/c"⟩ (Disk.start "/" "/c") [.create ⟨7⟩ Record.empty])
      (.delete "../../etc/passwd") := by
  obtain ⟨hdown, -, -⟩ := issued_ids_reach_files_iff isVacant_spare.1 [.create ⟨7⟩ Record.empty]
  refine (hdown _ "../../etc/passwd" rfl).mpr ?_
  intro uuid huuid
  have hnone : Uuid.ofText? "../../etc/passwd" = none := by decide +kernel
  rw [hnone] at huuid
  cases huuid

/-- The id of a record that has just been created is accepted in capital letters. -/
theorem capital_spelling_is_accepted :
    let uuid : Uuid := ⟨0x6F9619FF8B86D011B42D00C04FC964FF⟩
    IsVacant ⟨"/c"⟩ (Disk.start "/" "/c") ∧
      ¬IsKeptToIssued ⟨"/c"⟩ (Disk.start "/" "/c")
        [.create uuid Record.empty,
          .update "6F9619FF-8B86-D011-B42D-00C04FC964FF" Record.empty] := by
  intro uuid
  obtain ⟨hvacant, hdraft⟩ := isVacant_spare
  obtain ⟨place, hstart⟩ := exists_place hvacant.readDirectory_eq
  have hroom := hvacant.hasRoom
  refine ⟨hvacant, ?_⟩
  rw [isKeptToIssued_iff hstart hroom]
  intro hspelled
  have hstored : IsStored ⟨"/c"⟩
      (Session.after ⟨"/c"⟩ (Disk.start "/" "/c") [.create uuid Record.empty]).disk uuid := by
    obtain ⟨disk', hcreate, hkeeps⟩ | ⟨hlong, -⟩ :=
      createAs_cases hstart hroom (keeps_start hstart) uuid Record.empty
    · have hafter : Session.after ⟨"/c"⟩ (Disk.start "/" "/c") [.create uuid Record.empty] =
          ⟨disk', [uuid.text]⟩ := by
        rw [Session.after, List.foldl_cons, List.foldl_nil, Session.serve, hcreate]
        rfl
      rw [hafter, isStored_iff hstart hroom hkeeps, Function.update_self]
      rfl
    · exact absurd (hdraft uuid) (Nat.not_le.mpr hlong)
  have hsame := hspelled [.create uuid Record.empty] _ [] rfl
    "6F9619FF-8B86-D011-B42D-00C04FC964FF" rfl uuid (by decide +kernel) hstored
  have hother : uuid.text = "6f9619ff-8b86-d011-b42d-00c04fc964ff" := by decide +kernel
  rw [hother] at hsame
  exact absurd hsame (by decide)

end Main

end DirectoryCatalog

end CatalogSync
