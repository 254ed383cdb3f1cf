import CatalogSync.Ingest.CatalogAdapter
import CatalogSync.Ingest.CatalogLog
import CatalogSync.Proofs.Overrides
import Mathlib.Data.List.TakeWhile

namespace CatalogSync

namespace Text

variable {α : Type} [DecidableEq α] {c : α}

theorem trimEnd_append {list tail : List α} (hlist : ∀ last ∈ list.getLast?, last ≠ c)
    (htail : ∀ a ∈ tail, a = c) : trimEnd c (list ++ tail) = list := by
  have hall : ∀ a ∈ tail.reverse, decide (a = c) = true := by
    intro a ha
    exact decide_eq_true (htail a (List.mem_reverse.mp ha))
  rw [trimEnd, List.reverse_append, List.dropWhile_append_of_pos hall, List.reverse_eq_iff]
  cases hreverse : list.reverse with
  | nil => rfl
  | cons last rest =>
    have hlast : last ≠ c := by
      apply hlist
      rw [List.getLast?_eq_head?_reverse, hreverse]
      rfl
    rw [List.dropWhile_cons_of_neg (by simpa using hlast)]

theorem exists_trimEnd (c : α) (list : List α) :
    ∃ tail, list = trimEnd c list ++ tail ∧ (∀ a ∈ tail, a = c) ∧
      ∀ last ∈ (trimEnd c list).getLast?, last ≠ c := by
  refine ⟨(list.reverse.takeWhile (· = c)).reverse, ?_, ?_, ?_⟩
  · rw [trimEnd, ← List.reverse_append, List.takeWhile_append_dropWhile, List.reverse_reverse]
  · intro a ha
    simpa using List.mem_takeWhile_imp (List.mem_reverse.mp ha)
  · intro last hlast
    have hnot := List.head?_dropWhile_not (· = c) list.reverse
    rw [trimEnd, List.getLast?_reverse] at hlast
    rw [Option.mem_def.mp hlast] at hnot
    simpa using hnot

theorem lastPiece_append {front piece : List α} (hpiece : c ∉ piece)
    (hfront : ∀ last ∈ front.getLast?, last = c) : lastPiece c (front ++ piece) = piece := by
  have hall : ∀ a ∈ piece.reverse, decide (a ≠ c) = true := by
    intro a ha
    refine decide_eq_true ?_
    rintro rfl
    exact hpiece (List.mem_reverse.mp ha)
  rw [lastPiece, List.reverse_append, List.takeWhile_append_of_pos hall, List.reverse_eq_iff]
  cases hreverse : front.reverse with
  | nil => exact List.append_nil _
  | cons last rest =>
    have hlast : last = c := by
      apply hfront
      rw [List.getLast?_eq_head?_reverse, hreverse]
      rfl
    rw [List.takeWhile_cons_of_neg (by simpa using hlast)]
    exact List.append_nil _

theorem exists_lastPiece (c : α) (list : List α) :
    ∃ front, list = front ++ lastPiece c list ∧ c ∉ lastPiece c list ∧
      ∀ last ∈ front.getLast?, last = c := by
  refine ⟨(list.reverse.dropWhile (· ≠ c)).reverse, ?_, ?_, ?_⟩
  · rw [lastPiece, ← List.reverse_append, List.takeWhile_append_dropWhile, List.reverse_reverse]
  · intro hmem
    simpa using List.mem_takeWhile_imp (List.mem_reverse.mp hmem)
  · intro last hlast
    have hnot := List.head?_dropWhile_not (· ≠ c) list.reverse
    rw [List.getLast?_reverse] at hlast
    rw [Option.mem_def.mp hlast] at hnot
    simpa using hnot

end Text

namespace Resource

/-- The last segment of a path, whatever slashes there are at its end. It is empty only if there is
nothing but these. -/
def IsLastSegment (path segment : String) : Prop :=
  '/' ∉ segment.toList ∧ ∃ front slashes : List Char,
    path.toList = front ++ segment.toList ++ slashes ∧ (∀ c ∈ slashes, c = '/') ∧
    (∀ last ∈ front.getLast?, last = '/') ∧ (segment = "" → front = [])

theorem name_eq_iff {resource : Resource} {segment : String} :
    resource.name = segment ↔ IsLastSegment resource.location segment := by
  rw [name]
  constructor
  · rintro rfl
    obtain ⟨slashes, hpath, hslashes, htrimmed⟩ := Text.exists_trimEnd '/' resource.location.toList
    obtain ⟨front, hsegment, hplain, hfront⟩ :=
      Text.exists_lastPiece '/' (Text.trimEnd '/' resource.location.toList)
    rw [IsLastSegment, String.toList_ofList]
    refine ⟨hplain, front, slashes, ?_, hslashes, hfront, ?_⟩
    · rw [← hsegment, ← hpath]
    · intro hempty
      rw [String.ofList_eq_empty_iff] at hempty
      rw [hempty, List.append_nil] at hsegment
      rw [hsegment] at htrimmed
      cases hlast : front.getLast? with
      | none => exact List.getLast?_eq_none_iff.mp hlast
      | some last => exact absurd (hfront last hlast) (htrimmed last hlast)
  · rintro ⟨hplain, front, slashes, hpath, hslashes, hfront, hempty⟩
    have htrimmed : ∀ last ∈ (front ++ segment.toList).getLast?, last ≠ '/' := by
      intro last hlast
      rw [Option.mem_def, List.getLast?_append] at hlast
      cases hsegment : segment.toList.getLast? with
      | none =>
        have hnil := List.getLast?_eq_none_iff.mp hsegment
        rw [hempty (String.toList_eq_nil_iff.mp hnil), hnil] at hlast
        cases hlast
      | some char =>
        rw [hsegment] at hlast
        cases hlast
        rintro rfl
        exact hplain (List.mem_of_getLast? hsegment)
    rw [hpath, Text.trimEnd_append htrimmed hslashes, Text.lastPiece_append hplain hfront,
      String.ofList_toList]

end Resource

namespace Record

variable (record : Record)

/-- The empty text is no value. -/
def filling (text : String) : Option Json :=
  if text = "" then none else some (.str text)

theorem get?_set (name key : String) (value : Json) :
    (record.set name value).get? key = if key = name then some value else record.get? key :=
  Table.get?_insert ..

theorem get?_setIfAbsent (name value key : String) :
    (record.setIfAbsent name value).get? key =
      (record.get? key).or (if key = name then filling value else none) := by
  rw [setIfAbsent, filling]
  by_cases hkey : key = name
  · subst hkey
    cases hget : record.get? key with
    | some old =>
      have hcontains : record.attributes.contains key = true := by
        rw [Table.contains, show record.attributes.get? key = some old from hget]
        rfl
      simp [hcontains, hget]
    | none =>
      have hcontains : record.attributes.contains key = false := by
        rw [Table.contains, show record.attributes.get? key = none from hget]
        rfl
      by_cases hempty : value = ""
      · simp [hempty, hget]
      · simp [hempty, hcontains, get?_set]
  · rw [if_neg hkey, Option.or_none]
    split_ifs
    · rfl
    · rw [get?_set, if_neg hkey]

theorem id_setIfAbsent (name value : String) : (record.setIfAbsent name value).id = record.id := by
  rw [setIfAbsent]
  split_ifs <;> rfl

end Record

namespace CatalogAdapter

section Layers

/-- The values that override an attribute: one stands for itself, several stand in an array. -/
def overriding : List String → Option Json
  | [] => none
  | [value] => some (.str value)
  | values => some (.arr (values.map .str))

/-- What a resource itself says about an attribute. -/
def standard (segment : String) (size : Nat) (location name : String) : Option Json :=
  if name = "title" then Record.filling segment
  else if name = "resource-size" then Record.filling (Decimal.text size)
  else if name = "resource-uri" then Record.filling location
  else none

theorem get?_fillDefaults (resource : Resource) (content : Content) (record : Record)
    (name : String) :
    (fillDefaults resource content record).get? name =
      (record.get? name).or (standard resource.name content.size resource.location name) := by
  simp only [fillDefaults, Record.get?_setIfAbsent, Option.or_assoc]
  rw [standard, Attribute.title, Attribute.resourceSize, Attribute.resourceUri]
  split_ifs <;> simp_all

theorem id_fillDefaults (resource : Resource) (content : Content) (record : Record) :
    (fillDefaults resource content record).id = record.id := by
  simp only [fillDefaults, Record.id_setIfAbsent]

theorem applyOverrides_eq (overrides : Overrides) (record : Record) :
    applyOverrides overrides record =
      ⟨record.id, (Table.map overrideValue overrides).entries.foldl
        (fun table entry => table.insert entry.1 entry.2) record.attributes⟩ := by
  change overrides.entries.foldl
      (fun record entry => record.set entry.1 (overrideValue entry.2)) record =
    ⟨record.id, (overrides.entries.map fun entry => (entry.1, overrideValue entry.2)).foldl
      (fun table entry => table.insert entry.1 entry.2) record.attributes⟩
  induction overrides.entries generalizing record with
  | nil => rfl
  | cons entry rest ih => exact ih (record.set entry.1 (overrideValue entry.2))

theorem get?_applyOverrides (overrides : Overrides) (record : Record) (name : String) :
    (applyOverrides overrides record).get? name =
      ((overrides.get? name).map overrideValue).or (record.get? name) := by
  rw [applyOverrides_eq, Record.get?, Table.get?_foldl_insert, ← Table.get?_ofList,
    Table.ofList_entries, Table.get?_map]
  rfl

theorem overriding_valuesOf {pairs : List String} {overrides : Overrides}
    (h : Overrides.ofPairs pairs = .ok overrides) (name : String) :
    (overrides.get? name).map overrideValue = overriding (Overrides.valuesOf name pairs) := by
  rw [Overrides.get?_of_ofPairs_eq_ok h]
  rcases Overrides.valuesOf name pairs with _ | ⟨value, _ | ⟨other, rest⟩⟩ <;> rfl

end Layers

variable {σ : Type} {transformer : Transformer} {pairs : List String} {overrides : Overrides}
  {resource : Resource} {existing : Option String}

/-- The record for a resource: on top of what the transformer has found, overrides and what is
filled in. -/
structure Layered (pairs : List String) (resource : Resource) (content : Content)
    (existing : Option String) (found record : Record) : Prop where
  id : record.id = (existing <|> found.id)
  attributes : ∃ segment, Resource.IsLastSegment resource.location segment ∧
    ∀ name, record.get? name = (overriding (Overrides.valuesOf name pairs)).or
      ((found.get? name).or (standard segment content.size resource.location name))

theorem layered_describe (hpairs : Overrides.ofPairs pairs = .ok overrides)
    (hresource : resource.properties = overrides.toProperties) {content : Content} {found : Record}
    (hfound : transformer resource content existing = .ok found) :
    ∃ record, describe transformer resource content existing = .ok record ∧
      Layered pairs resource content existing found
        { record with id := existing <|> record.id } := by
  have hoverrides : resource.overrides = overrides := by
    rw [Resource.overrides, hresource, Overrides.ofProperties_toProperties]
  have hid : (applyOverrides overrides (fillDefaults resource content found)).id = found.id := by
    rw [applyOverrides_eq, id_fillDefaults]
  refine ⟨applyOverrides overrides (fillDefaults resource content found), ?_, ?_⟩
  · rw [describe, hfound, hoverrides]
  · refine ⟨congrArg (existing <|> ·) hid, resource.name, Resource.name_eq_iff.mp rfl, ?_⟩
    intro name
    rw [← overriding_valuesOf hpairs, ← get?_fillDefaults, ← get?_applyOverrides]
    rfl

/-- A catalog that notes each call to it before it answers. -/
def noting (catalog : Catalog σ) : Catalog (σ × List CatalogCall) where
  create := fun record world =>
    let (answer, after) := catalog.create record world.1
    (answer, (after, world.2 ++ [.create record]))
  update := fun id record world =>
    let (answer, after) := catalog.update id record world.1
    (answer, (after, world.2 ++ [.update id record]))
  delete := fun id world =>
    let (answer, after) := catalog.delete id world.1
    (answer, (after, world.2 ++ [.delete id]))

/-- The call that hands a record to a catalog: as a new one, or in place of the one with an id. -/
def handing (record : Record) : Option String → CatalogCall
  | none => .create record
  | some id => .update id record

def answerTo (catalog : Catalog σ) (record : Record) :
    Option String → StateM σ (Except IngestError String)
  | none => catalog.create record
  | some id => catalog.update id record

/-- What comes of a resource once its content has been read, as an answer and a state with the calls
to the catalog in it. An error before the catalog is asked leaves the state as it was. -/
inductive Handled (transformer : Transformer) (catalog : Catalog σ) (pairs : List String)
    (resource : Resource) (existing : Option String) :
    Except ContentError Content × Reading (σ × List CatalogCall) →
      Outcome IngestError String × Reading (σ × List CatalogCall) → Prop where
  | unreadable (e : ContentError) (reading : Reading (σ × List CatalogCall)) :
      Handled transformer catalog pairs resource existing (.error e, reading)
        (.error (.unavailable e.message), reading)
  | refused (content : Content) (reading : Reading (σ × List CatalogCall)) (e : IngestError)
      (hfound : transformer resource content existing = .error e) :
      Handled transformer catalog pairs resource existing (.ok content, reading) (.error e, reading)
  | handed (content : Content) (reading : Reading (σ × List CatalogCall)) (found record : Record)
      (hfound : transformer resource content existing = .ok found)
      (hlayered : Layered pairs resource content existing found record)
      (answer : Except IngestError String) (world : σ)
      (hanswer : answerTo catalog record existing reading.world.1 = (answer, world)) :
      Handled transformer catalog pairs resource existing (.ok content, reading)
        (.ofExcept answer, ⟨reading.content, (world, reading.world.2 ++ [handing record existing])⟩)

/-- Creation and update in one: a record gets the id of the one it replaces, if there is one. -/
def put (transformer : Transformer) (catalog : Catalog σ) (resource : Resource)
    (existing : Option String) :
    StateM (Reading σ) (Outcome IngestError String) := do
  match ← buildRecord transformer resource existing with
  | .ok record =>
    return .ofExcept
      (← Reading.onWorld (answerTo catalog { record with id := existing <|> record.id } existing))
  | .error e => return .error e

theorem create_eq_put (transformer : Transformer) (catalog : Catalog σ) (resource : Resource) :
    (adapter transformer catalog).create resource = put transformer catalog resource none := rfl

theorem update_eq_put (transformer : Transformer) (catalog : Catalog σ) (resource : Resource)
    (id : String) :
    (adapter transformer catalog).update resource id = put transformer catalog resource (some id) :=
  rfl

theorem buildRecord_of_ok {reading after : Reading σ} {content : Content}
    (hread : Reading.read reading = (.ok content, after)) :
    buildRecord transformer resource existing reading =
      (describe transformer resource content existing, after) := by
  simp only [buildRecord, bind, StateT.bind, hread]
  rfl

theorem buildRecord_of_error {reading after : Reading σ} {e : ContentError}
    (hread : Reading.read reading = (.error e, after)) :
    buildRecord transformer resource existing reading =
      (.error (.unavailable e.message), after) := by
  simp only [buildRecord, bind, StateT.bind, hread]
  rfl

theorem put_of_error (catalog : Catalog σ) {reading after : Reading σ} {e : IngestError}
    (hbuild : buildRecord transformer resource existing reading = (.error e, after)) :
    put transformer catalog resource existing reading = (.error e, after) := by
  simp only [put, bind, StateT.bind, hbuild]
  rfl

theorem put_of_ok (catalog : Catalog σ) {reading after : Reading (σ × List CatalogCall)}
    {record : Record} {world : σ} {answer : Except IngestError String}
    (hbuild : buildRecord transformer resource existing reading = (.ok record, after))
    (hanswer :
      answerTo catalog { record with id := existing <|> record.id } existing after.world.1 =
      (answer, world)) :
    put transformer (noting catalog) resource existing reading =
      (.ofExcept answer, ⟨after.content, (world, after.world.2 ++
        [handing { record with id := existing <|> record.id } existing])⟩) := by
  simp only [put, bind, StateT.bind, hbuild]
  cases existing with
  | none =>
    simp only [answerTo] at hanswer
    simp only [Reading.onWorld, answerTo, noting, hanswer, handing]
    rfl
  | some id =>
    simp only [answerTo] at hanswer
    simp only [Reading.onWorld, answerTo, noting, hanswer, handing]
    rfl

theorem handled_put (catalog : Catalog σ) (hpairs : Overrides.ofPairs pairs = .ok overrides)
    (hresource : resource.properties = overrides.toProperties)
    (reading : Reading (σ × List CatalogCall)) :
    Handled transformer catalog pairs resource existing (Reading.read reading)
      (put transformer (noting catalog) resource existing reading) := by
  rcases hread : Reading.read reading with ⟨e | content, after⟩
  · rw [put_of_error _ (buildRecord_of_error hread)]
    exact .unreadable e after
  · have hbuild := @buildRecord_of_ok _ transformer resource existing _ _ _ hread
    cases hfound : transformer resource content existing with
    | error e =>
      rw [describe, hfound] at hbuild
      rw [put_of_error _ hbuild]
      exact .refused content after e hfound
    | ok found =>
      obtain ⟨record, hdescribe, hlayered⟩ := layered_describe hpairs hresource hfound
      rw [hdescribe] at hbuild
      rcases hanswer : answerTo catalog { record with id := existing <|> record.id } existing
        after.world.1 with ⟨answer, world⟩
      rw [put_of_ok catalog hbuild hanswer]
      exact .handed content after found _ hfound hlayered answer world hanswer

/-- Whatever is read, found and answered, a creation hands the layered record to the catalog with
the id that the transformer has found, if any, and an update with the id of the record to be
replaced. The catalog is not asked unless there is something to read and to find in it. -/
theorem attributes_by_precedence (transformer : Transformer) (catalog : Catalog σ)
    (pairs : List String)
    (overrides : Overrides) (hpairs : Overrides.ofPairs pairs = .ok overrides) (resource : Resource)
    (hresource : resource.properties = overrides.toProperties)
    (reading : Reading (σ × List CatalogCall)) :
    Handled transformer catalog pairs resource none (Reading.read reading)
        ((adapter transformer (noting catalog)).create resource reading) ∧
      ∀ id, Handled transformer catalog pairs resource (some id) (Reading.read reading)
        ((adapter transformer (noting catalog)).update resource id reading) := by
  constructor
  · rw [create_eq_put]
    exact handled_put catalog hpairs hresource reading
  · intro id
    rw [update_eq_put]
    exact handled_put catalog hpairs hresource reading

theorem Handled.exists_record {catalog : Catalog σ} {content : Content}
    {reading : Reading (σ × List CatalogCall)} {found : Record}
    {result : Outcome IngestError String × Reading (σ × List CatalogCall)}
    (h : Handled transformer catalog pairs resource existing (.ok content, reading) result)
    (hfound : transformer resource content existing = .ok found) :
    ∃ record, Layered pairs resource content existing found record ∧
      result.2.world.2 = reading.world.2 ++ [handing record existing] := by
  cases h with
  | refused _ _ _ hrefused =>
    rw [hrefused] at hfound
    cases hfound
  | handed _ _ _ record hfound' hlayered _ _ _ =>
    rw [hfound'] at hfound
    cases hfound
    exact ⟨record, hlayered, rfl⟩

/-- A transformer that leaves the size open with an empty text, and finds an id of its own. -/
def sketching : Transformer :=
  .constant (some "own") (Table.ofList [("title", .str "sketch"), ("resource-size", .str "")])

def sketchPairs : List String := ["keyword=x", "title=Plan", "keyword=y"]

def sketchOverrides : Overrides :=
  Table.ofList [("keyword", ["x", "y"]), ("title", ["Plan"])]

def sketch : Resource := ⟨"plans/a/", sketchOverrides.toProperties⟩

/-- A sketch that can be read, or not, before a catalog that has not been called. -/
def openSketch (outcome : Except ContentError Content) : Reading (CatalogLog × List CatalogCall) :=
  ⟨.ofOutcome outcome, (.start false, [])⟩

theorem sketch_updated_by_precedence :
    (∃ record, ((adapter sketching (noting CatalogLog.catalog)).update sketch "cat-7"
        (openSketch (.ok (.ofBytes "a" [1, 2, 3])))).2.world.2 = [.update "cat-7" record] ∧
      record.id = some "cat-7" ∧ record.get? "title" = some (.str "Plan") ∧
      record.get? "keyword" = some (.arr [.str "x", .str "y"]) ∧
      record.get? "resource-size" = some (.str "") ∧
      record.get? "resource-uri" = some (.str "plans/a/") ∧ record.get? "checksum" = none) ∧
    (adapter sketching (noting CatalogLog.catalog)).create sketch
        (openSketch (.error (.unavailable "plans/a/"))) =
      (.error (.unavailable "No resource available at plans/a/"),
        openSketch (.error (.unavailable "plans/a/"))) := by
  have hpairs : Overrides.ofPairs sketchPairs = .ok sketchOverrides := by decide +kernel
  constructor
  · obtain ⟨-, hupdate⟩ :=
      attributes_by_precedence sketching CatalogLog.catalog sketchPairs sketchOverrides
      hpairs sketch rfl (openSketch (.ok (.ofBytes "a" [1, 2, 3])))
    obtain ⟨record, ⟨hid, segment, -, hget⟩, hcalls⟩ := (hupdate "cat-7").exists_record rfl
    refine ⟨record, hcalls, hid, ?_, ?_, ?_, ?_, ?_⟩ <;> rw [hget] <;> rfl
  · obtain ⟨hcreate, -⟩ :=
      attributes_by_precedence sketching CatalogLog.catalog sketchPairs sketchOverrides
      hpairs sketch rfl (openSketch (.error (.unavailable "plans/a/")))
    generalize (adapter sketching (noting CatalogLog.catalog)).create sketch
      (openSketch (.error (.unavailable "plans/a/"))) = result at hcreate ⊢
    cases hcreate
    rfl

end CatalogAdapter

end CatalogSync
