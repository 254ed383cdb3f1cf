import CatalogSync.Proofs.Harvest.Lifecycle

namespace CatalogSync.Surroundings

open Harvester

/-- What leads a harvester with a configuration away and back to it. -/
inductive Detour (config : HarvesterConfig) : List Command → Prop where
  | restart : Detour config [.stop, .start]
  | elsewhere (other : HarvesterConfig) : Detour config [.reconfigure other, .reconfigure config]

/-- Other surroundings go on after some calls as these do after other calls. -/
structure Resumes (answers other : Answers) (calls twin : List Call) : Prop where
  locate : answers.locate = other.locate
  checkRoot : ∀ later, answers.checkRoot (calls ++ later) = other.checkRoot (twin ++ later)
  list : ∀ later, answers.list (calls ++ later) = other.list (twin ++ later)
  loadError? : ∀ later, answers.loadError? (calls ++ later) = other.loadError? (twin ++ later)
  writeError? : ∀ later, answers.writeError? (calls ++ later) = other.writeError? (twin ++ later)
  notify : ∀ later, answers.notify (calls ++ later) = other.notify (twin ++ later)

/-- Whatever comes later, what is replied and whom is told of what is the same in both, and so is
where it leads. -/
structure Unaffected (answers other : Answers) (stage twin : Stage) (later : List Command) :
    Prop where
  replies : replies answers stage later = replies other twin later
  calls : ∃ calls, (obeyAll answers stage later).world.calls = stage.world.calls ++ calls ∧
    (obeyAll other twin later).world.calls = twin.world.calls ++ calls
  harvester : (obeyAll answers stage later).harvester = (obeyAll other twin later).harvester
  blobs : (obeyAll answers stage later).world.blobs = (obeyAll other twin later).world.blobs

/-- How a stage is that a harvester has reached from an empty one. -/
structure Upholds (answers : Answers) (config : HarvesterConfig) (blobs : Table Bytes)
    (commands : List Command) (stage : Stage) : Prop where
  consistent : Consistent stage
  writes : ∀ command, Writes stage (obey answers stage command).2
  /-- Provided that no other root has the same key. -/
  stored : ∀ root, (∀ other ∈ rootsOf config commands,
      persistenceKey other = persistenceKey root → other = root) →
    ∀ blob, stage.world.blobs.get? (persistenceKey root) = some blob →
      blobs.get? (persistenceKey root) = some blob ∨ IsView root stage.world.calls blob
  unnoticed : stage.harvester.status = .polling →
    ∀ detour, Detour stage.harvester.config detour →
      (∀ reply ∈ replies answers stage detour, reply = .done (.ok ())) →
      ∀ other, Resumes answers other (obeyAll answers stage detour).world.calls stage.world.calls →
        ∀ later, Unaffected answers other (obeyAll answers stage detour) stage later

variable {answers other : Answers} {stage : Stage}

theorem couples_of_resumes {calls twin : List Call} (h : Resumes answers other calls twin) :
    Couples (fun world world' => world.blobs = world'.blobs ∧
      ∃ later, world.calls = calls ++ later ∧ world'.calls = twin ++ later) answers other := by
  constructor
  case note =>
    rintro world world' ⟨hblobs, later, hcalls, htwin⟩ call
    refine ⟨hblobs, later ++ [call], ?_, ?_⟩
    · rw [World.note, hcalls, List.append_assoc]
    · rw [World.note, htwin, List.append_assoc]
  case change =>
    rintro world world' ⟨-, hcalls⟩ blobs
    exact ⟨rfl, hcalls⟩
  case blobs =>
    rintro world world' ⟨hblobs, -⟩
    exact hblobs
  case locate => exact h.locate
  all_goals
    rintro world world' ⟨-, later, hcalls, htwin⟩
    rw [hcalls, htwin]
  case checkRoot => exact h.checkRoot later
  case list => exact h.list later
  case loadError? => exact h.loadError? later
  case writeError? => exact h.writeError? later
  case notify => exact h.notify later

theorem unaffected_of_same {twin : Stage} (hharvester : stage.harvester = twin.harvester)
    (hblobs : stage.world.blobs = twin.world.blobs)
    (h : Resumes answers other stage.world.calls twin.world.calls) (later : List Command) :
    Unaffected answers other stage twin later := by
  have htwins : Twins (fun world world' => world.blobs = world'.blobs ∧ ∃ later,
      world.calls = stage.world.calls ++ later ∧ world'.calls = twin.world.calls ++ later) stage
      twin := by
    refine ⟨hharvester, hblobs, [], ?_, ?_⟩
    · rw [List.append_nil]
    · rw [List.append_nil]
  obtain ⟨hreplies, hlast, hworlds, hcalls⟩ := twins_obeyAll (couples_of_resumes h) htwins later
  exact ⟨hreplies, hcalls, hlast, hworlds⟩

def raised (h : Harvester) (blobs : Table Bytes) : Harvester :=
  { h with
    snapshotKey := persistenceKey h.config.root
    properties := h.config.overrides.toProperties
    snapshot := storedSnapshot? (blobs.get? (persistenceKey h.config.root))
    status := .polling }

theorem raised_of_broughtUp {h : Harvester} {world : World}
    {answer : (Except HarvestError Unit × Harvester) × World} (hbrought : BroughtUp h world answer)
    (hok : answer.1.1 = .ok ()) : answer.1.2 = raised h world.blobs := by
  cases hbrought with
  | failed => cases hok
  | up => rfl

theorem raised_of_start (hresting : stage.harvester.status ≠ .polling)
    (hok : (obey answers stage .start).1 = .done (.ok ())) :
    (obey answers stage .start).2.harvester = raised stage.harvester stage.world.blobs ∧
      (obey answers stage .start).2.world.blobs = stage.world.blobs := by
  have hobeyed := @obeyed_obey answers stage .start
  generalize obey answers stage .start = answer at hobeyed hok ⊢
  cases hobeyed with
  | refused => cases hok
  | running hrunning => exact absurd hrunning hresting
  | started answer _ hbrought =>
    exact ⟨raised_of_broughtUp hbrought (Reply.done.inj hok), blobs_of_broughtUp hbrought⟩

theorem raised_of_reconfigure {config : HarvesterConfig}
    (hok : (obey answers stage (.reconfigure config)).1 = .done (.ok ())) :
    (obey answers stage (.reconfigure config)).2.harvester =
        raised (stage.harvester.adopt config) stage.world.blobs ∧
      (obey answers stage (.reconfigure config)).2.world.blobs = stage.world.blobs := by
  have hobeyed := @obeyed_obey answers stage (.reconfigure config)
  generalize obey answers stage (.reconfigure config) = answer at hobeyed hok ⊢
  cases hobeyed with
  | refused => cases hok
  | adopted _ answer hbrought =>
    exact ⟨raised_of_broughtUp hbrought (Reply.done.inj hok), blobs_of_broughtUp hbrought⟩

theorem raised_of_running (h : Consistent stage) (hrunning : stage.harvester.status = .polling) :
    raised stage.harvester stage.world.blobs = stage.harvester := by
  obtain ⟨hkey, hproperties, hsnapshot⟩ := h.running hrunning
  rw [hkey] at hsnapshot
  rw [raised, ← hkey, ← hproperties, hkey, ← hsnapshot, ← hrunning, ← hkey]

theorem obeyAll_detour (h : Consistent stage) (hrunning : stage.harvester.status = .polling)
    {detour : List Command} (hdetour : Detour stage.harvester.config detour)
    (hok : ∀ reply ∈ replies answers stage detour, reply = .done (.ok ())) :
    (obeyAll answers stage detour).harvester = stage.harvester ∧
      (obeyAll answers stage detour).world.blobs = stage.world.blobs := by
  have hraised := raised_of_running h hrunning
  obtain ⟨hpolicy, hinterval⟩ := h.adopted
  cases hdetour with
  | restart =>
    simp only [replies, List.forall_mem_cons] at hok
    obtain ⟨-, hstarted, -⟩ := hok
    have hstopped : (obey answers stage .stop).2.harvester.status ≠ .polling := by
      intro hrunning
      cases hrunning
    obtain ⟨hharvester, hblobs⟩ := raised_of_start hstopped hstarted
    exact ⟨hharvester.trans hraised, hblobs⟩
  | elsewhere other =>
    simp only [replies, List.forall_mem_cons] at hok
    obtain ⟨hleft, hreturned, -⟩ := hok
    obtain ⟨hthere, hblobs⟩ := raised_of_reconfigure hleft
    obtain ⟨hback, hblobs'⟩ := raised_of_reconfigure hreturned
    rw [hthere, hblobs] at hback
    -- What else the other configuration has set is overwritten when the first one is adopted again.
    refine ⟨hback.trans ?_, hblobs'.trans hblobs⟩
    rw [← hraised]
    simp only [raised, adopt, hpolicy, hinterval]

/-- Whatever a harvester has been told, wherever that has failed and whatever was stored before:
while it polls it goes by its configuration and what is stored, it stores nothing but views of its
root, and a detour that succeeds is not noticed by anything that comes later. -/
theorem every_stage_upholds (answers : Answers) (config : HarvesterConfig) (blobs : Table Bytes)
    (commands : List Command) :
    Upholds answers config blobs commands
      (obeyAll answers ⟨.ofConfig config, ⟨blobs, []⟩⟩ commands) := by
  have hstart := consistent_ofConfig config ⟨blobs, []⟩
  have h : Consistent (obeyAll answers ⟨.ofConfig config, ⟨blobs, []⟩⟩ commands) :=
    consistent_obeyAll hstart commands
  refine ⟨h, writes_obey h, ?_, ?_⟩
  · intro root hroots
    exact isView_obeyAll commands hroots hstart fun blob hblob => Or.inl hblob
  · intro hrunning detour hdetour hok other hresumes later
    obtain ⟨hharvester, hblobs⟩ := obeyAll_detour h hrunning hdetour hok
    exact unaffected_of_same hharvester hblobs hresumes later

def listings (calls : List Call) : Nat :=
  calls.countP fun call =>
    match call with
    | .list _ _ => true
    | _ => false

/-- Surroundings in which every root has one file when it is listed first and two later on. -/
def budding : Answers where
  checkRoot := fun _ => .ok ()
  list := fun calls =>
    if listings calls = 0 then .ok [⟨"a", ⟨1, 1⟩⟩] else .ok [⟨"a", ⟨1, 1⟩⟩, ⟨"b", ⟨1, 1⟩⟩]
  locate := fun root path => root ++ "/" ++ path
  fetch := fun _ => .error (.unavailable "")
  loadError? := fun _ => none
  writeError? := fun _ => none
  notify := fun _ => .ok ()

/-- The harvester polls for one listener and has told it of the first file. Then it is led to
another root and back. -/
def budded : Stage :=
  obeyAll budding ⟨.ofConfig (.ofRoot "h" "r"), ⟨Table.empty, []⟩⟩
    [.start, .register 0 "l", .poll]

def led : Stage :=
  obeyAll budding budded [.reconfigure (.ofRoot "h" "s"), .reconfigure (.ofRoot "h" "r")]

theorem resumes_budding {calls twin : List Call} (h : listings calls = listings twin) :
    Resumes budding budding calls twin := by
  refine ⟨rfl, fun _ => rfl, ?_, fun _ => rfl, fun _ => rfl, fun _ => rfl⟩
  intro later
  have hlistings : listings (calls ++ later) = listings (twin ++ later) := by
    rw [listings, List.countP_append]
    exact (congrArg (· + listings later) h).trans List.countP_append.symm
  simp only [budding, hlistings]

theorem led_unaffected : Unaffected budding budding led budded [.poll] ∧
    noticesIn ((obeyAll budding led [.poll]).world.calls.drop led.world.calls.length) =
      [⟨0, .created, "r/b"⟩] := by
  refine ⟨?_, by decide +kernel⟩
  refine (every_stage_upholds budding (.ofRoot "h" "r") Table.empty
    [.start, .register 0 "l", .poll]).unnoticed rfl _ (.elsewhere (.ofRoot "h" "s")) ?_ budding
    (resumes_budding rfl) [.poll]
  have hreplies : replies budding budded
      [.reconfigure (.ofRoot "h" "s"), .reconfigure (.ofRoot "h" "r")] =
        [.done (.ok ()), .done (.ok ())] := rfl
  intro reply hreply
  have hmem : reply ∈ [Reply.done (.ok ()), .done (.ok ())] := hreplies ▸ hreply
  simpa using hmem

end CatalogSync.Surroundings
