import CatalogSync.Proofs.Harvest.Abandoned

namespace CatalogSync.Surroundings

open Harvester

/-- Surroundings that differ in nothing but the answers of one listener. -/
structure DifferOnlyIn (listener : ListenerId) (answers other : Answers) : Prop where
  checkRoot : answers.checkRoot = other.checkRoot
  list : answers.list = other.list
  locate : answers.locate = other.locate
  fetch : answers.fetch = other.fetch
  loadError? : answers.loadError? = other.loadError?
  writeError? : answers.writeError? = other.writeError?
  notify : ∀ calls notice, notice.listener ≠ listener →
    answers.notify (calls ++ [.notify notice]) = other.notify (calls ++ [.notify notice])

def faults (answers : Answers) (stage : Stage) (listing : List ListingEntry) : Finset (Nat × Nat) :=
  (Finset.range (dueChanges stage listing).length ×ˢ
    Finset.range stage.harvester.members.length).filter fun place =>
      isFault (outcomeAt answers stage listing place.1 place.2)

/-- What has been created, modified and deleted is counted alike, and every fault is counted
once. -/
structure CountsFaults (answers other : Answers) (stage : Stage) (listing : List ListingEntry)
    (report report' : PollReport) : Prop where
  created : report.created = report'.created
  modified : report.modified = report'.modified
  deleted : report.deleted = report'.deleted
  failures : report.failures = (faults answers stage listing).card
  failures' : report'.failures = (faults other stage listing).card

/-- The view of the tree is known already, or the store takes it once everybody has been told. -/
def KeepsView (answers : Answers) (stage : Stage) (listing : List ListingEntry) : Prop :=
  stage.harvester.snapshot = some (.ofListing listing) ∨
    answers.writeError? ((stage.listed (.ok listing)).tellAll
      (dueNotices answers stage listing)).calls = none

variable {answers other : Answers} {stage : Stage} {listing : List ListingEntry}
  {listener : ListenerId}

theorem failures_reportOf (answers : Answers) (stage : Stage) (listing : List ListingEntry) :
    (reportOf answers stage listing).failures = (faults answers stage listing).card :=
  faultCount_eq_card _ _

theorem countsFaults_reportOf :
    CountsFaults answers other stage listing (reportOf answers stage listing)
      (reportOf other stage listing) :=
  ⟨rfl, rfl, rfl, failures_reportOf .., failures_reportOf ..⟩

theorem countsFaults_ofIdle (hnobody : stage.harvester.members = []) :
    CountsFaults answers other stage listing .ofIdle .ofIdle := by
  refine ⟨rfl, rfl, rfl, ?_, ?_⟩ <;> simp [faults, hnobody, PollReport.ofIdle]

theorem dueNotices_of_differOnlyIn (h : DifferOnlyIn listener answers other) :
    dueNotices other stage listing = dueNotices answers stage listing :=
  dueNotices_congr rfl h.locate.symm listing

/-- Whoever answers the same is asked the same before. -/
theorem outcomeAt_of_differOnlyIn (h : DifferOnlyIn listener answers other) {i j : Nat}
    (hi : i < (dueChanges stage listing).length) (hj : j < stage.harvester.members.length)
    (hother : stage.harvester.members[j] ≠ listener) :
    outcomeAt answers stage listing i j = outcomeAt other stage listing i j := by
  have hupTo : ∀ later : Answers, later.locate = answers.locate →
      noticesUpTo later stage.harvester.config.root stage.harvester.members
        (dueChanges stage listing) i j =
      noticesUpTo answers stage.harvester.config.root stage.harvester.members
        (dueChanges stage listing) i j := by
    intro later hlocate
    unfold noticesUpTo noticesOf
    rw [hlocate]
  rw [outcomeAt, outcomeAt, hupTo other h.locate.symm, noticesUpTo_eq_concat hi hj, answerTo,
    answerTo, List.map_append, ← List.append_assoc]
  exact h.notify _ _ hother

theorem ends_alike (h : DifferOnlyIn listener answers other)
    (hrunning : stage.harvester.status = .polling)
    (hlisted : answers.list stage.world.calls = .ok listing)
    (hsteady : IsSteady answers stage listing) (hsteady' : IsSteady other stage listing) :
    (pollOnce answers stage).2 = (pollOnce other stage).2 ∧
      ((∃ report report', (pollOnce answers stage).1 = .ok report ∧
          (pollOnce other stage).1 = .ok report' ∧
          CountsFaults answers other stage listing report report') ∨
        ∃ e, ¬ KeepsView answers stage listing ∧
          (pollOnce answers stage).1 = .error (.persistence e) ∧
          (pollOnce other stage).1 = .error (.persistence e)) := by
  have hlisted' : other.list stage.world.calls = .ok listing := by
    rw [← h.list]
    exact hlisted
  have hdue := @dueNotices_of_differOnlyIn answers other stage listing listener h
  cases hbegin : stage.harvester.beginPoll with
  | notRunning => exact absurd hrunning (beginPoll_notRunning hbegin)
  | idle =>
    have hnobody := beginPoll_idle hbegin
    rw [pollOnce_of_idle hbegin, pollOnce_of_idle hbegin]
    exact ⟨rfl, Or.inl ⟨_, _, rfl, rfl, countsFaults_ofIdle hnobody⟩⟩
  | listing root members =>
    obtain ⟨-, rfl, rfl⟩ := beginPoll_listing hbegin
    by_cases hsame : stage.harvester.snapshot = some (.ofListing listing)
    · rw [pollOnce_of_same hbegin hlisted hsteady hsame,
        pollOnce_of_same hbegin hlisted' hsteady' hsame, hdue]
      exact ⟨rfl, Or.inl ⟨_, _, rfl, rfl, countsFaults_reportOf⟩⟩
    · rw [pollOnce_of_ne hbegin hlisted hsteady hsame,
        pollOnce_of_ne hbegin hlisted' hsteady' hsame, hdue, ← h.writeError?]
      dsimp only
      split
      · rename_i e hfails
        have hlost : ¬ KeepsView answers stage listing := by
          rintro (hknown | hstored)
          · exact hsame hknown
          · rw [hfails] at hstored
            cases hstored
        exact ⟨rfl, Or.inr ⟨e, hlost, rfl, rfl⟩⟩
      · exact ⟨rfl, Or.inl ⟨_, _, rfl, rfl, countsFaults_reportOf⟩⟩

/-- Two executions of one poll that differ in nothing but the answers of one listener, and to which
nobody puts an end, leave the same behind: the others have been told the same in the same order and
have answered the same, and the same view of the tree is in memory and in the store. Both polls
succeed, and they count the same changes and every fault once; or else the store has failed both of
them. -/
theorem listener_faults_are_isolated (answers other : Answers) (stage : Stage)
    (listing : List ListingEntry) (listener : ListenerId)
    (hrunning : stage.harvester.status = .polling)
    (hlisted : answers.list stage.world.calls = .ok listing)
    (hdiffer : DifferOnlyIn listener answers other)
    (hsteady : IsSteady answers stage listing) (hsteady' : IsSteady other stage listing) :
    (pollOnce answers stage).2 = (pollOnce other stage).2 ∧
      (∀ member, received member (noticesIn (asked answers stage)) =
        received member (noticesIn (asked other stage))) ∧
      (∀ i < (dueChanges stage listing).length, ∀ j (hj : j < stage.harvester.members.length),
        stage.harvester.members[j] ≠ listener →
          outcomeAt answers stage listing i j = outcomeAt other stage listing i j) ∧
      (KeepsView answers stage listing → ∃ report report',
        (pollOnce answers stage).1 = .ok report ∧ (pollOnce other stage).1 = .ok report' ∧
          CountsFaults answers other stage listing report report') ∧
      ∀ e, (pollOnce answers stage).1 = .error e ↔ (pollOnce other stage).1 = .error e := by
  obtain ⟨hstage, hresult⟩ := ends_alike hdiffer hrunning hlisted hsteady hsteady'
  refine ⟨hstage, ?_, ?_, ?_, ?_⟩
  · intro member
    rw [asked, asked, hstage]
  · intro i hi j hj hother
    exact outcomeAt_of_differOnlyIn hdiffer hi hj hother
  · intro hkeeps
    rcases hresult with hcounted | ⟨e, hlost, -⟩
    · exact hcounted
    · exact absurd hkeeps hlost
  · intro e
    rcases hresult with ⟨report, report', hok, hok', -⟩ | ⟨e', -, herror, herror'⟩
    · rw [hok, hok']
      simp
    · rw [herror, herror']

/-- Surroundings in which listener 0 always breaks down and listener 1 does as it likes. -/
def moody (mood : String → Outcome ListenerError Unit) : Answers :=
  { brittle with
    notify := fun calls =>
      match calls.getLast? with
      | some (.notify notice) =>
        if notice.listener = 0 then .panicked
        else if notice.listener = 1 then mood notice.location
        else .ok ()
      | _ => .ok () }

def sulking : Answers :=
  moody fun _ => .error (.failed "not now")

def startled : Answers :=
  moody fun location => if location = "r/a" then .panicked else .ok ()

theorem differOnlyIn_moody (mood other : String → Outcome ListenerError Unit) :
    DifferOnlyIn 1 (moody mood) (moody other) := by
  refine ⟨rfl, rfl, rfl, rfl, rfl, rfl, ?_⟩
  intro calls notice hother
  simp [moody, hother]

theorem isSteady_moody {mood : String → Outcome ListenerError Unit}
    (h : ∀ location e, mood location ≠ .error (.persistence e)) (stage : Stage)
    (listing : List ListingEntry) : IsSteady (moody mood) stage listing := by
  intro i hi j hj e
  rw [outcomeAt, noticesUpTo_eq_concat hi hj, answerTo, List.map_append, ← List.append_assoc]
  simp only [moody, List.map_cons, List.map_nil, List.getLast?_concat]
  split
  · rintro ⟨⟩
  · split
    · exact h _ e
    · rintro ⟨⟩

theorem sulking_or_startled_isolated :
    DifferOnlyIn 1 sulking startled ∧ IsSteady sulking brittleStage brittleListing ∧
      IsSteady startled brittleStage brittleListing ∧
      (pollOnce sulking brittleStage).2 = (pollOnce startled brittleStage).2 ∧
      ∃ report report', (pollOnce sulking brittleStage).1 = .ok report ∧
        (pollOnce startled brittleStage).1 = .ok report' ∧
        report.failures = 6 ∧ report'.failures = 4 := by
  have hsulking : IsSteady sulking brittleStage brittleListing := by
    apply isSteady_moody
    simp
  have hstartled : IsSteady startled brittleStage brittleListing := by
    apply isSteady_moody
    intro location e
    split <;> nofun
  have hdiffer : DifferOnlyIn 1 sulking startled := differOnlyIn_moody _ _
  obtain ⟨hstage, -, -, hresult, -⟩ := listener_faults_are_isolated sulking startled brittleStage
    brittleListing 1 rfl rfl hdiffer hsulking hstartled
  obtain ⟨report, report', hok, hok', hcounts⟩ := hresult (Or.inr rfl)
  refine ⟨hdiffer, hsulking, hstartled, hstage, report, report', hok, hok', ?_, ?_⟩
  · rw [hcounts.failures]
    rfl
  · rw [hcounts.failures']
    rfl

end CatalogSync.Surroundings
