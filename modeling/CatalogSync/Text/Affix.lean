namespace CatalogSync.Text

/-- What is left of a list once the given beginning is taken off. -/
def dropStart? {α : Type} [DecidableEq α] : List α → List α → Option (List α)
  | [], whole => some whole
  | _ :: _, [] => none
  | a :: start, b :: whole => if a = b then dropStart? start whole else none

theorem dropStart?_eq_some {α : Type} [DecidableEq α] {start whole rest : List α} :
    dropStart? start whole = some rest ↔ whole = start ++ rest := by
  induction start generalizing whole with
  | nil => simp [dropStart?, eq_comm]
  | cons a start ih =>
    cases whole with
    | nil => simp [dropStart?]
    | cons b whole =>
      by_cases h : a = b
      · simp [dropStart?, h, ih]
      · simp [dropStart?, h, Ne.symm h]

/-- What follows the beginning `start` in a text that has it. -/
def stripStart? (start text : String) : Option String :=
  (dropStart? start.toList text.toList).map String.ofList

/-- What precedes the ending `ending` in a text that has it. -/
def stripEnd? (ending text : String) : Option String :=
  (dropStart? ending.toList.reverse text.toList.reverse).map fun rest =>
    String.ofList rest.reverse

theorem stripStart?_eq_some {start text rest : String} :
    stripStart? start text = some rest ↔ text = start ++ rest := by
  simp only [stripStart?, Option.map_eq_some_iff, dropStart?_eq_some]
  constructor
  · rintro ⟨tail, htext, rfl⟩
    rw [← String.toList_inj]
    simpa using htext
  · rintro rfl
    exact ⟨rest.toList, by simp, by simp⟩

theorem stripEnd?_eq_some {ending text rest : String} :
    stripEnd? ending text = some rest ↔ text = rest ++ ending := by
  simp only [stripEnd?, Option.map_eq_some_iff, dropStart?_eq_some]
  constructor
  · rintro ⟨head, htext, rfl⟩
    rw [← String.toList_inj]
    have := congrArg List.reverse htext
    simpa using this
  · rintro rfl
    exact ⟨rest.toList.reverse, by simp, by simp⟩

/-- The list without the run of `c` at its end. -/
def trimEnd {α : Type} [DecidableEq α] (c : α) (list : List α) : List α :=
  (list.reverse.dropWhile (· = c)).reverse

/-- The pieces between the separators; a list without separator is its one piece. -/
def splitOn {α : Type} [DecidableEq α] (separator : α) : List α → List (List α)
  | [] => [[]]
  | c :: rest =>
    if c = separator then [] :: splitOn separator rest
    else
      match splitOn separator rest with
      | [] => [[c]]
      | piece :: pieces => (c :: piece) :: pieces

/-- The piece behind the last separator; all of the list if there is none. -/
def lastPiece {α : Type} [DecidableEq α] (separator : α) (list : List α) : List α :=
  (list.reverse.takeWhile (· ≠ separator)).reverse

/-- The last piece of a path, behind the last slash. -/
def lastSegment (path : String) : String :=
  String.ofList (lastPiece '/' path.toList)

theorem splitOn_ne_nil {α : Type} [DecidableEq α] (separator : α) (list : List α) :
    splitOn separator list ≠ [] := by
  cases list with
  | nil => simp [splitOn]
  | cons c rest =>
    simp only [splitOn]
    split
    · simp
    · split <;> simp

end CatalogSync.Text
