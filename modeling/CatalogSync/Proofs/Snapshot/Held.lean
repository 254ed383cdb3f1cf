import CatalogSync.Proofs.Snapshot.Changes

/-!
What is held of a path by somebody who acts on changes: who takes up what is new, follows what he
has, and lets go what is gone. Changes are told from a view that stays the same until a later one is
adopted, while those who act on them act at once.
-/

namespace CatalogSync

/-- The fingerprint that is held of a path after a change of the path from one view to another. -/
def heldAfter (before now held : Option Fingerprint) : Option Fingerprint :=
  match changeKind? before now with
  | none => held
  | some .created => held.or now
  | some .modified => held.bind fun _ => now
  | some .deleted => none

/-- What is held of a path after changes from one view to several others, one after the other. -/
def heldSince (before : Option Snapshot) (views : List Snapshot) (path : String) :
    Option Fingerprint :=
  views.foldl (fun held view => heldAfter (fingerprint? before path) (view.get? path) held)
    (fingerprint? before path)

/-- The condition on a path for a view to be what is held in the end, where other views have not
been adopted: what is new to all of them was already like that when it was first seen, and what was
known was seen by each of them, if it is still there, and unchanged by each, if it is unchanged. -/
def ConvergesAt (before : Option Snapshot) (abandoned : List Snapshot) (now : Snapshot)
    (path : String) : Prop :=
  match fingerprint? before path with
  | none => ∀ fingerprint, abandoned.findSome? (fun view => view.get? path) = some fingerprint →
      now.get? path = some fingerprint
  | some known =>
    (now.get? path ≠ none → ∀ view ∈ abandoned, view.get? path ≠ none) ∧
      (now.get? path = some known → ∀ view ∈ abandoned, view.get? path = some known)

theorem heldAfter_none (now held : Option Fingerprint) : heldAfter none now held = held.or now := by
  cases now with
  | none => exact (Option.or_none).symm
  | some after => rfl

theorem heldAfter_same (known : Fingerprint) (held : Option Fingerprint) :
    heldAfter (some known) (some known) held = held := by
  simp [heldAfter, changeKind?]

theorem heldAfter_ne {known after : Fingerprint} (h : after ≠ known) (held : Option Fingerprint) :
    heldAfter (some known) (some after) held = held.bind fun _ => some after := by
  simp [heldAfter, changeKind?, h]

theorem heldAfter_gone (known : Fingerprint) (held : Option Fingerprint) :
    heldAfter (some known) none held = none := rfl

theorem heldAfter_none_none (known? : Option Fingerprint) : heldAfter known? none none = none := by
  cases known? <;> rfl

theorem foldl_heldAfter_none (held : Option Fingerprint) (views : List Snapshot) (path : String) :
    views.foldl (fun held view => heldAfter none (view.get? path) held) held =
      held.or (views.findSome? fun view => view.get? path) := by
  induction views generalizing held with
  | nil => exact (Option.or_none).symm
  | cons view views ih =>
    rw [List.foldl_cons, heldAfter_none, ih, Option.or_assoc, List.findSome?_cons]
    cases view.get? path <;> rfl

theorem foldl_heldAfter_eq_none (known : Fingerprint) (views : List Snapshot) (path : String) :
    views.foldl (fun held view => heldAfter (some known) (view.get? path) held) none = none := by
  induction views with
  | nil => rfl
  | cons view views ih =>
    rw [List.foldl_cons]
    cases hview : view.get? path with
    | none => exact ih
    | some after =>
      by_cases hsame : after = known
      · rw [hsame, heldAfter_same, ih]
      · rw [heldAfter_ne hsame, Option.bind_none, ih]

theorem foldl_heldAfter_ne_none_iff (known held : Fingerprint) (views : List Snapshot)
    (path : String) :
    views.foldl (fun held view => heldAfter (some known) (view.get? path) held) (some held) ≠ none ↔
      ∀ view ∈ views, view.get? path ≠ none := by
  induction views generalizing held with
  | nil => simp
  | cons view views ih =>
    rw [List.foldl_cons, List.forall_mem_cons]
    cases hview : view.get? path with
    | none =>
      rw [heldAfter_gone, foldl_heldAfter_eq_none]
      simp
    | some after =>
      by_cases hsame : after = known
      · rw [hsame, heldAfter_same, ih]
        simp
      · rw [heldAfter_ne hsame, Option.bind_some, ih]
        simp

theorem foldl_heldAfter_ne_known {known held : Fingerprint} (hheld : held ≠ known)
    (views : List Snapshot) (path : String) :
    views.foldl (fun held view => heldAfter (some known) (view.get? path) held) (some held) ≠
      some known := by
  induction views generalizing held with
  | nil => simpa using hheld
  | cons view views ih =>
    rw [List.foldl_cons]
    cases hview : view.get? path with
    | none =>
      rw [heldAfter_gone, foldl_heldAfter_eq_none]
      exact nofun
    | some after =>
      by_cases hsame : after = known
      · rw [hsame, heldAfter_same]
        exact ih hheld
      · rw [heldAfter_ne hsame, Option.bind_some]
        exact ih hsame

/-- What was known is held unchanged only if every view has seen it unchanged: nobody goes back to
what the changes are told from. -/
theorem foldl_heldAfter_eq_known_iff (known : Fingerprint) (views : List Snapshot) (path : String) :
    views.foldl (fun held view => heldAfter (some known) (view.get? path) held) (some known) =
        some known ↔ ∀ view ∈ views, view.get? path = some known := by
  induction views with
  | nil => simp
  | cons view views ih =>
    rw [List.foldl_cons, List.forall_mem_cons]
    cases hview : view.get? path with
    | none =>
      rw [heldAfter_gone, foldl_heldAfter_eq_none]
      simp
    | some after =>
      by_cases hsame : after = known
      · rw [hsame, heldAfter_same, ih]
        simp
      · rw [heldAfter_ne hsame, Option.bind_some]
        have hnever := foldl_heldAfter_ne_known hsame views path
        simp [hnever, hsame]

theorem heldSince_append (before : Option Snapshot) (views : List Snapshot) (view : Snapshot)
    (path : String) :
    heldSince before (views ++ [view]) path =
      heldAfter (fingerprint? before path) (view.get? path) (heldSince before views path) := by
  rw [heldSince, List.foldl_append]
  rfl

theorem heldSince_eq_iff (before : Option Snapshot) (abandoned : List Snapshot) (now : Snapshot)
    (path : String) :
    heldSince before (abandoned ++ [now]) path = now.get? path ↔
      ConvergesAt before abandoned now path := by
  rw [heldSince_append]
  unfold heldSince ConvergesAt
  cases hknown : fingerprint? before path with
  | none =>
    simp only
    rw [foldl_heldAfter_none, heldAfter_none, Option.none_or]
    cases abandoned.findSome? fun view => view.get? path with
    | none => simp
    | some first => simp [eq_comm]
  | some known =>
    cases hnow : now.get? path with
    | none => simp [heldAfter_gone]
    | some after =>
      by_cases hsame : after = known
      · subst hsame
        rw [heldAfter_same, foldl_heldAfter_eq_known_iff]
        constructor
        · intro hall
          refine ⟨fun _ view hview => ?_, fun _ => hall⟩
          rw [hall view hview]
          exact nofun
        · rintro ⟨-, hall⟩
          exact hall rfl
      · rw [heldAfter_ne hsame]
        have hseen := foldl_heldAfter_ne_none_iff known known abandoned path
        generalize abandoned.foldl _ (some known) = held at hseen ⊢
        cases held with
        | none => simpa [hsame] using hseen
        | some held => simpa [hsame] using hseen

theorem convergesAt_of_eq {before : Option Snapshot} {abandoned : List Snapshot} {now : Snapshot}
    (h : ∀ view ∈ abandoned, view = now) (path : String) :
    ConvergesAt before abandoned now path := by
  unfold ConvergesAt
  cases fingerprint? before path with
  | none =>
    intro fingerprint hfirst
    obtain ⟨view, hview, hseen⟩ := List.exists_of_findSome?_eq_some hfirst
    rw [← h view hview]
    exact hseen
  | some known =>
    refine ⟨?_, ?_⟩
    · intro hnow view hview
      rw [h view hview]
      exact hnow
    · intro hnow view hview
      rw [h view hview]
      exact hnow

end CatalogSync
