import Mathlib.Algebra.GroupWithZero.Nat
import Mathlib.Data.List.Forall2

namespace CatalogSync

variable {α β γ : Type}

section Maps

theorem mapM_eq_some_iff_forall₂ {f : α → Option β} {items : List α} {values : List β} :
    items.mapM f = some values ↔
      List.Forall₂ (fun item value => f item = some value) items values := by
  induction items generalizing values with
  | nil => simp [eq_comm]
  | cons item items ih =>
    rw [List.mapM_cons, List.forall₂_cons_left_iff]
    simp only [Option.bind_eq_bind, Option.bind_eq_some_iff, Option.pure_def, Option.some.injEq]
    constructor
    · rintro ⟨value, hvalue, rest, hrest, rfl⟩
      exact ⟨value, rest, hvalue, ih.mp hrest, rfl⟩
    · rintro ⟨value, rest, hvalue, hrest, rfl⟩
      exact ⟨value, hvalue, rest, ih.mpr hrest, rfl⟩

theorem mapM_map_eq_some {f : α → β} {read : β → Option γ} {g : α → γ}
    (h : ∀ item, read (f item) = some (g item)) (items : List α) :
    (items.map f).mapM read = some (items.map g) := by
  induction items with
  | nil => rfl
  | cons item items ih =>
    rw [List.map_cons, List.mapM_cons, h, ih]
    rfl

theorem mapM_eq_some_filterMap {f g : α → Option β} {items : List α}
    (h : ∀ item ∈ items, ∃ value, f item = some value ∧ g item = some value) :
    items.mapM f = some (items.filterMap g) := by
  induction items with
  | nil => rfl
  | cons item items ih =>
    obtain ⟨value, hf, hg⟩ := h item List.mem_cons_self
    rw [List.mapM_cons, hf, ih fun other hother => h other (List.mem_cons_of_mem _ hother),
      List.filterMap_cons, hg]
    rfl

theorem exists_forall₂_and_iff {R : α → β → Prop} {S : β → γ → Prop} {xs : List α} {zs : List γ} :
    (∃ ys, List.Forall₂ R xs ys ∧ List.Forall₂ S ys zs) ↔
      List.Forall₂ (fun x z => ∃ y, R x y ∧ S y z) xs zs := by
  constructor
  · rintro ⟨ys, hxs, hzs⟩
    induction hxs generalizing zs with
    | nil =>
      cases hzs
      exact .nil
    | cons hfirst _ ih =>
      cases hzs with
      | cons hsecond hrest => exact .cons ⟨_, hfirst, hsecond⟩ (ih hrest)
  · intro h
    induction h with
    | nil => exact ⟨[], .nil, .nil⟩
    | cons hboth _ ih =>
      obtain ⟨y, hfirst, hsecond⟩ := hboth
      obtain ⟨ys, hxs, hzs⟩ := ih
      exact ⟨y :: ys, .cons hfirst hxs, .cons hsecond hzs⟩

theorem filterMap_ite (p : α → Prop) [DecidablePred p] (f : α → β) (items : List α) :
    (items.filterMap fun item => if p item then some (f item) else none) =
      (items.filter fun item => p item).map f := by
  rw [← List.filterMap_eq_map, List.filterMap_filter]
  simp only [decide_eq_true_eq, Function.comp_apply]

end Maps

section Entries

theorem map_set_self {items : List α} {index : Nat} {item new : α} {f : α → β}
    (h : items[index]? = some item) (hsame : f new = f item) :
    (items.set index new).map f = items.map f := by
  obtain ⟨hlt, rfl⟩ := List.getElem?_eq_some_iff.mp h
  rw [List.map_set, hsame, ← List.getElem_map f (h := by simpa using hlt), List.set_getElem_self]

theorem sum_set_lt {items : List Nat} {index new : Nat} {item : Nat}
    (h : items[index]? = some item) (hlt : new < item) : (items.set index new).sum < items.sum := by
  induction items generalizing index with
  | nil => cases h
  | cons first rest ih =>
    cases index with
    | zero =>
      cases h
      simp only [List.set_cons_zero, List.sum_cons]
      exact Nat.add_lt_add_right hlt rest.sum
    | succ index =>
      simp only [List.set_cons_succ, List.sum_cons]
      exact Nat.add_lt_add_left (ih h) first

theorem getElem?_concat_eq (items : List α) (new : α) (index : Nat) :
    (items ++ [new])[index]? = if index = items.length then some new else items[index]? := by
  rcases Nat.lt_trichotomy index items.length with hlt | rfl | hgt
  · rw [List.getElem?_append_left hlt, if_neg (Nat.ne_of_lt hlt)]
  · rw [List.getElem?_concat_length, if_pos rfl]
  · rw [List.getElem?_eq_none (by simpa using Nat.succ_le_of_lt hgt),
      List.getElem?_eq_none (Nat.le_of_lt hgt), if_neg (Nat.ne_of_gt hgt)]

theorem getElem?_concat {items : List α} {item new : α} {index : Nat}
    (h : (items ++ [new])[index]? = some item) :
    items[index]? = some item ∨ index = items.length ∧ item = new := by
  rw [getElem?_concat_eq] at h
  split at h
  · rename_i hlast
    exact Or.inr ⟨hlast, (Option.some.inj h).symm⟩
  · exact Or.inl h

theorem length_filter_le_one {f : α → Nat} {items : List α} {p : α → Bool}
    (h : items.Pairwise fun before after => f before < f after) (k : Nat)
    (hp : ∀ item, p item = true → f item = k) : (items.filter p).length ≤ 1 := by
  have hpairs := h.filter p
  match hitems : items.filter p with
  | [] => simp
  | [_] => simp
  | first :: second :: _ =>
    rw [hitems] at hpairs
    have hlt := (List.pairwise_cons.mp hpairs).1 second List.mem_cons_self
    have hmem : ∀ item ∈ items.filter p, f item = k := fun item hitem =>
      hp item (List.of_mem_filter hitem)
    have hfirst := hmem first (by simp [hitems])
    have hsecond := hmem second (by simp [hitems])
    omega

end Entries

end CatalogSync
