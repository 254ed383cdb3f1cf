import CatalogSync.Decimal
import Mathlib.Data.List.Induction
import Mathlib.Tactic.Ring

namespace CatalogSync

namespace Decimal

theorem foldl_eq_add_value (start : Nat) (ds : List Nat) :
    ds.foldl (fun n d => 10 * n + d) start = start * 10 ^ ds.length + value ds := by
  induction ds generalizing start with
  | nil => simp [value]
  | cons d ds ih =>
    have hvalue : value (d :: ds) = d * 10 ^ ds.length + value ds := by
      simpa [value] using ih (10 * 0 + d)
    rw [List.foldl_cons, ih, hvalue, List.length_cons, Nat.pow_succ]
    ring

theorem value_append (ds es : List Nat) :
    value (ds ++ es) = value ds * 10 ^ es.length + value es := by
  rw [value, List.foldl_append, foldl_eq_add_value, ← value]

theorem digits_value {ds : List Nat} (hne : ds ≠ []) (hds : ∀ d ∈ ds, d < 10)
    (hhead : ds.head? ≠ some 0) : digits (value ds) = ds := by
  induction ds using List.reverseRecOn with
  | nil => exact absurd rfl hne
  | append_singleton es d ih =>
    have hd : d < 10 := hds d (by simp)
    rw [value_append_singleton, digits]
    cases es with
    | nil => simp [value, hd]
    | cons e es =>
      have hdigits := ih (by simp) (fun e he => hds e (List.mem_append_left _ he)) hhead
      have hpos : value (e :: es) ≠ 0 := by
        intro hzero
        rw [hzero] at hdigits
        exact hhead (by simp [← hdigits, digits])
      rw [if_neg (by omega), show (10 * value (e :: es) + d) / 10 = value (e :: es) by omega,
        show (10 * value (e :: es) + d) % 10 = d by omega, hdigits]

theorem value_replicate_zero (count : Nat) : value (List.replicate count 0) = 0 := by
  induction count with
  | zero => rfl
  | succ count ih => rw [List.replicate_succ', value_append_singleton, ih]

theorem digitValue?_digitChar {d : Nat} (h : d < 10) : digitValue? (digitChar d) = some d :=
  (by decide : ∀ d : Fin 10, digitValue? (digitChar d) = some d.1) ⟨d, h⟩

theorem nat?_map_digitChar {ds : List Nat} (hne : ds ≠ []) (hds : ∀ d ∈ ds, d < 10) :
    nat? (ds.map digitChar) = some (value ds) := by
  have hread : (ds.map digitChar).mapM digitValue? = some ds := by
    induction ds with
    | nil => rfl
    | cons d ds ih =>
      rw [List.map_cons, List.mapM_cons, digitValue?_digitChar (hds d (by simp))]
      cases ds with
      | nil => rfl
      | cons e ds => rw [ih (by simp) fun d hd => hds d (by simp [hd])]; rfl
  simp [nat?, hne, hread]

/-- The digits of a number with zeros in front of them up to a width. -/
def paddedDigits (width n : Nat) : List Nat :=
  List.replicate (width - (digits n).length) 0 ++ digits n

theorem toList_padded (width n : Nat) :
    (padded width n).toList = (paddedDigits width n).map digitChar := by
  simp [padded, paddedDigits]

theorem value_paddedDigits (width n : Nat) : value (paddedDigits width n) = n := by
  rw [paddedDigits, value_append, value_replicate_zero, value_digits]
  omega

theorem lt_ten_of_mem_paddedDigits {width n d : Nat} (h : d ∈ paddedDigits width n) : d < 10 := by
  rcases List.mem_append.mp h with h | h
  · rw [List.eq_of_mem_replicate h]
    decide
  · exact lt_ten_of_mem_digits h

theorem length_digits_le {width n : Nat} (hwidth : 0 < width) (h : n < 10 ^ width) :
    (digits n).length ≤ width := by
  induction width generalizing n with
  | zero => omega
  | succ width ih =>
    rw [digits]
    split
    · simp
    · rename_i hn
      have hpos : 0 < width := by
        rcases Nat.eq_zero_or_pos width with rfl | hpos
        · simp at h
          omega
        · exact hpos
      have hquotient := ih hpos (show n / 10 < 10 ^ width by
        rw [Nat.pow_succ] at h
        omega)
      simpa using hquotient

theorem length_paddedDigits {width n : Nat} (hwidth : 0 < width) (h : n < 10 ^ width) :
    (paddedDigits width n).length = width := by
  have hdigits := length_digits_le hwidth h
  rw [paddedDigits, List.length_append, List.length_replicate]
  omega

theorem paddedDigits_ne_nil (width n : Nat) : paddedDigits width n ≠ [] := by
  simp [paddedDigits, digits_ne_nil]

theorem lt_ten_of_digitValue? {c : Char} {d : Nat} (h : digitValue? c = some d) :
    d < 10 ∧ c = digitChar d := by
  rw [digitValue?] at h
  split at h
  · rename_i hdigit
    cases h
    have hlow : '0'.toNat ≤ c.toNat := hdigit.1
    have hhigh : c.toNat ≤ '9'.toNat := hdigit.2
    have hnine : '9'.toNat = '0'.toNat + 9 := rfl
    refine ⟨by omega, ?_⟩
    rw [digitChar, Nat.add_sub_cancel' hlow, Char.ofNat_toNat]
  · cases h

theorem eq_map_of_mapM_digitValue? {cs : List Char} {ds : List Nat}
    (h : cs.mapM digitValue? = some ds) : (∀ d ∈ ds, d < 10) ∧ cs = ds.map digitChar := by
  induction cs generalizing ds with
  | nil =>
    cases h
    simp
  | cons c cs ih =>
    simp only [List.mapM_cons, Option.bind_eq_bind, Option.bind_eq_some_iff] at h
    obtain ⟨d, hd, rest, hrest, hsame⟩ := h
    cases hsame
    obtain ⟨hlt, rfl⟩ := lt_ten_of_digitValue? hd
    obtain ⟨hall, rfl⟩ := ih hrest
    refine ⟨?_, rfl⟩
    simpa using ⟨hlt, hall⟩

theorem nat?_eq_some_iff {cs : List Char} {n : Nat} :
    nat? cs = some n ↔
      ∃ ds : List Nat, ds ≠ [] ∧ (∀ d ∈ ds, d < 10) ∧ value ds = n ∧ cs = ds.map digitChar := by
  constructor
  · intro h
    rw [nat?] at h
    split at h
    · cases h
    rename_i hempty
    obtain ⟨ds, hread, hvalue⟩ := Option.map_eq_some_iff.mp h
    obtain ⟨hall, rfl⟩ := eq_map_of_mapM_digitValue? hread
    refine ⟨ds, ?_, hall, hvalue, rfl⟩
    rintro rfl
    exact hempty rfl
  · rintro ⟨ds, hne, hds, rfl, rfl⟩
    exact nat?_map_digitChar hne hds

/-- A number in digits, at least one, perhaps behind a plus sign. -/
def Writes (text : String) (n : Nat) : Prop :=
  ∃ ds : List Nat, ds ≠ [] ∧ (∀ d ∈ ds, d < 10) ∧ value ds = n ∧
    (text.toList = ds.map digitChar ∨ text.toList = '+' :: ds.map digitChar)

theorem digitChar_ne_plus {d : Nat} (h : d < 10) : digitChar d ≠ '+' :=
  (by decide : ∀ d : Fin 10, digitChar d ≠ '+') ⟨d, h⟩

theorem unsigned64?_eq_some_iff {text : String} {n : Nat} :
    unsigned64? text = some n ↔ Writes text n ∧ n < UInt64.size := by
  rw [unsigned64?, Option.filter_eq_some_iff, decide_eq_true_eq]
  refine and_congr_left fun _ => ?_
  split
  · rename_i rest hplus
    rw [nat?_eq_some_iff, Writes, hplus]
    constructor
    · rintro ⟨ds, hne, hds, hvalue, rfl⟩
      exact ⟨ds, hne, hds, hvalue, Or.inr rfl⟩
    · rintro ⟨ds, hne, hds, hvalue, hbare | hsigned⟩
      · obtain ⟨d, ds, rfl⟩ := List.exists_cons_of_ne_nil hne
        exact absurd (List.cons.inj hbare).1.symm (digitChar_ne_plus (hds d (by simp)))
      · exact ⟨ds, hne, hds, hvalue, (List.cons.inj hsigned).2⟩
  · rename_i hplus
    rw [nat?_eq_some_iff, Writes]
    constructor
    · rintro ⟨ds, hne, hds, hvalue, hbare⟩
      exact ⟨ds, hne, hds, hvalue, Or.inl hbare⟩
    · rintro ⟨ds, hne, hds, hvalue, hbare | hsigned⟩
      · exact ⟨ds, hne, hds, hvalue, hbare⟩
      · exact absurd hsigned (hplus _)

end Decimal

end CatalogSync
