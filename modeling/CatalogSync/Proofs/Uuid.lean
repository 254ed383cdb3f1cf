import CatalogSync.Uuid
import Mathlib.Algebra.Group.Nat.Defs
import Mathlib.Data.List.Basic

namespace CatalogSync

namespace Uuid

theorem length_hexDigits (id : Uuid) : id.hexDigits.length = 32 := by
  simp [hexDigits]

theorem hexDigit_injective : ∀ a < 16, ∀ b < 16, Bytes.hexDigit a = Bytes.hexDigit b → a = b := by
  decide

theorem map_hexDigit_injective {ds es : List Nat} (hds : ∀ d ∈ ds, d < 16) (hes : ∀ e ∈ es, e < 16)
    (h : ds.map Bytes.hexDigit = es.map Bytes.hexDigit) : ds = es := by
  induction ds generalizing es with
  | nil => exact (List.map_eq_nil_iff.mp h.symm).symm
  | cons d ds ih =>
    cases es with
    | nil => cases h
    | cons e es =>
      obtain ⟨hfirst, hrest⟩ := List.cons_eq_cons.mp h
      rw [hexDigit_injective d (hds d List.mem_cons_self) e (hes e List.mem_cons_self) hfirst,
        ih (fun d hd => hds d (List.mem_cons_of_mem _ hd))
          (fun e he => hes e (List.mem_cons_of_mem _ he)) hrest]

/-- The digits in groups of 8, 4, 4, 4 and 12 with hyphens between them. -/
def grouped (cs : List Char) : List Char :=
  cs.take 8 ++ '-' :: (cs.drop 8).take 4 ++ '-' :: (cs.drop 12).take 4 ++
    '-' :: (cs.drop 16).take 4 ++ '-' :: (cs.drop 20).take 12

theorem text_eq_grouped (id : Uuid) :
    id.text = String.ofList (grouped (id.hexDigits.map Bytes.hexDigit)) := rfl

theorem grouped_injective {cs ds : List Char} (hcs : cs.length = 32) (hds : ds.length = 32)
    (h : grouped cs = grouped ds) : cs = ds := by
  have hlength : ∀ start length : Nat, ((cs.drop start).take length).length =
      ((ds.drop start).take length).length := by
    intro start length
    simp [hcs, hds]
  obtain ⟨h, h5⟩ := List.append_inj' h (by simp only [List.length_cons, hlength])
  obtain ⟨h, h4⟩ := List.append_inj' h (by simp only [List.length_cons, hlength])
  obtain ⟨h, h3⟩ := List.append_inj' h (by simp only [List.length_cons, hlength])
  obtain ⟨h1, h2⟩ := List.append_inj' h (by simp only [List.length_cons, hlength])
  have hparts : ∀ es : List Char, es.length = 32 → es = es.take 8 ++ (es.drop 8).take 4 ++
      (es.drop 12).take 4 ++ (es.drop 16).take 4 ++ (es.drop 20).take 12 := by
    intro es hes
    rw [← List.take_add, ← List.take_add, ← List.take_add, ← List.take_add,
      List.take_of_length_le (by omega)]
  rw [hparts cs hcs, hparts ds hds, h1, List.tail_eq_of_cons_eq h2, List.tail_eq_of_cons_eq h3,
    List.tail_eq_of_cons_eq h4, List.tail_eq_of_cons_eq h5]

theorem mod_pow_eq_of_digits_eq {n m : Nat} (k : Nat)
    (h : ∀ i < k, (n >>> (4 * i)) % 16 = (m >>> (4 * i)) % 16) : n % 16 ^ k = m % 16 ^ k := by
  induction k with
  | zero => rw [Nat.pow_zero, Nat.mod_one, Nat.mod_one]
  | succ k ih =>
    have hdigit := h k (Nat.lt_succ_self k)
    rw [Nat.shiftRight_eq_div_pow, Nat.shiftRight_eq_div_pow, Nat.pow_mul] at hdigit
    rw [Nat.mod_pow_succ, Nat.mod_pow_succ, ih fun i hi => h i (Nat.lt_succ_of_lt hi)]
    exact congrArg (fun digit => m % 16 ^ k + 16 ^ k * digit) hdigit

theorem hexDigits_injective {a b : Uuid} (h : a.hexDigits = b.hexDigits) : a = b := by
  have hdigits : ∀ i < 32, (a.bits.toNat >>> (4 * i)) % 16 = (b.bits.toNat >>> (4 * i)) % 16 := by
    intro i hi
    have hplace := congrArg (fun digits => digits[31 - i]?) h
    have hback : 31 - (31 - i) = i := by omega
    simpa [hexDigits, show 31 - i < 32 by omega, hback] using hplace
  have hnumber := mod_pow_eq_of_digits_eq 32 hdigits
  have ha := a.bits.isLt
  have hb := b.bits.isLt
  have hbits : a.bits = b.bits := BitVec.eq_of_toNat_eq (by omega)
  cases a
  cases b
  rw [Uuid.mk.injEq]
  exact hbits

theorem text_injective {a b : Uuid} (h : a.text = b.text) : a = b := by
  rw [text_eq_grouped, text_eq_grouped] at h
  have hchars : a.hexDigits.map Bytes.hexDigit = b.hexDigits.map Bytes.hexDigit :=
    grouped_injective (by simp [length_hexDigits]) (by simp [length_hexDigits])
      (String.ofList_injective h)
  apply hexDigits_injective
  apply map_hexDigit_injective _ _ hchars
  all_goals
    intro digit hdigit
    obtain ⟨i, -, rfl⟩ := List.mem_map.mp hdigit
    exact Nat.mod_lt _ (by decide)

theorem isEmpty_text (id : Uuid) : id.text.isEmpty = false := by
  rw [text_eq_grouped]
  have hne : grouped (id.hexDigits.map Bytes.hexDigit) ≠ [] := by
    simp [grouped]
  refine Bool.eq_false_iff.mpr fun hempty => hne ?_
  have htext := congrArg String.toList (String.isEmpty_iff.mp hempty)
  rwa [String.toList_ofList] at htext

end Uuid

namespace UuidSupply

/-- No two of the issued identifiers have the same written form. -/
def IsFresh (supply : UuidSupply) : Prop :=
  ∀ i j, i < j → j < supply.issued → (nth i).text ≠ (nth j).text

theorem IsFresh.mono {supply later : UuidSupply} (h : later.IsFresh)
    (hle : supply.issued ≤ later.issued) : supply.IsFresh := by
  intro i j hij hj
  exact h i j hij (Nat.lt_of_lt_of_le hj hle)

theorem isFresh_of_le {supply : UuidSupply} (h : supply.issued ≤ 0x4000_0000_0000_0000) :
    supply.IsFresh := by
  intro i j hij hj htext
  have hbits := congrArg Uuid.bits (Uuid.text_injective htext)
  simp only [nth, BitVec.add_right_inj] at hbits
  have hnumber := congrArg BitVec.toNat hbits
  simp only [BitVec.toNat_ofNat] at hnumber
  omega

end UuidSupply

end CatalogSync
