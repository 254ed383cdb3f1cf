import CatalogSync.Bytes

namespace CatalogSync.Text

/-- The first text comes strictly before the second in byte order. -/
def before (a b : String) : Bool :=
  decide (Bytes.ofText a < Bytes.ofText b)

theorem before_irrefl (a : String) : before a a = false := by
  simp [before, List.lt_irrefl]

theorem before_trans {a b c : String} (hab : before a b = true) (hbc : before b c = true) :
    before a c = true := by
  simp only [before, decide_eq_true_eq] at *
  exact List.lt_trans hab hbc

theorem before_asymm {a b : String} (h : before a b = true) : before b a = false := by
  cases hba : before b a with
  | false => rfl
  | true =>
    have hself := before_trans h hba
    rw [before_irrefl] at hself
    cases hself

theorem eq_of_not_before {a b : String} (hab : before a b = false) (hba : before b a = false) :
    a = b := by
  simp only [before, decide_eq_false_iff_not, List.not_lt] at *
  exact Bytes.ofText_inj.mp (List.le_antisymm hba hab)

end CatalogSync.Text
