import CatalogSync.Time.Calendar

namespace CatalogSync.Time

theorem yearOfCentury_div {doe year century : Int} (hcentury : 0 ≤ century ∧ century ≤ 3)
    (hdoe : 36524 * century ≤ doe ∧ doe < 36524 * century + 36524)
    (hyear : year = (doe - doe / 1460 + century) / 365) : year / 100 = century := by
  obtain rfl | rfl | rfl | rfl : century = 0 ∨ century = 1 ∨ century = 2 ∨ century = 3 := by omega
  all_goals omega

theorem block_eq_or {doe year century : Int} (hcentury : 0 ≤ century ∧ century ≤ 3)
    (hdoe : 36524 * century ≤ doe ∧ doe < 36524 * century + 36524)
    (hyear : year = (doe - doe / 1460 + century) / 365) :
    doe / 1460 = year / 4 ∨ doe / 1460 = year / 4 + 1 := by
  obtain rfl | rfl | rfl | rfl : century = 0 ∨ century = 1 ∨ century = 2 ∨ century = 3 := by omega
  all_goals omega

theorem dayOfYear_bounds {doe year : Int} (hdoe : 0 ≤ doe ∧ doe < 146097)
    (hyear : year = (doe - doe / 1460 + doe / 36524 - doe / 146096) / 365) :
    0 ≤ year ∧ year < 400 ∧ 0 ≤ doe - (365 * year + year / 4 - year / 100) ∧
      doe - (365 * year + year / 4 - year / 100) ≤ 365 := by
  by_cases hlast : doe = 146096
  · subst hlast
    omega
  · have hcentury : 0 ≤ doe / 36524 ∧ doe / 36524 ≤ 3 := by omega
    have hrange : 36524 * (doe / 36524) ≤ doe ∧ doe < 36524 * (doe / 36524) + 36524 := by omega
    have hyear' : year = (doe - doe / 1460 + doe / 36524) / 365 := by omega
    have hdiv := yearOfCentury_div hcentury hrange hyear'
    have hblock := block_eq_or hcentury hrange hyear'
    rw [hdiv]
    generalize doe / 36524 = century at *
    obtain rfl | rfl | rfl | rfl : century = 0 ∨ century = 1 ∨ century = 2 ∨ century = 3 := by
      omega
    all_goals rcases hblock with hblock | hblock <;> omega

theorem toDays_of_parts {era year doy month : Int} (hyear : 0 ≤ year ∧ year < 400)
    (hmonth : 0 ≤ month ∧ month ≤ 11) (hday : (153 * month + 2) / 5 ≤ doy) :
    Date.toDays
      ⟨if (if month < 10 then month + 3 else month - 9) ≤ 2 then year + era * 400 + 1
        else year + era * 400,
        (if month < 10 then month + 3 else month - 9).toNat,
        (doy - (153 * month + 2) / 5 + 1).toNat⟩ =
      era * 146097 + (year * 365 + year / 4 - year / 100 + doy) - 719468 := by
  have hdiv : (year + era * 400) / 400 = era := by omega
  have hmod : (year + era * 400) % 400 = year := by omega
  have hnat : ((doy - (153 * month + 2) / 5 + 1).toNat : Int) =
      doy - (153 * month + 2) / 5 + 1 := by omega
  by_cases hlate : month < 10
  · have hshift : ((((month + 3).toNat + 9) % 12 : Nat) : Int) = month := by omega
    have hlarge : ¬ (month + 3) ≤ 2 := by omega
    have hlarge' : ¬ (month + 3).toNat ≤ 2 := by omega
    simp only [Date.toDays, hlate, if_true, hlarge, hlarge', if_false, hdiv, hmod, hnat, hshift]
    omega
  · have hshift : ((((month - 9).toNat + 9) % 12 : Nat) : Int) = month := by omega
    have hsmall : (month - 9) ≤ 2 := by omega
    have hsmall' : (month - 9).toNat ≤ 2 := by omega
    have hstart : year + era * 400 + 1 - 1 = year + era * 400 := by omega
    simp only [Date.toDays, hlate, if_true, hsmall, hsmall', if_false, hstart, hdiv, hmod, hnat,
      hshift]
    omega

theorem Date.toDays_ofDays (days : Int) : (Date.ofDays days).toDays = days := by
  have hdoe : 0 ≤ (days + 719468) % 146097 ∧ (days + 719468) % 146097 < 146097 := by omega
  obtain ⟨hlow, hhigh, hfirst, hlast⟩ := dayOfYear_bounds hdoe rfl
  have hmonth : ∀ doy : Int, 0 ≤ doy → doy ≤ 365 →
      (0 ≤ (5 * doy + 2) / 153 ∧ (5 * doy + 2) / 153 ≤ 11) ∧
        (153 * ((5 * doy + 2) / 153) + 2) / 5 ≤ doy := by
    intro doy _ _
    omega
  obtain ⟨hbounds, hday⟩ := hmonth _ hfirst hlast
  refine (toDays_of_parts ⟨hlow, hhigh⟩ hbounds hday).trans ?_
  omega

end CatalogSync.Time
