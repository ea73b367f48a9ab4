import Mathlib.Tactic.IntervalCases
import Mathlib.Data.Nat.Notation

/-! # The calendar

Days are counted from 1 March of the year 0, in eras of 400 years; years begin in March, so that the
day that some years have more is their last one. -/

namespace Payflow.Lib

/-- A date, by its year that begins in March, its month counted from March, and its day. -/
structure MarchDate where
  year : ℕ
  month : ℕ
  day : ℕ

/-- The year of an era in which a day of it lies. -/
def yearOfEra (doe : ℕ) : ℕ := (doe - doe / 1460 + doe / 36524 - doe / 146096) / 365

/-- The days of an era before a year. -/
def daysBefore (yoe : ℕ) : ℕ := 365 * yoe + yoe / 4 - yoe / 100

/-- The date of a day. -/
def dateOf (z : ℕ) : MarchDate :=
  let doe := z % 146097
  let yoe := yearOfEra doe
  let doy := doe - daysBefore yoe
  let mp := (5 * doy + 2) / 153
  ⟨yoe + z / 146097 * 400, mp, doy - (153 * mp + 2) / 5 + 1⟩

/-- The day of a date. -/
def dayOf (d : MarchDate) : ℕ :=
  d.year / 400 * 146097 + daysBefore (d.year % 400) + ((153 * d.month + 2) / 5 + d.day - 1)

/-- The centuries of an era, of which the last one is a day longer. -/
theorem century_of_year {doe : ℕ} (h : doe < 146097) :
    yearOfEra doe / 100 = doe / 36524 - doe / 146096 := by
  unfold yearOfEra
  have hcentury : doe / 36524 ≤ 4 := by omega
  have hlast : doe / 146096 ≤ 1 := by omega
  interval_cases hc : doe / 36524 <;> interval_cases hl : doe / 146096 <;> omega

theorem yearOfEra_spec {doe : ℕ} (h : doe < 146097) : yearOfEra doe < 400 ∧
    daysBefore (yearOfEra doe) ≤ doe ∧ doe ≤ daysBefore (yearOfEra doe) + 365 := by
  have hyear := century_of_year h
  unfold daysBefore
  rw [hyear]
  unfold yearOfEra at hyear ⊢
  have hcentury : doe / 36524 ≤ 4 := by omega
  have hlast : doe / 146096 ≤ 1 := by omega
  interval_cases hc : doe / 36524 <;> interval_cases hl : doe / 146096 <;> omega

theorem month_dateOf (z : ℕ) : (dateOf z).month ≤ 11 := by
  obtain ⟨-, hle, hge⟩ := yearOfEra_spec (Nat.mod_lt z (by omega : 0 < 146097))
  show (5 * (z % 146097 - daysBefore (yearOfEra (z % 146097))) + 2) / 153 ≤ 11
  omega

/-- **The day of a date** is the one that the date was made of. -/
theorem dayOf_dateOf (z : ℕ) : dayOf (dateOf z) = z := by
  obtain ⟨hyear, hle, hge⟩ := yearOfEra_spec (Nat.mod_lt z (by omega : 0 < 146097))
  unfold dayOf dateOf
  simp only
  have hera : (yearOfEra (z % 146097) + z / 146097 * 400) / 400 = z / 146097 := by omega
  have hrest : (yearOfEra (z % 146097) + z / 146097 * 400) % 400 = yearOfEra (z % 146097) := by
    omega
  rw [hera, hrest]
  omega

end Payflow.Lib
