import CodeAtlas.Time.Moment
import CodeAtlas.Time.Calendar
import Mathlib.Data.Nat.Init

/-! # Dates as days

Days since year 1 began count the dates of the calendar: every day has one date, later days have later dates, and the
date of a day is the one that is shown for it. -/

namespace CodeAtlas.Time

variable {d d' : Date} {year month days : Nat}

/-! ## Years and months -/

theorem isLeap_iff : isLeap year = true ↔ 4 ∣ year ∧ (¬ 100 ∣ year ∨ 400 ∣ year) := by
  simp [isLeap, Nat.dvd_iff_mod_eq_zero]

def daysInYear (year : Nat) : Nat := if isLeap year then 366 else 365

/-- A year has one day more than its 365 if four divides it, but a hundred does not, unless four hundred does. -/
theorem daysBeforeYear_succ (y : Nat) : daysBeforeYear (y + 2) = daysBeforeYear (y + 1) + daysInYear (y + 1) := by
  have h100 : 100 ∣ y + 1 → 4 ∣ y + 1 := Nat.dvd_trans (by decide)
  have h400 : 400 ∣ y + 1 → 100 ∣ y + 1 := Nat.dvd_trans (by decide)
  have hle : y / 100 ≤ y / 4 := Nat.div_le_div_left (by decide) (by decide)
  simp only [daysBeforeYear, daysInYear, show y + 2 - 1 = y + 1 from rfl, Nat.add_sub_cancel, Nat.succ_div, isLeap_iff]
  generalize y / 4 = a at *
  generalize y / 100 = b at *
  generalize y / 400 = c at *
  by_cases h4 : 4 ∣ y + 1
  · by_cases hc : 100 ∣ y + 1
    · by_cases hq : 400 ∣ y + 1
      · simp only [h4, hc, hq, if_true, not_true, or_true, and_true]
        omega
      · simp only [h4, hc, hq, if_true, if_false, not_true, or_false, and_false]
        omega
    · have hq := mt h400 hc
      simp only [h4, hc, hq, if_true, if_false, not_false_eq_true, or_false, and_true]
      omega
  · have hc := mt h100 h4
    have hq := mt h400 hc
    simp only [h4, hc, hq, if_false, false_and]
    omega

theorem daysBeforeYear_next (h : 1 ≤ year) : daysBeforeYear (year + 1) = daysBeforeYear year + daysInYear year := by
  obtain ⟨y, rfl⟩ := Nat.exists_eq_add_of_le' h
  exact daysBeforeYear_succ y

theorem daysBeforeYear_mono {year' : Nat} (h : 1 ≤ year) (hle : year ≤ year') :
    daysBeforeYear year ≤ daysBeforeYear year' := by
  induction hle with
  | refl => exact Nat.le_refl _
  | step hle ih =>
    rw [Nat.succ_eq_add_one, daysBeforeYear_next (Nat.le_trans h hle)]
    exact Nat.le_add_right_of_le ih

theorem daysBeforeMonth_next (year : Nat) (h : 1 ≤ month) :
    daysBeforeMonth year (month + 1) = daysBeforeMonth year month + daysInMonth year month := by
  obtain ⟨m, rfl⟩ := Nat.exists_eq_add_of_le' h
  simp [daysBeforeMonth, List.range_succ]

theorem daysBeforeMonth_mono (year : Nat) {month' : Nat} (h : 1 ≤ month) (hle : month ≤ month') :
    daysBeforeMonth year month ≤ daysBeforeMonth year month' := by
  induction hle with
  | refl => exact Nat.le_refl _
  | step hle ih =>
    rw [Nat.succ_eq_add_one, daysBeforeMonth_next year (Nat.le_trans h hle)]
    exact Nat.le_add_right_of_le ih

/-- Twelve months make a year. -/
theorem daysBeforeMonth_thirteen (year : Nat) : daysBeforeMonth year 13 = daysInYear year := by
  simp only [daysBeforeMonth, daysInMonth, daysInYear]
  cases isLeap year <;> rfl

/-! ## Dates -/

/-- The dates of the calendar. -/
structure Date.IsValid (d : Date) : Prop where
  year : 1 ≤ d.year ∧ d.year ≤ 9999
  month : 1 ≤ d.month ∧ d.month ≤ 12
  day : 1 ≤ d.day ∧ d.day ≤ daysInMonth d.year d.month

/-- The day of a date within its year. -/
theorem Date.IsValid.dayOfYear_lt (h : d.IsValid) :
    daysBeforeMonth d.year d.month + (d.day - 1) < daysBeforeMonth d.year (d.month + 1) := by
  have hday := h.day
  rw [daysBeforeMonth_next d.year h.month.1]
  omega

theorem Date.IsValid.toDays_lt (h : d.IsValid) : d.toDays < daysBeforeYear (d.year + 1) := by
  have hday := h.dayOfYear_lt
  have hmonth := daysBeforeMonth_mono d.year (Nat.le_add_left 1 d.month) (Nat.add_le_add_right h.month.2 1)
  rw [daysBeforeMonth_thirteen] at hmonth
  rw [daysBeforeYear_next h.year.1, Date.toDays]
  omega

/-- Later dates are later days. -/
theorem toDays_lt_of_before (h : d.IsValid) (hlt : d.year < d'.year ∨ d.year = d'.year ∧
    (d.month < d'.month ∨ d.month = d'.month ∧ d.day < d'.day)) : d.toDays < d'.toDays := by
  rcases hlt with hyear | ⟨hyear, hmonth | ⟨hmonth, hday⟩⟩
  · calc d.toDays < daysBeforeYear (d.year + 1) := h.toDays_lt
      _ ≤ daysBeforeYear d'.year := daysBeforeYear_mono (Nat.le_add_left 1 d.year) hyear
      _ ≤ d'.toDays := by rw [Date.toDays, Nat.add_assoc]; exact Nat.le_add_right _ _
  · have hlast := h.dayOfYear_lt
    have hmono := daysBeforeMonth_mono d.year (Nat.le_add_left 1 d.month) hmonth
    rw [Date.toDays, Date.toDays, ← hyear]
    omega
  · have hfirst := h.day.1
    rw [Date.toDays, Date.toDays, ← hyear, ← hmonth]
    omega

/-! ## The date of a day -/

/-- The day of a year is found in the month to whose days it belongs. -/
theorem monthAndDay_spec {fuel day : Nat} (hmonth : 1 ≤ month) (hfuel : month + fuel = 13)
    (hday : daysBeforeMonth year month + day < daysInYear year) :
    let found := monthAndDay year fuel month day
    (1 ≤ found.1 ∧ found.1 ≤ 12) ∧ (1 ≤ found.2 ∧ found.2 ≤ daysInMonth year found.1) ∧
      daysBeforeMonth year found.1 + (found.2 - 1) = daysBeforeMonth year month + day := by
  induction fuel generalizing month day with
  | zero =>
    obtain rfl : month = 13 := hfuel
    rw [daysBeforeMonth_thirteen] at hday
    omega
  | succ fuel ih =>
    simp only [monthAndDay]
    split
    · next hlt => exact ⟨⟨hmonth, by omega⟩, ⟨Nat.succ_pos day, hlt⟩, rfl⟩
    · next hlt =>
      have hnext := daysBeforeMonth_next year hmonth
      have hsum : daysBeforeMonth year (month + 1) + (day - daysInMonth year month) =
        daysBeforeMonth year month + day := by omega
      rw [← hsum]
      exact ih (by omega) (by omega) (hsum ▸ hday)

/-- From a year that has begun, the search goes on to the year of the day, or as far as it may. -/
theorem exists_foldl_year (n : Nat) (h : daysBeforeYear year ≤ days) :
    let y := (List.range n).foldl (fun y _ => if daysBeforeYear (y + 1) ≤ days then y + 1 else y) year
    year ≤ y ∧ daysBeforeYear y ≤ days ∧ (days < daysBeforeYear (y + 1) ∨ y = year + n) := by
  induction n with
  | zero => exact ⟨Nat.le_refl _, h, .inr rfl⟩
  | succ n ih =>
    rw [List.range_succ, List.foldl_append]
    obtain ⟨hle, hbegun, hend⟩ := ih
    simp only [List.foldl_cons, List.foldl_nil]
    split
    · next hnext =>
      refine ⟨Nat.le_succ_of_le hle, hnext, .inr ?_⟩
      rcases hend with hlt | he
      · exact absurd hlt (Nat.not_lt.mpr hnext)
      · rw [he, Nat.add_assoc]
    · next hnext => exact ⟨hle, hbegun, .inl (Nat.not_le.mp hnext)⟩

/-- What is shown for a day of the calendar is its date. -/
theorem ofDays_spec (h : (days : Int) < calendarDays) :
    (Date.ofDays days).IsValid ∧ (Date.ofDays days).toDays = days := by
  have hdays : days < daysBeforeYear 10000 := by
    have hlast : ((daysBeforeYear 10000 : Nat) : Int) = calendarDays := by decide
    omega
  have hguess : daysBeforeYear (days / 366 + 1) ≤ days := by
    simp only [daysBeforeYear, Nat.add_sub_cancel]
    omega
  obtain ⟨hle, hbegun, hend⟩ := exists_foldl_year 60 hguess
  simp only [Date.ofDays]
  generalize (List.range 60).foldl (fun y _ => if daysBeforeYear (y + 1) ≤ days then y + 1 else y)
    (days / 366 + 1) = year at *
  have hlt : days < daysBeforeYear (year + 1) := by
    refine hend.resolve_right ?_
    rintro rfl
    simp only [daysBeforeYear] at hbegun hdays
    omega
  have hyear : year ≤ 9999 := by
    refine Nat.le_of_not_lt fun hlarge => ?_
    have hmono : daysBeforeYear 10000 ≤ daysBeforeYear year := daysBeforeYear_mono (by decide) hlarge
    omega
  rw [daysBeforeYear_next (by omega)] at hlt
  have hfirst : daysBeforeMonth year 1 = 0 := rfl
  obtain ⟨hmonth, hday, hsum⟩ := @monthAndDay_spec year 1 12 (days - daysBeforeYear year) (by decide) rfl (by omega)
  rw [hfirst, Nat.zero_add] at hsum
  refine ⟨⟨⟨Nat.le_trans (Nat.le_add_left 1 _) hle, hyear⟩, hmonth, hday⟩, ?_⟩
  rw [Date.toDays, Nat.add_assoc, hsum]
  exact Nat.add_sub_cancel' hbegun

end CodeAtlas.Time
