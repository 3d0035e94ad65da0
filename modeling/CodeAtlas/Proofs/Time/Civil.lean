import CodeAtlas.Proofs.Time.Dates

/-! # Times on the calendar

What a calendar and a clock show, field by field. Each time of the calendar is one number of microseconds, and times
are compared field by field as these numbers are. So to convert a time to universal time is to find the fields of its
instant, which fails exactly if the instant is on no calendar, and times without offsets are compared as instants. -/

namespace CodeAtlas.Time

/-- A time to the microsecond on a date of the calendar. -/
structure Civil where
  date : Date
  hour : Nat
  minute : Nat
  second : Nat
  micro : Nat
  isValid : date.IsValid
  hour_lt : hour < 24
  minute_lt : minute < 60
  second_lt : second < 60
  micro_lt : micro < 1000000

variable {c c' u u' : Civil} {micros : Int} {offset? : Option Int} {t : Moment}

theorem onCalendar_iff : onCalendar micros = true ↔ 0 ≤ micros ∧ micros < 3652059 * 86400000000 := by
  rw [onCalendar, Bool.and_eq_true, decide_eq_true_eq, decide_eq_true_eq]
  rfl

namespace Civil

/-- The fields by which times are compared. -/
def fields (c : Civil) : List Nat :=
  [c.date.year, c.date.month, c.date.day, c.hour, c.minute, c.second, c.micro]

/-- Whether a time is earlier: the first field that differs decides. -/
def Before (c c' : Civil) : Prop := List.Lex (· < ·) c.fields c'.fields

/-- Microseconds since the day began. -/
def sinceMidnight (c : Civil) : Nat := ((c.hour * 60 + c.minute) * 60 + c.second) * 1000000 + c.micro

def wall (c : Civil) : Int := c.date.toDays * microsPerDay + c.sinceMidnight

/-- The time with an offset, or without one. -/
def moment (c : Civil) (offset? : Option Int) : Moment := ⟨c.wall, offset?⟩

theorem sinceMidnight_lt (c : Civil) : (c.sinceMidnight : Int) < microsPerDay := by
  have hhour := c.hour_lt
  have hminute := c.minute_lt
  have hsecond := c.second_lt
  have hmicro := c.micro_lt
  simp only [sinceMidnight, microsPerDay, microsPerSecond]
  omega

theorem onCalendar_wall (c : Civil) : onCalendar c.wall = true := by
  have hdays : c.date.toDays < daysBeforeYear 10000 := calc
    c.date.toDays < daysBeforeYear (c.date.year + 1) := c.isValid.toDays_lt
    _ ≤ daysBeforeYear 10000 := daysBeforeYear_mono (Nat.le_add_left 1 _) (Nat.succ_le_succ c.isValid.year.2)
  have hlast : ((daysBeforeYear 10000 : Nat) : Int) = 3652059 := by decide
  have hmidnight := c.sinceMidnight_lt
  rw [onCalendar_iff]
  simp only [wall, microsPerDay, microsPerSecond] at hmidnight ⊢
  omega

/-- The fields that are shown for a number of microseconds. -/
theorem exists_of_onCalendar (h : onCalendar micros = true) : ∃ c : Civil, c.wall = micros := by
  rw [onCalendar_iff] at h
  obtain ⟨n, rfl⟩ := Int.eq_ofNat_of_zero_le h.1
  have hday : ((n / 86400000000 : Nat) : Int) < calendarDays := by
    simp only [calendarDays]
    omega
  obtain ⟨hdate, hdays⟩ := ofDays_spec hday
  have hrest : n % 86400000000 < 86400000000 := Nat.mod_lt _ (by decide)
  have hsplit := Nat.div_add_mod n 86400000000
  generalize n % 86400000000 = rest at hrest hsplit
  refine ⟨⟨Date.ofDays (n / 86400000000), rest / 3600000000, rest / 60000000 % 60, rest / 1000000 % 60, rest % 1000000,
    hdate, ?_, ?_, ?_, ?_⟩, ?_⟩
  · omega
  · omega
  · omega
  · omega
  · simp only [Civil.wall, sinceMidnight, hdays, microsPerDay, microsPerSecond]
    omega

/-- On one date the clocks decide. -/
theorem sinceMidnight_lt_of_fields
    (h : List.Lex (· < ·) [c.hour, c.minute, c.second, c.micro] [c'.hour, c'.minute, c'.second, c'.micro]) :
    c.sinceMidnight < c'.sinceMidnight := by
  simp only [List.cons_lex_cons_iff, List.not_lex_nil, and_false, or_false] at h
  have hminute := c.minute_lt
  have hsecond := c.second_lt
  have hmicro := c.micro_lt
  simp only [sinceMidnight]
  omega

theorem Before.wall_lt (h : c.Before c') : c.wall < c'.wall := by
  have hmidnight := c.sinceMidnight_lt
  simp only [Before, fields, List.cons_lex_cons_iff (a := c.date.year), List.cons_lex_cons_iff (a := c.date.month),
    List.cons_lex_cons_iff (a := c.date.day)] at h
  have hcases : c.date.toDays < c'.date.toDays ∨
      c.date.toDays = c'.date.toDays ∧ c.sinceMidnight < c'.sinceMidnight := by
    rcases h with hyear | ⟨hyear, hmonth | ⟨hmonth, hday | ⟨hday, hclock⟩⟩⟩
    · exact .inl (toDays_lt_of_before c.isValid (.inl hyear))
    · exact .inl (toDays_lt_of_before c.isValid (.inr ⟨hyear, .inl hmonth⟩))
    · exact .inl (toDays_lt_of_before c.isValid (.inr ⟨hyear, .inr ⟨hmonth, hday⟩⟩))
    · exact .inr ⟨by rw [Date.toDays, Date.toDays, hyear, hmonth, hday], sinceMidnight_lt_of_fields hclock⟩
  simp only [wall, microsPerDay, microsPerSecond] at *
  omega

theorem wall_eq_of_fields (h : c.fields = c'.fields) : c.wall = c'.wall := by
  simp only [fields, List.cons.injEq, and_true] at h
  obtain ⟨hyear, hmonth, hday, hhour, hminute, hsecond, hmicro⟩ := h
  simp only [wall, Date.toDays, sinceMidnight, hyear, hmonth, hday, hhour, hminute, hsecond, hmicro]

/-- Of two times one is earlier, unless all fields are the same. -/
theorem before_or_before (h : c.fields ≠ c'.fields) : c.Before c' ∨ c'.Before c := by
  simp only [fields, ne_eq, List.cons.injEq, and_true] at h
  simp only [Before, fields, List.cons_lex_cons_iff, List.not_lex_nil, and_false, or_false]
  omega

theorem fields_eq_iff : c.fields = c'.fields ↔ c.wall = c'.wall := by
  refine ⟨wall_eq_of_fields, fun h => Decidable.byContradiction fun hne => ?_⟩
  rcases before_or_before hne with hlt | hlt
  · exact Int.ne_of_lt hlt.wall_lt h
  · exact Int.ne_of_lt hlt.wall_lt h.symm

/-- Times are compared field by field as they are compared by their microseconds. -/
theorem before_iff : c.Before c' ↔ c.wall < c'.wall := by
  refine ⟨Before.wall_lt, fun h => ?_⟩
  have hne : c.fields ≠ c'.fields := fun he => Int.ne_of_lt h (wall_eq_of_fields he)
  rcases before_or_before hne with hlt | hlt
  · exact hlt
  · exact absurd h (Int.not_lt.mpr (Int.le_of_lt hlt.wall_lt))

end Civil

/-! ## Universal time -/

/-- What the conversions to universal time make of a time. -/
structure Converts (t : Moment) : Prop where
  toUtc_fails : t.toUtc = .error .outOfRange ↔ t.offset?.isSome = true ∧ ∀ u : Civil, u.wall ≠ t.instant
  toNaiveUtc_fails : t.toNaiveUtc = .error .outOfRange ↔ t.offset?.isSome = true ∧ ∀ u : Civil, u.wall ≠ t.instant
  toUtc : ∀ u : Civil, u.wall = t.instant → t.toUtc = .ok (u.moment (some 0))
  toNaiveUtc : ∀ u : Civil, u.wall = t.instant → t.toNaiveUtc = .ok (u.moment none)
  toUtc_instant : ∀ v, t.toUtc = .ok v → v.instant = t.instant
  toNaiveUtc_instant : ∀ v, t.toNaiveUtc = .ok v → v.instant = t.instant
  naive_first : (t.toNaiveUtc >>= Moment.toUtc) = t.toUtc
  utc_first : (t.toUtc >>= Moment.toNaiveUtc) = t.toNaiveUtc

namespace Moment

theorem toUtc_of_onCalendar (h : onCalendar t.instant = true) : t.toUtc = .ok ⟨t.instant, some 0⟩ := by
  obtain ⟨wall, _ | offset⟩ := t
  · simp [toUtc, instant]
  · simp [toUtc, ofInstant, h]

/-- What universal time shows of a time is its instant. -/
theorem eq_of_toUtc {v : Moment} (h : t.toUtc = .ok v) : v = ⟨t.instant, some 0⟩ := by
  obtain ⟨wall, _ | offset⟩ := t
  · cases h
    simp [instant]
  · simp only [toUtc] at h
    split at h
    · cases h
      rfl
    · cases h

theorem toNaiveUtc_of_onCalendar (h : onCalendar t.instant = true) : t.toNaiveUtc = .ok ⟨t.instant, none⟩ := by
  obtain ⟨wall, _ | offset⟩ := t
  · simp [toNaiveUtc, instant]
  · simp [toNaiveUtc, h]

theorem fails_of_not_onCalendar (h : onCalendar t.instant = false) (hoffset : t.offset?.isSome = true) :
    t.toUtc = .error .outOfRange ∧ t.toNaiveUtc = .error .outOfRange := by
  obtain ⟨wall, _ | offset⟩ := t
  · cases hoffset
  · exact ⟨by simp [toUtc, h], by simp [toNaiveUtc, h]⟩

end Moment

@[simp] theorem instant_moment_none (u : Civil) : (u.moment none).instant = u.wall := Int.sub_zero _

theorem converts_of_onCalendar (h : onCalendar t.instant = true) : Converts t := by
  have hutc := Moment.toUtc_of_onCalendar h
  have hnaive := Moment.toNaiveUtc_of_onCalendar h
  obtain ⟨u, hu⟩ := Civil.exists_of_onCalendar h
  have hsame : (⟨t.instant, some 0⟩ : Moment).instant = t.instant := Int.sub_zero _
  have hno : ¬ (t.offset?.isSome = true ∧ ∀ u : Civil, u.wall ≠ t.instant) := fun hfails => hfails.2 u hu
  refine ⟨iff_of_false (by simp [hutc]) hno, iff_of_false (by simp [hnaive]) hno, fun v hv => ?_, fun v hv => ?_,
    fun v hv => ?_, fun v hv => ?_, ?_, ?_⟩
  · rw [hutc, Civil.moment, hv]
  · rw [hnaive, Civil.moment, hv]
  · rw [Moment.eq_of_toUtc hv, hsame]
  · cases hnaive.symm.trans hv
    exact Int.sub_zero _
  · rw [hnaive, hutc]
    rfl
  · rw [hutc, hnaive]
    exact (Moment.toNaiveUtc_of_onCalendar (hsame ▸ h)).trans (by rw [hsame])

theorem converts_of_not_onCalendar (h : onCalendar t.instant = false) (hoffset : t.offset?.isSome = true) :
    Converts t := by
  obtain ⟨hutc, hnaive⟩ := Moment.fails_of_not_onCalendar h hoffset
  have hno (u : Civil) : u.wall ≠ t.instant := by
    intro hu
    rw [← hu, u.onCalendar_wall] at h
    cases h
  refine ⟨iff_of_true hutc ⟨hoffset, hno⟩, iff_of_true hnaive ⟨hoffset, hno⟩, fun u hu => absurd hu (hno u),
    fun u hu => absurd hu (hno u), fun v hv => ?_, fun v hv => ?_, ?_, ?_⟩
  · cases hutc.symm.trans hv
  · cases hnaive.symm.trans hv
  · rw [hnaive, hutc]
    rfl
  · rw [hutc, hnaive]
    rfl

/-- A time on the calendar is converted to the fields of its instant, or it has an offset and no calendar shows its
instant. -/
theorem converts_moment (c : Civil) (offset? : Option Int) : Converts (c.moment offset?) := by
  cases h : onCalendar (c.moment offset?).instant with
  | true => exact converts_of_onCalendar h
  | false =>
    refine converts_of_not_onCalendar h ?_
    cases offset? with
    | none =>
      rw [instant_moment_none, c.onCalendar_wall] at h
      cases h
    | some offset => rfl

/-- Universal time without an offset, field by field, is in the order of instants. -/
structure Ordered (t t' : Moment) : Prop where
  lt : ∀ u u' : Civil, t.toNaiveUtc = .ok (u.moment none) → t'.toNaiveUtc = .ok (u'.moment none) →
    (u.Before u' ↔ t.instant < t'.instant)
  eq : ∀ u u' : Civil, t.toNaiveUtc = .ok (u.moment none) → t'.toNaiveUtc = .ok (u'.moment none) →
    (u.fields = u'.fields ↔ t.instant = t'.instant)

theorem Converts.wall_eq (h : Converts t) (hu : t.toNaiveUtc = .ok (u.moment none)) : u.wall = t.instant := by
  rw [← h.toNaiveUtc_instant _ hu, instant_moment_none]

theorem ordered_moment (c c' : Civil) (offset? offset?' : Option Int) :
    Ordered (c.moment offset?) (c'.moment offset?') where
  lt u u' hu hu' := by
    rw [Civil.before_iff, (converts_moment c offset?).wall_eq hu, (converts_moment c' offset?').wall_eq hu']
  eq u u' hu hu' := by
    rw [Civil.fields_eq_iff, (converts_moment c offset?).wall_eq hu, (converts_moment c' offset?').wall_eq hu']

end CodeAtlas.Time
