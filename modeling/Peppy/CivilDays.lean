-- Days and dates of the Gregorian calendar. Years are counted from the first of
-- March, so that the leap day is the last day of a year, in eras of 400 years.
import Mathlib.Tactic.IntervalCases

namespace peppy.value

/-! ## The code -/

def is_leap_year (year : Int) : Bool := year % 4 = 0 && (year % 100 ≠ 0 || year % 400 = 0)

def days_in_month (year : Int) (month : Nat) : Nat :=
  match month with
  | 1 | 3 | 5 | 7 | 8 | 10 | 12 => 31
  | 4 | 6 | 9 | 11 => 30
  | _ => if is_leap_year year then 29 else 28

/-- Days since 1970-01-01. Only `div_euclid` sees negative operands. -/
def days_from_civil (year : Int) (month day : Nat) : Int :=
  let adjusted_year := if month ≤ 2 then year - 1 else year
  let era := adjusted_year / 400
  let year_of_era := adjusted_year - era * 400
  let shifted_month : Int := if month > 2 then month - 3 else month + 9
  let day_of_year := (153 * shifted_month + 2) / 5 + day - 1
  let day_of_era := year_of_era * 365 + year_of_era / 4 - year_of_era / 100 + day_of_year
  era * 146097 + day_of_era - 719468

def civil_from_days (days : Int) : Int × Nat × Nat :=
  let shifted := days + 719468
  let era := shifted / 146097
  let day_of_era := shifted - era * 146097
  let year_of_era :=
    (day_of_era - day_of_era / 1460 + day_of_era / 36524 - day_of_era / 146096) / 365
  let year := year_of_era + era * 400
  let day_of_year := day_of_era - (365 * year_of_era + year_of_era / 4 - year_of_era / 100)
  let shifted_month := (5 * day_of_year + 2) / 153
  let day := (day_of_year - (153 * shifted_month + 2) / 5 + 1).toNat
  let month := (if shifted_month < 10 then shifted_month + 3 else shifted_month - 9).toNat
  (if month ≤ 2 then year + 1 else year, month, day)

def ValidDate (year : Int) (month day : Nat) : Prop :=
  1 ≤ month ∧ month ≤ 12 ∧ 1 ≤ day ∧ day ≤ days_in_month year month

instance (year : Int) (month day : Nat) : Decidable (ValidDate year month day) :=
  inferInstanceAs (Decidable (_ ∧ _))

/-! ## Years and months from March on -/

/-- The days before the first of March of the year. -/
def yearStart (year : Int) : Int := 365 * year + year / 4 - year / 100 + year / 400

/-- The days of a year before its month, of which March is the month 0. -/
def monthStart (month : Int) : Int := (153 * month + 2) / 5

/-- A day as its year, its month and the days of the month before it. -/
structure MarchDay where
  year : Int
  month : Int
  before : Int
  month_nonneg : 0 ≤ month
  month_lt : month < 12
  before_nonneg : 0 ≤ before
  in_month : monthStart month + before < monthStart (month + 1)
  in_year : monthStart month + before < yearStart (year + 1) - yearStart year

def MarchDay.days (m : MarchDay) : Int :=
  yearStart m.year + monthStart m.month + m.before - 719468

theorem yearStart_era (era year : Int) : yearStart (era * 400 + year) =
    era * 146097 + yearStart year := by
  unfold yearStart
  omega

variable {century four one year : Int} {day month : Nat}

theorem yearStart_of_era (h : 0 ≤ year) (h' : year < 400) :
    yearStart year = 365 * year + year / 4 - year / 100 := by
  unfold yearStart
  omega

theorem year_length (year : Int) : yearStart (year + 1) - yearStart year =
    if is_leap_year (year + 1) then 366 else 365 := by
  unfold yearStart is_leap_year
  simp only [Bool.and_eq_true, Bool.or_eq_true, decide_eq_true_eq, decide_not]
  split
  · next h => simp at h; omega
  · next h => simp at h; omega

/-- The centuries, leap cycles and years of a cycle before a year of an era. -/
theorem yearStart_split (hc : 0 ≤ century) (hc' : century < 4)
    (hf : 0 ≤ four) (hf' : four < 25) (ho : 0 ≤ one) (ho' : one < 4) :
    yearStart (100 * century + 4 * four + one) = 36524 * century + 1461 * four + 365 * one := by
  have hfour : (100 * century + 4 * four + one) / 4 = 25 * century + four := by omega
  have hhundred : (100 * century + 4 * four + one) / 100 = century := by omega
  have hera : (100 * century + 4 * four + one) / 400 = 0 := by omega
  rw [yearStart, hfour, hhundred, hera]
  omega

theorem last_of_cycle (rest : Int) (hc : 0 ≤ century) (hc' : century < 4)
    (hf : 0 ≤ four) (hf' : four < 25) (ho : 0 ≤ one) (ho' : one < 4)
    (hrest : rest < yearStart (100 * century + 4 * four + one + 1) -
      yearStart (100 * century + 4 * four + one)) :
    rest ≤ 364 ∨ (rest = 365 ∧ one = 3 ∧ (four < 24 ∨ century = 3)) := by
  rw [year_length] at hrest
  split at hrest
  · next hleap =>
    simp only [is_leap_year, Bool.and_eq_true, Bool.or_eq_true, decide_eq_true_eq] at hleap
    obtain ⟨hfour, hhundred⟩ := hleap
    have hone : one = 3 := by omega
    subst hone
    rcases hhundred with hhundred | hhundred <;> omega
  · omega

theorem year_of_split {rest : Int} (hc : 0 ≤ century) (hc' : century < 4)
    (hf : 0 ≤ four) (hf' : four < 25) (ho : 0 ≤ one) (ho' : one < 4) (hr : 0 ≤ rest)
    (hr' : rest ≤ 364 ∨ (rest = 365 ∧ one = 3 ∧ (four < 24 ∨ century = 3))) {day : Int}
    (hday : day = 36524 * century + 1461 * four + 365 * one + rest) :
    (day - day / 1460 + day / 36524 - day / 146096) / 365 = 100 * century + 4 * four + one := by
  -- the days past the whole multiples of 1460, of which one more may be full
  have hcycles : day / 1460 =
      25 * century + four + (24 * century + four + 365 * one + rest) / 1460 := by omega
  have hcenturies : day / 36524 - day / 146096 = century := by
    rcases hr' with hr' | ⟨hr', hone, hlast⟩
    · have hbelow : day / 36524 = century := by omega
      have hera : day / 146096 = 0 := by omega
      omega
    rcases (by omega : four < 24 ∨ four = 24) with hlt | heq
    · have hbelow : day / 36524 = century := by omega
      have hera : day / 146096 = 0 := by omega
      omega
    · -- the last day of the era
      have hend : day = 146096 := by omega
      subst hend
      omega
  have hover : 0 ≤ rest - (24 * century + four + 365 * one + rest) / 1460 ∧
      rest - (24 * century + four + 365 * one + rest) / 1460 ≤ 364 := by omega
  omega

theorem year_of_era_eq (day : Int) (h : 0 ≤ year) (h' : year < 400)
    (hfrom : yearStart year ≤ day) (hto : day < yearStart (year + 1)) :
    (day - day / 1460 + day / 36524 - day / 146096) / 365 = year := by
  obtain ⟨century, four, one, rfl, hc, hc', hf, hf', ho, ho'⟩ : ∃ century four one : Int,
      year = 100 * century + 4 * four + one ∧ 0 ≤ century ∧ century < 4 ∧ 0 ≤ four ∧ four < 25 ∧
        0 ≤ one ∧ one < 4 :=
    ⟨year / 100, year % 100 / 4, year % 4, by omega, by omega, by omega, by omega, by omega,
      by omega, by omega⟩
  have hstart := yearStart_split hc hc' hf hf' ho ho'
  have hrest := last_of_cycle (day - yearStart (100 * century + 4 * four + one))
    hc hc' hf hf' ho ho' (by omega)
  exact year_of_split hc hc' hf hf' ho ho' (by omega) hrest (by omega)

/-! ## Days and their months -/

theorem shifted_month_eq (m : MarchDay) :
    (5 * (monthStart m.month + m.before) + 2) / 153 = m.month := by
  have hin := m.in_month
  have hbefore := m.before_nonneg
  unfold monthStart at hin ⊢
  omega

theorem MarchDay.day_of_year_le (m : MarchDay) : monthStart m.month + m.before ≤ 365 := by
  have hin := m.in_year
  rw [year_length] at hin
  split at hin <;> omega

theorem MarchDay.era (m : MarchDay) :
    ∃ era year_of_era : Int, m.year = era * 400 + year_of_era ∧ 0 ≤ year_of_era ∧
      year_of_era < 400 ∧ m.days + 719468 = era * 146097 +
        (yearStart year_of_era + (monthStart m.month + m.before)) ∧
      0 ≤ monthStart m.month + m.before ∧
      monthStart m.month + m.before < yearStart (year_of_era + 1) - yearStart year_of_era := by
  refine ⟨m.year / 400, m.year % 400, by omega, by omega, by omega, ?_, ?_, ?_⟩
  · have hyear := yearStart_era (m.year / 400) (m.year % 400)
    rw [show m.year / 400 * 400 + m.year % 400 = m.year by omega] at hyear
    unfold MarchDay.days
    omega
  · have hbefore := m.before_nonneg
    have hmonth := m.month_nonneg
    unfold monthStart
    omega
  · have hyear := yearStart_era (m.year / 400) (m.year % 400)
    have hnext := yearStart_era (m.year / 400) (m.year % 400 + 1)
    rw [show m.year / 400 * 400 + m.year % 400 = m.year by omega] at hyear
    rw [show m.year / 400 * 400 + (m.year % 400 + 1) = m.year + 1 by omega] at hnext
    have hin := m.in_year
    omega

/-- The civil date of the day: January and February are of the next year. -/
def MarchDay.civil (m : MarchDay) : Int × Nat × Nat :=
  let month := (if m.month < 10 then m.month + 3 else m.month - 9).toNat
  (if month ≤ 2 then m.year + 1 else m.year, month, (m.before + 1).toNat)

theorem yearStart_next (h : 0 ≤ year) (h' : year < 400) :
    0 ≤ yearStart year ∧ yearStart (year + 1) ≤ 146097 := by
  unfold yearStart
  omega

theorem civil_from_days_march (m : MarchDay) : civil_from_days m.days = m.civil := by
  obtain ⟨era, year_of_era, hyear, hlow, hhigh, hdays, hday, hday'⟩ := m.era
  obtain ⟨hstart, hnext⟩ := yearStart_next hlow hhigh
  have hera : (m.days + 719468) / 146097 = era := by omega
  have hof_era : m.days + 719468 - era * 146097 =
      yearStart year_of_era + (monthStart m.month + m.before) := by omega
  have hyear_of := year_of_era_eq (yearStart year_of_era + (monthStart m.month + m.before))
    hlow hhigh (by omega) (by omega)
  have hday_of : yearStart year_of_era + (monthStart m.month + m.before) -
      (365 * year_of_era + year_of_era / 4 - year_of_era / 100) =
        monthStart m.month + m.before := by
    rw [yearStart_of_era hlow hhigh]
    omega
  have hmonth := shifted_month_eq m
  have hbefore : monthStart m.month + m.before - (153 * m.month + 2) / 5 + 1 = m.before + 1 := by
    unfold monthStart
    omega
  have hyear' : year_of_era + era * 400 = m.year := by omega
  simp only [civil_from_days, hera, hof_era, hyear_of, hday_of, hmonth, hbefore, hyear',
    MarchDay.civil]

theorem month_length (year : Int) (month : Nat) (hlow : 1 ≤ month) (hhigh : month ≤ 12)
    (hfebruary : month ≠ 2) : (days_in_month year month : Int) =
      monthStart ((if month > 2 then (month : Int) - 3 else month + 9) + 1) -
        monthStart (if month > 2 then (month : Int) - 3 else month + 9) := by
  interval_cases month <;> first | rfl | exact absurd rfl hfebruary

theorem february_length (year : Int) :
    (days_in_month year 2 : Int) = yearStart year - yearStart (year - 1) - monthStart 11 := by
  have hlength := year_length (year - 1)
  rw [Int.sub_add_cancel] at hlength
  rw [hlength]
  simp only [days_in_month, monthStart]
  split <;> rfl

theorem days_from_civil_eq (year : Int) (month day : Nat) : days_from_civil year month day =
      yearStart (if month ≤ 2 then year - 1 else year) +
        monthStart (if month > 2 then (month : Int) - 3 else month + 9) + (day - 1) - 719468 := by
  simp only [days_from_civil, yearStart, monthStart]
  generalize (if month ≤ 2 then year - 1 else year) = adjusted_year
  omega

theorem MarchDay.civil_late (m : MarchDay) (h : m.month < 10) :
    m.civil = (m.year, (m.month + 3).toNat, (m.before + 1).toNat) := by
  have hlow := m.month_nonneg
  have hmonth : ¬ (m.month + 3).toNat ≤ 2 := by omega
  simp [MarchDay.civil, h, hmonth]

theorem MarchDay.civil_early (m : MarchDay) (h : ¬ m.month < 10) :
    m.civil = (m.year + 1, (m.month - 9).toNat, (m.before + 1).toNat) := by
  have hhigh := m.month_lt
  have hmonth : (m.month - 9).toNat ≤ 2 := by omega
  simp [MarchDay.civil, h, hmonth]

theorem days_from_civil_march (m : MarchDay) : ValidDate m.civil.1 m.civil.2.1 m.civil.2.2 ∧
      days_from_civil m.civil.1 m.civil.2.1 m.civil.2.2 = m.days := by
  have hlow := m.month_nonneg
  have hhigh := m.month_lt
  have hbefore := m.before_nonneg
  have hin := m.in_month
  by_cases h : m.month < 10
  · have hcast : ((m.month + 3).toNat : Int) - 3 = m.month := by omega
    have hgt : (m.month + 3).toNat > 2 := by omega
    have hlength := month_length m.year (m.month + 3).toNat (by omega)
      (by omega) (by omega)
    simp only [hgt, if_true, hcast] at hlength
    rw [m.civil_late h]
    dsimp only
    refine ⟨⟨by omega, by omega, by omega, by omega⟩, ?_⟩
    simp only [days_from_civil_eq, hgt, if_true, hcast, Nat.not_le.mpr hgt, if_false,
      MarchDay.days]
    omega
  · have hcast : ((m.month - 9).toNat : Int) + 9 = m.month := by omega
    have hle : (m.month - 9).toNat ≤ 2 := by omega
    have hbound : (m.before + 1).toNat ≤ days_in_month (m.year + 1) (m.month - 9).toNat := by
      rcases (by omega : m.month = 10 ∨ m.month = 11) with hmonth | hmonth
      · -- January
        have hlength := month_length (m.year + 1) 1 (by omega) (by omega)
          (by omega)
        simp only [hmonth, monthStart] at hlength hin ⊢
        simp only [Nat.not_lt.mpr (by omega : 1 ≤ 2), if_false] at hlength
        have hone : ((10 : Int) - 9).toNat = 1 := rfl
        rw [hone]
        omega
      · have hlength := february_length (m.year + 1)
        have hyear := m.in_year
        rw [Int.add_sub_cancel] at hlength
        simp only [hmonth] at hyear ⊢
        have htwo : ((11 : Int) - 9).toNat = 2 := rfl
        rw [htwo]
        omega
    rw [m.civil_early h]
    dsimp only
    refine ⟨⟨by omega, by omega, by omega, hbound⟩, ?_⟩
    simp only [days_from_civil_eq, hle, if_true, Nat.not_lt.mpr hle, if_false, hcast,
      Int.add_sub_cancel, MarchDay.days]
    omega

theorem exists_march_of_date (h : ValidDate year month day) :
    ∃ m : MarchDay, m.civil = (year, month, day) := by
  obtain ⟨hlow, hhigh, hday, hday'⟩ := h
  by_cases hgt : month > 2
  · have hlength := month_length year month hlow hhigh (by omega)
    simp only [hgt, if_true] at hlength
    have hyear := year_length year
    refine ⟨⟨year, month - 3, day - 1, by omega, by omega, by omega, by omega, ?_⟩, ?_⟩
    · have hend : monthStart ((month : Int) - 3 + 1) ≤ 365 := by
        unfold monthStart
        omega
      split at hyear <;> omega
    · rw [MarchDay.civil_late _ (by simp only; omega)]
      simp only [Prod.mk.injEq, true_and]
      omega
  · have hyear := year_length (year - 1)
    rw [Int.sub_add_cancel] at hyear
    refine ⟨⟨year - 1, month + 9, day - 1, by omega, by omega, by omega, ?_, ?_⟩, ?_⟩
    · rcases (by omega : month = 1 ∨ month = 2) with rfl | rfl
      · simp only [days_in_month] at hday'
        simp only [monthStart]
        omega
      · simp only [days_in_month] at hday'
        simp only [monthStart]
        split at hday' <;> omega
    · rw [Int.sub_add_cancel]
      rcases (by omega : month = 1 ∨ month = 2) with rfl | rfl
      · simp only [days_in_month] at hday'
        simp only [monthStart]
        split at hyear <;> omega
      · have hlength := february_length year
        have helevens : ((2 : Nat) : Int) + 9 = 11 := rfl
        rw [helevens]
        omega
    · rw [MarchDay.civil_early _ (by simp only; omega)]
      simp only [Prod.mk.injEq]
      omega

theorem exists_step (f : Int → Int) {x : Int} (hfrom : f 0 ≤ x) (n : Nat) (hto : x < f n) :
    ∃ k : Int, 0 ≤ k ∧ k < n ∧ f k ≤ x ∧ x < f (k + 1) := by
  induction n with
  | zero =>
    simp only [Nat.cast_zero] at hto
    omega
  | succ n ih =>
    by_cases h : x < f n
    · obtain ⟨k, hlow, hhigh, hk⟩ := ih h
      exact ⟨k, hlow, by omega, hk⟩
    · exact ⟨n, by omega, by omega, by omega, by simpa using hto⟩

theorem exists_march_of_days (days : Int) : ∃ m : MarchDay, m.days = days := by
  have hzero : yearStart 0 = 0 := rfl
  have hlast : yearStart (400 : Nat) = 146097 := rfl
  obtain ⟨year, hlow, hhigh, hfrom, hto⟩ := exists_step yearStart
    (x := (days + 719468) % 146097) (by omega) 400 (by omega)
  have hlength := year_length year
  have hmonths : monthStart (12 : Nat) = 367 := rfl
  have hmarch : monthStart 0 = 0 := rfl
  obtain ⟨month, hmonth, hmonth', hstart, hend⟩ := exists_step monthStart
    (x := (days + 719468) % 146097 - yearStart year) (by omega) 12 (by split at hlength <;> omega)
  have hera := yearStart_era ((days + 719468) / 146097) year
  have hnext := yearStart_era ((days + 719468) / 146097) (year + 1)
  rw [← Int.add_assoc] at hnext
  refine ⟨⟨(days + 719468) / 146097 * 400 + year, month,
    (days + 719468) % 146097 - yearStart year - monthStart month, hmonth, by omega, by omega,
    by omega, by omega⟩, ?_⟩
  simp only [MarchDay.days]
  omega

theorem civil_from_days_from_civil (h : ValidDate year month day) :
    civil_from_days (days_from_civil year month day) = (year, month, day) := by
  obtain ⟨m, hm⟩ := exists_march_of_date h
  have hdays := (days_from_civil_march m).2
  rw [hm] at hdays
  rw [hdays, civil_from_days_march, hm]

theorem days_from_civil_from_days (days : Int) :
    ValidDate (civil_from_days days).1 (civil_from_days days).2.1 (civil_from_days days).2.2 ∧
      days_from_civil (civil_from_days days).1 (civil_from_days days).2.1
        (civil_from_days days).2.2 = days := by
  obtain ⟨m, rfl⟩ := exists_march_of_days days
  rw [civil_from_days_march]
  exact days_from_civil_march m

theorem days_in_month_le (year : Int) (month : Nat) : days_in_month year month ≤ 31 := by
  unfold days_in_month
  split <;> first | decide | (split <;> decide)

theorem yearStart_mono {later : Int} (h : year ≤ later) : yearStart year ≤ yearStart later := by
  unfold yearStart
  omega

theorem year_lt_iff_of (h : ValidDate year month day) (next : Int)
    (hfirst : days_from_civil next 1 1 = yearStart (next - 1) + 306 - 719468) :
    year < next ↔ days_from_civil year month day < days_from_civil next 1 1 := by
  obtain ⟨m, hm⟩ := exists_march_of_date h
  have hdays := (days_from_civil_march m).2
  rw [hm] at hdays
  rw [hdays, hfirst, MarchDay.days]
  have hday := m.day_of_year_le
  have hbefore := m.before_nonneg
  have hin := m.in_month
  have hyears (y : Int) : yearStart (y - 1) + 365 ≤ yearStart y := by
    unfold yearStart
    omega
  have hnext := hyears next
  by_cases hlate : m.month < 10
  · rw [m.civil_late hlate] at hm
    have hmonths : monthStart (m.month + 1) ≤ 306 := by
      unfold monthStart
      omega
    have hmarch : 0 ≤ monthStart m.month := by
      have := m.month_nonneg
      unfold monthStart
      omega
    have hyear : m.year = year := congrArg Prod.fst hm
    constructor
    · intro hlt
      have := yearStart_mono (show m.year ≤ next - 1 by omega)
      omega
    · intro hlt
      by_contra hge
      have := yearStart_mono (show next ≤ m.year by omega)
      omega
  · rw [m.civil_early hlate] at hm
    have hmonths : 306 ≤ monthStart m.month := by
      unfold monthStart
      omega
    have hyear : m.year + 1 = year := congrArg Prod.fst hm
    have hprevious := hyears (next - 1)
    constructor
    · intro hlt
      have := yearStart_mono (show m.year ≤ next - 1 - 1 by omega)
      omega
    · intro hlt
      by_contra hge
      have := yearStart_mono (show next - 1 ≤ m.year by omega)
      omega

theorem year_lt_iff (h : ValidDate year month day) :
    year < 10000 ↔ days_from_civil year month day < days_from_civil 10000 1 1 :=
  year_lt_iff_of h 10000 rfl

theorem year_nonneg (h : ValidDate year month day)
    (hdays : 0 ≤ days_from_civil year month day) : 0 ≤ year := by
  have hiff := year_lt_iff_of h 0 rfl
  have hfirst : days_from_civil 0 1 1 < 0 := by decide
  omega

end peppy.value
