-- Times as RFC 3339 texts in UTC, with the nanoseconds of the wire.
import Peppy.CivilDays
import Peppy.Lib.Decimal
import Peppy.WireTime

open decimal peppy.encoding List Option

namespace peppy.value

/-! ## Rendering -/

def SECONDS_PER_DAY : Nat := 86400

def dateText (year month day : Nat) : List Char :=
  padded 4 year ++ '-' :: (padded 2 month ++ '-' :: padded 2 day)

def clockText (hour minute second : Nat) : List Char :=
  padded 2 hour ++ ':' :: (padded 2 minute ++ ':' :: padded 2 second)

/-- A time before the epoch is rendered as the epoch. -/
def since_epoch (time : SystemTime) : Nat × Nat :=
  match time.duration_since UNIX_EPOCH with
  | .ok duration => duration
  | .error _ => (0, 0)

def time_to_rfc3339 (time : SystemTime) : String :=
  let seconds := (since_epoch time).1
  let nanos := (since_epoch time).2
  let date := civil_from_days (seconds / SECONDS_PER_DAY : Nat)
  let seconds_of_day := seconds % SECONDS_PER_DAY
  String.ofList (dateText date.1.toNat date.2.1 date.2.2 ++ 'T' ::
    (clockText (seconds_of_day / 3600) (seconds_of_day % 3600 / 60) (seconds_of_day % 60) ++ '.' ::
      (padded 9 nanos ++ ['Z'])))

/-! ## Parsing -/

/-- `strip_suffix` of one character. -/
def strip_suffix (c : Char) (text : List Char) : Option (List Char) :=
  if text.getLast? = some c then some text.dropLast else none

def split_once (c : Char) : List Char → Option (List Char × List Char)
  | [] => none
  | first :: text =>
    if first = c then some ([], text)
    else (split_once c text).map fun halves => (first :: halves.1, halves.2)

/-- ASCII digits have as many bytes as characters, and any other text is refused. -/
def parse_fixed_digits (text : List Char) (digits : Nat) : Option Nat :=
  if text.length = digits ∧ text.all Char.isDigit then some (value text) else none

def parse_date (date : List Char) : Option (Nat × Nat × Nat) :=
  match date.splitOn '-' with
  | [year, month, day] => do
    let year ← parse_fixed_digits year 4
    let month ← parse_fixed_digits month 2
    let day ← parse_fixed_digits day 2
    if 1 ≤ month ∧ month ≤ 12 ∧ 1 ≤ day ∧ day ≤ days_in_month year month then
      some (year, month, day)
    else none
  | _ => none

def parse_clock (clock : List Char) : Option (Nat × Nat × Nat) :=
  match clock.splitOn ':' with
  | [hour, minute, second] => do
    let hour ← parse_fixed_digits hour 2
    let minute ← parse_fixed_digits minute 2
    let second ← parse_fixed_digits second 2
    if hour ≤ 23 ∧ minute ≤ 59 ∧ second ≤ 59 then some (hour, minute, second) else none
  | _ => none

def splitFraction (time : List Char) : List Char × Option (List Char) :=
  match split_once '.' time with
  | some (clock, fraction) => (clock, some fraction)
  | none => (time, none)

def padFraction : Option (List Char) → List Char
  | none => List.replicate 9 '0'
  | some fraction => fraction ++ List.replicate (9 - fraction.length) '0'

def parse_nanos (fraction : Option (List Char)) : Option Nat :=
  match fraction with
  | none => some 0
  | some digits =>
    if digits = [] ∨ 9 < digits.length ∨ ¬ digits.all Char.isDigit then none
    else some (value (padFraction (some digits)))

/-- The seconds and nanoseconds after the epoch, of a date, a clock and a fraction. -/
def instantOf (date clock : List Char) (fraction : Option (List Char)) : Option (Nat × Nat) := do
  let (year, month, day) ← parse_date date
  let (hour, minute, second) ← parse_clock clock
  let nanos ← parse_nanos fraction
  let days := days_from_civil year month day
  if days < 0 then none
  else some (days.toNat * SECONDS_PER_DAY + hour * 3600 + minute * 60 + second, nanos)

def parse_parts (text : List Char) : Option (Nat × Nat) := do
  let text ← strip_suffix 'Z' text
  let (date, time) ← split_once 'T' text
  instantOf date (splitFraction time).1 (splitFraction time).2

/-- `UNIX_EPOCH + Duration::new(seconds, nanos)`, where `none` is a panic. -/
def after_epoch (seconds nanos : Nat) : Option SystemTime :=
  (Duration.new seconds nanos).bind UNIX_EPOCH.add

/-- `none` is a refusal, and `some none` a panic. -/
def parse_rfc3339_utc (text : String) : Option (Option SystemTime) :=
  (parse_parts text.toList).map fun parts => after_epoch parts.1 parts.2

/-! ## Cuts -/

theorem strip_suffix_concat (c : Char) (text : List Char) :
    strip_suffix c (text ++ [c]) = some text := by
  simp [strip_suffix]

variable {text : List Char} {c : Char} {day hour minute month n nanos second width year : Nat}
  {time : SystemTime}

theorem split_once_append {before : List Char} (h : c ∉ before) (after : List Char) :
    split_once c (before ++ c :: after) = some (before, after) := by
  induction before with
  | nil => simp [split_once]
  | cons first before ih =>
    obtain ⟨hne, hbefore⟩ := not_or.mp (mt mem_cons.mpr h)
    simp [split_once, Ne.symm hne, ih hbefore]

variable {a b clock d date text' : List Char} {day' hour' minute' month' nanos' second' year' : Nat}

theorem splitOn_three (ha : c ∉ a) (hb : c ∉ b) (hd : c ∉ d) :
    (a ++ c :: (b ++ c :: d)).splitOn c = [a, b, d] := by
  rw [splitOn_append_cons_self, splitOn_append_cons_self, splitOn_eq_singleton ha,
    splitOn_eq_singleton hb, splitOn_eq_singleton hd]
  rfl

theorem eq_of_splitOn_three (h : text.splitOn c = [a, b, d]) : text = a ++ c :: (b ++ c :: d) := by
  have hjoin : List.intercalate [c] (text.splitOn c) = text := intercalate_splitOn c
  rw [h] at hjoin
  simpa [List.intercalate, List.intersperse] using hjoin.symm

/-! ## Digits -/

theorem notMem_padded (h : c.isDigit = false) : c ∉ padded width n :=
  fun hmem => by simp [isDigit_of_mem_padded hmem] at h

theorem parse_fixed_digits_padded (width n : Nat) (hwidth : 0 < width) (h : n < 10 ^ width) :
    parse_fixed_digits (padded width n) width = some n := by
  have hdigits : (padded width n).all Char.isDigit = true := by
    rw [List.all_eq_true]
    exact fun c hc => isDigit_of_mem_padded hc
  simp [parse_fixed_digits, length_padded hwidth h, hdigits, value_padded]

theorem parse_fixed_digits_long (width n : Nat) (hwidth : 0 < width) (h : 10 ^ width ≤ n) :
    parse_fixed_digits (padded width n) width = none := by
  have hlength : (padded width n).length ≠ width := (length_padded_of_le hwidth h).ne'
  simp [parse_fixed_digits, hlength]

theorem parse_fixed_digits_eq_some (hwidth : 0 < width)
    (h : parse_fixed_digits text width = some n) : text = padded width n ∧ n < 10 ^ width := by
  unfold parse_fixed_digits at h
  split at h
  · next hdigits =>
    obtain ⟨hlength, hall⟩ := hdigits
    rw [List.all_eq_true] at hall
    rw [← Option.some.inj h, ← hlength]
    refine ⟨(padded_value hall ?_).symm, value_lt hall⟩
    rintro rfl
    simp at hlength
    omega
  · cases h

/-! ## Dates and clocks -/

theorem splitOn_dateText :
    (dateText year month day).splitOn '-' = [padded 4 year, padded 2 month, padded 2 day] :=
  splitOn_three (notMem_padded rfl) (notMem_padded rfl) (notMem_padded rfl)

theorem parse_date_text (hyear : year < 10000)
    (h : ValidDate year month day) : parse_date (dateText year month day) = some (year, month, day) := by
  obtain ⟨hlow, hhigh, hday, hday'⟩ := h
  have hmonths := days_in_month_le year month
  rw [parse_date, splitOn_dateText]
  simp [parse_fixed_digits_padded 4 year (by decide) hyear,
    parse_fixed_digits_padded 2 month (by decide) (by omega),
    parse_fixed_digits_padded 2 day (by decide) (by omega), hlow, hhigh, hday,
    hday']

theorem parse_date_long (hyear : 10000 ≤ year) : parse_date (dateText year month day) = none := by
  rw [parse_date, splitOn_dateText]
  simp [parse_fixed_digits_long 4 year (by decide) hyear]

theorem parse_date_eq_some (h : parse_date date = some (year, month, day)) :
    date = dateText year month day ∧ year < 10000 ∧ ValidDate year month day := by
  unfold parse_date at h
  split at h
  · next a b d hsplit =>
    obtain ⟨year', hyear, h⟩ := bind_eq_some_iff.mp h
    obtain ⟨month', hmonth, h⟩ := bind_eq_some_iff.mp h
    obtain ⟨day', hday, h⟩ := bind_eq_some_iff.mp h
    split at h
    · next hvalid =>
      cases h
      obtain ⟨rfl, hlt⟩ := parse_fixed_digits_eq_some (by decide) hyear
      obtain ⟨rfl, -⟩ := parse_fixed_digits_eq_some (by decide) hmonth
      obtain ⟨rfl, -⟩ := parse_fixed_digits_eq_some (by decide) hday
      exact ⟨eq_of_splitOn_three hsplit, hlt, hvalid⟩
    · cases h
  · cases h

theorem parse_clock_text (hhour : hour ≤ 23) (hminute : minute ≤ 59) (hsecond : second ≤ 59) :
    parse_clock (clockText hour minute second) = some (hour, minute, second) := by
  have hsplit : (clockText hour minute second).splitOn ':' =
      [padded 2 hour, padded 2 minute, padded 2 second] :=
    splitOn_three (notMem_padded rfl) (notMem_padded rfl) (notMem_padded rfl)
  rw [parse_clock, hsplit]
  simp [parse_fixed_digits_padded 2 hour (by decide) (by omega),
    parse_fixed_digits_padded 2 minute (by decide) (by omega),
    parse_fixed_digits_padded 2 second (by decide) (by omega), hhour, hminute,
    hsecond]

theorem parse_clock_eq_some (h : parse_clock clock = some (hour, minute, second)) :
    clock = clockText hour minute second ∧ hour ≤ 23 ∧ minute ≤ 59 ∧ second ≤ 59 := by
  unfold parse_clock at h
  split at h
  · next a b d hsplit =>
    obtain ⟨hour', hhour, h⟩ := bind_eq_some_iff.mp h
    obtain ⟨minute', hminute, h⟩ := bind_eq_some_iff.mp h
    obtain ⟨second', hsecond, h⟩ := bind_eq_some_iff.mp h
    split at h
    · next hvalid =>
      cases h
      obtain ⟨rfl, -⟩ := parse_fixed_digits_eq_some (by decide) hhour
      obtain ⟨rfl, -⟩ := parse_fixed_digits_eq_some (by decide) hminute
      obtain ⟨rfl, -⟩ := parse_fixed_digits_eq_some (by decide) hsecond
      exact ⟨eq_of_splitOn_three hsplit, hvalid⟩
    · cases h
  · cases h

theorem parse_nanos_eq_some {fraction : Option (List Char)}
    (h : parse_nanos fraction = some nanos) :
    (padFraction fraction).length = 9 ∧ (∀ c ∈ padFraction fraction, c.isDigit = true) ∧
      value (padFraction fraction) = nanos := by
  cases fraction with
  | none =>
    cases h
    refine ⟨rfl, fun c hc => ?_, by decide⟩
    rw [eq_of_mem_replicate hc]
    rfl
  | some digits =>
    simp only [parse_nanos] at h
    split at h
    · cases h
    next hvalid =>
    simp only [not_or, not_not, not_lt] at hvalid
    obtain ⟨hne, hlength, hall⟩ := hvalid
    refine ⟨?_, ?_, Option.some.inj h⟩
    · simp only [padFraction, length_append, length_replicate]
      omega
    intro c hc
    rcases mem_append.mp hc with hc | hc
    · exact List.all_eq_true.mp hall c hc
    · rw [eq_of_mem_replicate hc]
      decide

theorem parse_nanos_padded (h : nanos < 1000000000) :
    parse_nanos (some (padded 9 nanos)) = some nanos := by
  have hlength : (padded 9 nanos).length = 9 := length_padded (by decide) h
  have hne : padded 9 nanos ≠ [] := by
    intro hnil
    simp [hnil] at hlength
  have hdigits : (padded 9 nanos).all Char.isDigit = true := by
    rw [List.all_eq_true]
    exact fun c hc => isDigit_of_mem_padded hc
  simp [parse_nanos, padFraction, hlength, hne, hdigits, value_padded]

/-! ## Times after the epoch -/

theorem since_epoch_of_nonneg (h : 0 ≤ time.tv_sec) :
    since_epoch time = (time.tv_sec.toNat, time.tv_nsec) := by
  have hnot : ¬ time.is_before UNIX_EPOCH := by
    simp only [SystemTime.is_before, epoch_tv_sec, epoch_tv_nsec]
    omega
  simp [since_epoch, SystemTime.duration_since, hnot, SystemTime.between]

theorem after_epoch_eq (h : 0 ≤ time.tv_sec) :
    after_epoch time.tv_sec.toNat time.tv_nsec = some time := by
  have hfits := time.sec_fits
  have hcast : (time.tv_sec.toNat : Int) = time.tv_sec := Int.toNat_of_nonneg h
  have hsecs : time.tv_sec.toNat < 2 ^ 64 := by
    obtain ⟨-, hhigh⟩ := hfits
    omega
  rw [after_epoch, Duration.new_of_lt hsecs time.nsec_below, bind_some,
    epoch_add (by rw [hcast]; exact hfits), hcast]
  exact time.of_parts_eq

theorem parse_parts_text {digits : List Char} (hdate : 'T' ∉ date) (hclock : '.' ∉ clock) :
    parse_parts (date ++ 'T' :: (clock ++ '.' :: (digits ++ ['Z']))) =
      instantOf date clock (some digits) := by
  have htext : date ++ 'T' :: (clock ++ '.' :: (digits ++ ['Z'])) =
      (date ++ 'T' :: (clock ++ '.' :: digits)) ++ ['Z'] := by simp
  have hfraction : splitFraction (clock ++ '.' :: digits) = (clock, some digits) := by
    rw [splitFraction, split_once_append hclock]
  rw [parse_parts, htext, strip_suffix_concat]
  simp only [bind_eq_bind, bind_some, split_once_append hdate, hfraction]

theorem notMem_dateText : 'T' ∉ dateText year month day := by
  have hpadded : ∀ width n, 'T' ∉ padded width n := fun width n => notMem_padded rfl
  simp [dateText, hpadded]

theorem notMem_clockText : '.' ∉ clockText hour minute second := by
  have hpadded : ∀ width n, '.' ∉ padded width n := fun width n => notMem_padded rfl
  simp [clockText, hpadded]

def YEAR_10000 : Int := days_from_civil 10000 1 1 * SECONDS_PER_DAY

/-- A time from the epoch on comes back from its text, before the year 10000. -/
theorem parse_rendered (h : 0 ≤ time.tv_sec) : parse_rfc3339_utc (time_to_rfc3339 time) =
      if time.tv_sec < YEAR_10000 then some (some time) else none := by
  obtain ⟨hvalid, hdays⟩ := days_from_civil_from_days ((time.tv_sec.toNat / SECONDS_PER_DAY : Nat) : Int)
  generalize hdate : civil_from_days ((time.tv_sec.toNat / SECONDS_PER_DAY : Nat) : Int) = date
    at hvalid hdays
  obtain ⟨year, month, day⟩ := date
  simp only at hvalid hdays
  have hyear : (year.toNat : Int) = year :=
    Int.toNat_of_nonneg (year_nonneg hvalid (by rw [hdays]; exact Int.natCast_nonneg _))
  have hbound : year < 10000 ↔ time.tv_sec < YEAR_10000 := by
    rw [year_lt_iff hvalid, hdays, YEAR_10000]
    simp only [SECONDS_PER_DAY]
    omega
  have hnanos : time.tv_nsec < 1000000000 := time.nsec_below
  rw [parse_rfc3339_utc, time_to_rfc3339, since_epoch_of_nonneg h]
  simp only [hdate, String.toList_ofList, parse_parts_text notMem_dateText notMem_clockText,
    instantOf]
  by_cases hlt : year < 10000
  · have hparsed : parse_date (dateText year.toNat month day) = some (year.toNat, month, day) :=
      parse_date_text (by omega) (by rw [hyear]; exact hvalid)
    have hhour : time.tv_sec.toNat % SECONDS_PER_DAY / 3600 ≤ 23 := by
      simp only [SECONDS_PER_DAY]
      omega
    have hminute : time.tv_sec.toNat % SECONDS_PER_DAY % 3600 / 60 ≤ 59 := by omega
    have hsecond : time.tv_sec.toNat % SECONDS_PER_DAY % 60 ≤ 59 := by omega
    have hclock := parse_clock_text hhour hminute hsecond
    have hnonneg : ¬ days_from_civil (year.toNat : Int) month day < 0 := by
      rw [hyear, hdays]
      exact not_lt.mpr (Int.natCast_nonneg _)
    have hseconds : (days_from_civil (year.toNat : Int) month day).toNat * SECONDS_PER_DAY +
        time.tv_sec.toNat % SECONDS_PER_DAY / 3600 * 3600 +
        time.tv_sec.toNat % SECONDS_PER_DAY % 3600 / 60 * 60 +
        time.tv_sec.toNat % SECONDS_PER_DAY % 60 = time.tv_sec.toNat := by
      rw [hyear, hdays]
      simp only [SECONDS_PER_DAY]
      omega
    simp only [hparsed, hclock, parse_nanos_padded hnanos, bind_eq_bind, bind_some,
      hnonneg, if_false, hseconds, map_some, after_epoch_eq h, if_pos (hbound.mp hlt)]
  · have hrefused : parse_date (dateText year.toNat month day) = none :=
      parse_date_long (by omega)
    have hlate : ¬ time.tv_sec < YEAR_10000 := fun h => hlt (hbound.mpr h)
    simp [hrefused, hlate]

/-! ## Accepted texts -/

/-- The date, the clock and the fraction with zeros up to nine digits. -/
def textParts (text : List Char) : Option (List Char × List Char × List Char) := do
  let text ← strip_suffix 'Z' text
  let (date, time) ← split_once 'T' text
  some (date, (splitFraction time).1, padFraction (splitFraction time).2)

/-- The numbers of an accepted text, and its parts, which they write. -/
structure Accepts (text : List Char) (year month day hour minute second nanos : Nat) : Prop where
  date : ValidDate year month day
  year_lt : year < 10000
  days : 0 ≤ days_from_civil year month day
  hour_le : hour ≤ 23
  minute_le : minute ≤ 59
  second_le : second ≤ 59
  nanos_lt : nanos < 1000000000
  parts : ∃ digits, textParts text =
      some (dateText year month day, clockText hour minute second, digits) ∧
    digits.length = 9 ∧ (∀ c ∈ digits, c.isDigit = true) ∧ value digits = nanos
  parsed : parse_parts text =
    some ((days_from_civil year month day).toNat * SECONDS_PER_DAY + hour * 3600 + minute * 60 +
      second, nanos)

theorem exists_accepts {parts : Nat × Nat} (h : parse_parts text = some parts) :
    ∃ year month day hour minute second nanos,
      Accepts text year month day hour minute second nanos := by
  have hparsed := h
  unfold parse_parts at h
  obtain ⟨rest, hstrip, h⟩ := bind_eq_some_iff.mp h
  obtain ⟨⟨date, time⟩, hsplit, h⟩ := bind_eq_some_iff.mp h
  unfold instantOf at h
  obtain ⟨⟨year, month, day⟩, hdate, h⟩ := bind_eq_some_iff.mp h
  obtain ⟨⟨hour, minute, second⟩, hclock, h⟩ := bind_eq_some_iff.mp h
  obtain ⟨nanos, hnanos, h⟩ := bind_eq_some_iff.mp h
  dsimp only at h
  split at h
  · cases h
  next hdays =>
  obtain ⟨hdatetext, hyear, hvalid⟩ := parse_date_eq_some hdate
  obtain ⟨hclocktext, hhour, hminute, hsecond⟩ := parse_clock_eq_some hclock
  obtain ⟨hlength, hdigits, hvalue⟩ := parse_nanos_eq_some hnanos
  have hlt := value_lt hdigits
  rw [hlength, hvalue] at hlt
  refine ⟨year, month, day, hour, minute, second, nanos, hvalid, hyear, not_lt.mp hdays, hhour,
    hminute, hsecond, hlt, ?_, hparsed.trans h.symm⟩
  refine ⟨padFraction (splitFraction time).2, ?_, hlength, hdigits, hvalue⟩
  simp [textParts, hstrip, hsplit, hdatetext, ← hclocktext]

section
variable (h : Accepts text year month day hour minute second nanos)
include h

/-- The seconds of an accepted text are those of a time. -/
theorem Accepts.no_panic : ∃ time : SystemTime, 0 ≤ time.tv_sec ∧ parse_parts text =
      some (time.tv_sec.toNat, time.tv_nsec) := by
  have hfirst : days_from_civil 10000 1 1 = 2932897 := rfl
  have hdays := (year_lt_iff h.date).mp (by exact_mod_cast h.year_lt)
  have hlow := h.days
  have hhour := h.hour_le
  have hminute := h.minute_le
  have hsecond := h.second_le
  refine ⟨⟨(days_from_civil year month day).toNat * SECONDS_PER_DAY + hour * 3600 + minute * 60 +
    second, nanos, ?_, h.nanos_lt⟩, ?_, ?_⟩
  · simp only [SECONDS_PER_DAY]
    constructor <;> omega
  · simp only [SECONDS_PER_DAY]
    omega
  · rw [h.parsed]
    simp only [Option.some.injEq, Prod.mk.injEq, and_true, SECONDS_PER_DAY]
    omega

theorem Accepts.inj (h' : Accepts text' year' month' day' hour' minute' second' nanos')
    (heq : parse_parts text = parse_parts text') : textParts text = textParts text' := by
  rw [h.parsed, h'.parsed] at heq
  have hlow := h.days
  have hlow' := h'.days
  have hbounds := And.intro h.hour_le (And.intro h.minute_le h.second_le)
  have hbounds' := And.intro h'.hour_le (And.intro h'.minute_le h'.second_le)
  simp only [Option.some.injEq, Prod.mk.injEq, SECONDS_PER_DAY] at heq
  obtain ⟨hseconds, rfl⟩ := heq
  have hdays : days_from_civil (year : Int) month day = days_from_civil (year' : Int) month' day' := by
    omega
  have hdate := civil_from_days_from_civil h.date
  rw [hdays, civil_from_days_from_civil h'.date] at hdate
  simp only [Prod.mk.injEq, Int.natCast_inj] at hdate
  obtain ⟨rfl, rfl, rfl⟩ := hdate
  have hhour : hour = hour' := by omega
  have hminute : minute = minute' := by omega
  have hsecond : second = second' := by omega
  subst hhour hminute hsecond
  obtain ⟨digits, hparts, hlength, hdigits, hvalue⟩ := h.parts
  obtain ⟨digits', hparts', hlength', hdigits', hvalue'⟩ := h'.parts
  rw [hparts, hparts', value_inj (hlength.trans hlength'.symm) hdigits hdigits'
    (hvalue.trans hvalue'.symm)]

theorem Accepts.parse_of_parts (h' : Accepts text' year' month' day' hour' minute' second' nanos')
    (heq : textParts text = textParts text') : parse_parts text = parse_parts text' := by
  obtain ⟨digits, hparts, hlength, hdigits, hvalue⟩ := h.parts
  obtain ⟨digits', hparts', hlength', hdigits', hvalue'⟩ := h'.parts
  rw [hparts, hparts', Option.some.injEq, Prod.mk.injEq, Prod.mk.injEq] at heq
  obtain ⟨hdate, hclock, rfl⟩ := heq
  have hparse := congrArg parse_date hdate
  rw [parse_date_text h.year_lt h.date, parse_date_text h'.year_lt h'.date] at hparse
  have hparse' := congrArg parse_clock hclock
  rw [parse_clock_text h.hour_le h.minute_le h.second_le,
    parse_clock_text h'.hour_le h'.minute_le h'.second_le]
    at hparse'
  simp only [Option.some.injEq, Prod.mk.injEq] at hparse hparse'
  obtain ⟨rfl, rfl, rfl⟩ := hparse
  obtain ⟨rfl, rfl, rfl⟩ := hparse'
  rw [h.parsed, h'.parsed, ← hvalue, hvalue']

end

/-- Days and dates are one to one, a time from the epoch on comes back from its text exactly
before the year 10000, and two accepted texts denote one time exactly when their padded
parts are the same. -/
theorem the_times_and_their_texts : ((∀ year month day, ValidDate year month day →
        civil_from_days (days_from_civil year month day) = (year, month, day)) ∧
      ∀ days, ValidDate (civil_from_days days).1 (civil_from_days days).2.1
          (civil_from_days days).2.2 ∧
        days_from_civil (civil_from_days days).1 (civil_from_days days).2.1
          (civil_from_days days).2.2 = days) ∧
    (∀ time : SystemTime, 0 ≤ time.tv_sec →
      parse_rfc3339_utc (time_to_rfc3339 time) =
        if time.tv_sec < YEAR_10000 then some (some time) else none) ∧
    (∀ text result, parse_rfc3339_utc text = some result → ∃ time, result = some time) ∧
    ∀ text text' time time', parse_rfc3339_utc text = some (some time) →
      parse_rfc3339_utc text' = some (some time') →
      (time = time' ↔ textParts text.toList = textParts text'.toList) := by
  refine ⟨⟨fun year month day => civil_from_days_from_civil, days_from_civil_from_days⟩,
    fun time => parse_rendered, ?_, ?_⟩
  · intro text result h
    obtain ⟨parts, hparts, hresult⟩ := map_eq_some_iff.mp h
    obtain ⟨_, _, _, _, _, _, _, haccepts⟩ := exists_accepts hparts
    obtain ⟨time, hnonneg, htime⟩ := haccepts.no_panic
    rw [htime] at hparts
    cases hparts
    exact ⟨time, by rw [← hresult, after_epoch_eq hnonneg]⟩
  · intro text text' time time' h h'
    obtain ⟨parts, hparts, hresult⟩ := map_eq_some_iff.mp h
    obtain ⟨parts', hparts', hresult'⟩ := map_eq_some_iff.mp h'
    obtain ⟨_, _, _, _, _, _, _, haccepts⟩ := exists_accepts hparts
    obtain ⟨_, _, _, _, _, _, _, haccepts'⟩ := exists_accepts hparts'
    obtain ⟨t, hnonneg, ht⟩ := haccepts.no_panic
    obtain ⟨t', hnonneg', ht'⟩ := haccepts'.no_panic
    have hsame : time = time' ↔ parse_parts text.toList = parse_parts text'.toList := by
      rw [ht] at hparts
      rw [ht'] at hparts'
      cases hparts
      cases hparts'
      rw [after_epoch_eq hnonneg] at hresult
      rw [after_epoch_eq hnonneg'] at hresult'
      cases hresult
      cases hresult'
      rw [ht, ht']
      constructor
      · rintro rfl
        rfl
      intro heq
      simp only [Option.some.injEq, Prod.mk.injEq] at heq
      ext
      · omega
      · exact heq.2
    rw [hsame]
    exact ⟨haccepts.inj haccepts', haccepts.parse_of_parts haccepts'⟩

end peppy.value
