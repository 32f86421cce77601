-- Times of the machine and timestamps of the wire, both signed seconds and the
-- nanoseconds after them. The way between the two goes through the unsigned duration
-- from the epoch.
import Mathlib.Algebra.Order.Ring.Int

open Option

namespace peppy.encoding

/-! ## Seconds of 64 bits -/

/-- The whole numbers of an `i64`. -/
def FitsI64 (x : Int) : Prop := -2 ^ 63 ≤ x ∧ x < 2 ^ 63

instance (x : Int) : Decidable (FitsI64 x) := inferInstanceAs (Decidable (_ ∧ _))

def checked_i64 (exact : Int) : Option Int := if FitsI64 exact then some exact else none

variable (overflow_checks : Bool)

/-- An `i64` operator from its exact result: it panics or wraps outside. -/
def i64_op (exact : Int) : Option Int :=
  if FitsI64 exact then some exact
  else if overflow_checks then none else some (exact.bmod (2 ^ 64))

/-- `as i64` of a `u64`. -/
def as_i64 (n : Nat) : Int := (n : Int).bmod (2 ^ 64)

variable {exact : Int}

theorem i64_op_of_fits (h : FitsI64 exact) (overflow_checks : Bool) :
    i64_op overflow_checks exact = some exact := by
  simp [i64_op, h]

theorem checked_i64_of_fits (h : FitsI64 exact) : checked_i64 exact = some exact := by
  simp [checked_i64, h]

theorem as_i64_of_lt {n : Nat} (h : n < 2 ^ 63) : as_i64 n = n := by
  unfold as_i64
  exact Int.bmod_eq_of_le (by omega) (by omega)

/-! ## Times -/

def NANOS_PER_SEC : Nat := 1000000000

@[ext] structure SystemTime where
  tv_sec : Int
  tv_nsec : Nat
  sec_fits : FitsI64 tv_sec
  nsec_below : tv_nsec < NANOS_PER_SEC
  deriving DecidableEq

structure Duration where
  secs : Nat
  nanos : Nat
  secs_fit : secs < 2 ^ 64
  nanos_below : nanos < NANOS_PER_SEC

/-- Whole seconds of the nanoseconds carry over, and panic past the range. -/
def Duration.new (secs nanos : Nat) : Option Duration :=
  if h : secs + nanos / NANOS_PER_SEC < 2 ^ 64 then
    some ⟨secs + nanos / NANOS_PER_SEC, nanos % NANOS_PER_SEC, h, Nat.mod_lt _ (by decide)⟩
  else none

def UNIX_EPOCH : SystemTime := ⟨0, 0, by decide, by decide⟩

@[simp] theorem epoch_tv_sec : UNIX_EPOCH.tv_sec = 0 := rfl

@[simp] theorem epoch_tv_nsec : UNIX_EPOCH.tv_nsec = 0 := rfl

/-- The time with the parts, when they are in range. -/
def SystemTime.of_parts (secs : Int) (nanos : Nat) : Option SystemTime :=
  if h : FitsI64 secs ∧ nanos < NANOS_PER_SEC then some ⟨secs, nanos, h.1, h.2⟩ else none

/-- `+`, which panics past the range. -/
def SystemTime.add (time : SystemTime) (duration : Duration) : Option SystemTime := do
  let secs ← checked_i64 (time.tv_sec + duration.secs)
  let nsec := duration.nanos + time.tv_nsec
  if NANOS_PER_SEC ≤ nsec then
    let secs ← checked_i64 (secs + 1)
    SystemTime.of_parts secs (nsec - NANOS_PER_SEC)
  else SystemTime.of_parts secs nsec

/-- `-`, which panics past the range. -/
def SystemTime.sub (time : SystemTime) (duration : Duration) : Option SystemTime := do
  let secs ← checked_i64 (time.tv_sec - duration.secs)
  if time.tv_nsec < duration.nanos then
    let secs ← checked_i64 (secs - 1)
    SystemTime.of_parts secs (time.tv_nsec + NANOS_PER_SEC - duration.nanos)
  else SystemTime.of_parts secs (time.tv_nsec - duration.nanos)

def SystemTime.between (later earlier : SystemTime) : Nat × Nat :=
  if earlier.tv_nsec ≤ later.tv_nsec then
    ((later.tv_sec - earlier.tv_sec).toNat, later.tv_nsec - earlier.tv_nsec)
  else
    ((later.tv_sec - earlier.tv_sec - 1).toNat, later.tv_nsec + NANOS_PER_SEC - earlier.tv_nsec)

def SystemTime.is_before (time other : SystemTime) : Prop :=
  time.tv_sec < other.tv_sec ∨ (time.tv_sec = other.tv_sec ∧ time.tv_nsec < other.tv_nsec)

instance (time other : SystemTime) : Decidable (time.is_before other) :=
  inferInstanceAs (Decidable (_ ∨ _))

/-- The duration since the other time, or how long before it the time is. -/
def SystemTime.duration_since (time other : SystemTime) : Except (Nat × Nat) (Nat × Nat) :=
  if time.is_before other then .error (other.between time) else .ok (time.between other)

/-! ## Timestamps -/

@[ext] structure CapnpTimestamp where
  sec : Int
  nsec : Nat
  sec_fits : FitsI64 sec
  nsec_fits : nsec < 2 ^ 32
  deriving DecidableEq

def CapnpTimestamp.of_parts (sec : Int) (nsec : Nat) : Option CapnpTimestamp :=
  if h : FitsI64 sec ∧ nsec < 2 ^ 32 then some ⟨sec, nsec, h.1, h.2⟩ else none

/-- `none` is a panic. -/
def convert_time (timestamp : SystemTime) : Option CapnpTimestamp :=
  match timestamp.duration_since UNIX_EPOCH with
  | .ok (secs, nanos) => CapnpTimestamp.of_parts (as_i64 secs) nanos
  | .error (secs, nanos) => do
    let secs := as_i64 secs
    let negated ← i64_op overflow_checks (-secs)
    if nanos = 0 then CapnpTimestamp.of_parts negated 0
    else
      let borrowed ← i64_op overflow_checks (negated - 1)
      CapnpTimestamp.of_parts borrowed (NANOS_PER_SEC - nanos)

/-- `none` is a panic: a debug assertion, or past the range of a time. -/
def convert_time_from_capnp (timestamp : CapnpTimestamp) : Option SystemTime :=
  if overflow_checks ∧ ¬ timestamp.nsec < NANOS_PER_SEC then none
  else if 0 ≤ timestamp.sec then do
    let duration ← Duration.new timestamp.sec.toNat timestamp.nsec
    UNIX_EPOCH.add duration
  else if timestamp.nsec = 0 then do
    let secs_to_epoch := (-timestamp.sec).toNat
    let duration ← Duration.new secs_to_epoch 0
    UNIX_EPOCH.sub duration
  else do
    let secs_to_epoch := (-(timestamp.sec + 1)).toNat
    -- of a whole second or more, the cast to `u32` would wrap
    let nanos_to_epoch := (((NANOS_PER_SEC : Int) - timestamp.nsec) % 2 ^ 32).toNat
    let duration ← Duration.new secs_to_epoch nanos_to_epoch
    UNIX_EPOCH.sub duration

/-! ## The two ways -/

def SystemTime.stamp (time : SystemTime) : CapnpTimestamp :=
  ⟨time.tv_sec, time.tv_nsec, time.sec_fits, lt_trans time.nsec_below (by decide)⟩

@[simp] theorem SystemTime.stamp_sec (time : SystemTime) : time.stamp.sec = time.tv_sec := rfl

@[simp] theorem SystemTime.stamp_nsec (time : SystemTime) : time.stamp.nsec = time.tv_nsec := rfl

/-- The first second of the range. -/
def SystemTime.IsFirst (time : SystemTime) : Prop := time.tv_sec = -2 ^ 63 ∧ time.tv_nsec = 0

instance (time : SystemTime) : Decidable time.IsFirst := inferInstanceAs (Decidable (_ ∧ _))

theorem CapnpTimestamp.of_parts_stamp (time : SystemTime) :
    CapnpTimestamp.of_parts time.tv_sec time.tv_nsec = some time.stamp := by
  have h : FitsI64 time.tv_sec ∧ time.tv_nsec < 2 ^ 32 :=
    ⟨time.sec_fits, lt_trans time.nsec_below (by decide)⟩
  rw [CapnpTimestamp.of_parts, dif_pos h]
  rfl

theorem Duration.new_of_lt {secs nanos : Nat} (hsecs : secs < 2 ^ 64)
    (hnanos : nanos < NANOS_PER_SEC) :
    Duration.new secs nanos = some ⟨secs, nanos, hsecs, hnanos⟩ := by
  simp only [Duration.new, Nat.div_eq_of_lt hnanos, Nat.mod_eq_of_lt hnanos, Nat.add_zero, hsecs,
    dif_pos]

variable {time : SystemTime}

open SystemTime

theorem convert_time_of_nonneg (h : 0 ≤ time.tv_sec) (overflow_checks : Bool) :
    convert_time overflow_checks time = some time.stamp := by
  obtain ⟨hlow, hhigh⟩ := time.sec_fits
  have hnot : ¬ time.is_before UNIX_EPOCH := by
    simp only [is_before, UNIX_EPOCH]
    omega
  have hbetween : time.between UNIX_EPOCH = (time.tv_sec.toNat, time.tv_nsec) := by
    simp [between, UNIX_EPOCH]
  have hsecs : as_i64 time.tv_sec.toNat = time.tv_sec := by
    rw [as_i64_of_lt (by omega)]
    omega
  simp only [convert_time, duration_since, hnot, if_false, hbetween, hsecs]
  exact CapnpTimestamp.of_parts_stamp time

/-- The negated seconds. Only the first second of the range does not fit. -/
theorem negated_seconds {sec : Int} (hlow : -2 ^ 63 ≤ sec) (hneg : sec < 0)
    (overflow_checks : Bool) : i64_op overflow_checks (-as_i64 (-sec).toNat) =
      if overflow_checks ∧ sec = -2 ^ 63 then none else some sec := by
  by_cases hfirst : sec = -2 ^ 63
  · subst hfirst
    cases overflow_checks <;> decide
  · have hcast : -as_i64 (-sec).toNat = sec := by
      rw [as_i64_of_lt (by omega)]
      omega
    rw [hcast, i64_op_of_fits ⟨hlow, by omega⟩, if_neg (fun h => hfirst h.2)]

theorem convert_time_of_whole (h : time.tv_sec < 0) (hnsec : time.tv_nsec = 0)
    (overflow_checks : Bool) : convert_time overflow_checks time =
      if overflow_checks ∧ time.IsFirst then none else some time.stamp := by
  have hbefore : time.is_before UNIX_EPOCH := .inl h
  have hbetween : UNIX_EPOCH.between time = ((-time.tv_sec).toNat, 0) := by
    simp [between, UNIX_EPOCH, hnsec]
  have hstamp := CapnpTimestamp.of_parts_stamp time
  rw [hnsec] at hstamp
  have hfirst : time.IsFirst ↔ time.tv_sec = -2 ^ 63 := and_iff_left hnsec
  simp only [convert_time, duration_since, hbefore, if_true, hbetween,
    negated_seconds time.sec_fits.1 h, hfirst]
  split
  · rfl
  · exact hstamp

theorem convert_time_of_borrowed (h : time.tv_sec < 0)
    (hnsec : time.tv_nsec ≠ 0) (overflow_checks : Bool) :
    convert_time overflow_checks time = some time.stamp := by
  obtain ⟨hlow, hhigh⟩ := time.sec_fits
  have hbelow := time.nsec_below
  have hbefore : time.is_before UNIX_EPOCH := .inl h
  have hbetween : UNIX_EPOCH.between time =
      ((-time.tv_sec - 1).toNat, NANOS_PER_SEC - time.tv_nsec) := by
    simp [between, UNIX_EPOCH, hnsec]
  have hcast : as_i64 (-time.tv_sec - 1).toNat = -time.tv_sec - 1 := by
    rw [as_i64_of_lt (by omega)]
    omega
  have hnegated : FitsI64 (-(-time.tv_sec - 1)) := by constructor <;> omega
  have hborrowed : FitsI64 (-(-time.tv_sec - 1) - 1) := by constructor <;> omega
  have hnanos : NANOS_PER_SEC - time.tv_nsec ≠ 0 := by omega
  have hsec : -(-time.tv_sec - 1) - 1 = time.tv_sec := by omega
  have hback : NANOS_PER_SEC - (NANOS_PER_SEC - time.tv_nsec) = time.tv_nsec := by omega
  simp only [convert_time, duration_since, hbefore, if_true, hbetween, hcast,
    i64_op_of_fits hnegated, hnanos, if_false, bind_eq_bind, bind_some,
    i64_op_of_fits hborrowed, hback]
  rw [hsec]
  exact CapnpTimestamp.of_parts_stamp time

/-- Seconds and nanoseconds stay, but for the first second of the range. -/
theorem convert_time_eq (time : SystemTime) : convert_time overflow_checks time =
      if overflow_checks ∧ time.IsFirst then none else some time.stamp := by
  by_cases hsec : 0 ≤ time.tv_sec
  · have hfirst : ¬ time.IsFirst := by
      simp only [SystemTime.IsFirst]
      omega
    simp [convert_time_of_nonneg hsec, hfirst]
  · by_cases hnsec : time.tv_nsec = 0
    · exact convert_time_of_whole (Int.not_le.mp hsec) hnsec overflow_checks
    · simp [convert_time_of_borrowed (Int.not_le.mp hsec) hnsec, SystemTime.IsFirst, hnsec]

theorem SystemTime.of_parts_eq (time : SystemTime) :
    of_parts time.tv_sec time.tv_nsec = some time := by
  simp [of_parts, time.sec_fits, time.nsec_below]

variable {duration : Duration}

theorem epoch_add (h : FitsI64 duration.secs) :
    UNIX_EPOCH.add duration = of_parts duration.secs duration.nanos := by
  have hsec : UNIX_EPOCH.tv_sec + duration.secs = duration.secs := by simp
  have hnsec : duration.nanos + UNIX_EPOCH.tv_nsec = duration.nanos := by simp
  have hbelow : ¬ NANOS_PER_SEC ≤ duration.nanos := Nat.not_le.mpr duration.nanos_below
  rw [add, hsec, checked_i64_of_fits h, bind_eq_bind, bind_some]
  simp only [hnsec]
  exact if_neg hbelow

theorem epoch_sub_whole (h : FitsI64 (-duration.secs)) (hnanos : duration.nanos = 0) :
    UNIX_EPOCH.sub duration = of_parts (-duration.secs) 0 := by
  have hsec : UNIX_EPOCH.tv_sec - duration.secs = -duration.secs := by simp
  rw [sub, hsec, checked_i64_of_fits h, bind_eq_bind, bind_some]
  simp [hnanos]

theorem epoch_sub_borrowed (h : FitsI64 (-duration.secs - 1)) (hnanos : 0 < duration.nanos) :
    UNIX_EPOCH.sub duration = of_parts (-duration.secs - 1) (NANOS_PER_SEC - duration.nanos) := by
  have hsec : UNIX_EPOCH.tv_sec - duration.secs = -duration.secs := by simp
  have hwhole : FitsI64 (-duration.secs) := by
    obtain ⟨hlow, hhigh⟩ := h
    constructor <;> omega
  rw [sub, hsec, checked_i64_of_fits hwhole, bind_eq_bind, bind_some]
  simp [hnanos, checked_i64_of_fits h]

theorem convert_time_from_capnp_stamp (time : SystemTime) :
    convert_time_from_capnp overflow_checks time.stamp = some time := by
  obtain ⟨hlow, hhigh⟩ := time.sec_fits
  have hbelow := time.nsec_below
  have hassert : ¬ (overflow_checks = true ∧ ¬ time.stamp.nsec < NANOS_PER_SEC) := by
    simp [time.nsec_below]
  rw [convert_time_from_capnp, if_neg hassert, time.stamp_sec, time.stamp_nsec]
  by_cases hsec : 0 ≤ time.tv_sec
  · have hcast : (time.tv_sec.toNat : Int) = time.tv_sec := Int.toNat_of_nonneg hsec
    rw [if_pos hsec, Duration.new_of_lt (by omega) hbelow, bind_eq_bind, bind_some,
      epoch_add (by rw [hcast]; exact time.sec_fits), hcast]
    exact time.of_parts_eq
  by_cases hnsec : time.tv_nsec = 0
  · have hcast : -((-time.tv_sec).toNat : Int) = time.tv_sec := by omega
    rw [if_neg hsec, if_pos hnsec]
    dsimp only
    rw [Duration.new_of_lt (by omega) (by decide), bind_eq_bind, bind_some,
      epoch_sub_whole (by rw [hcast]; exact time.sec_fits) rfl, hcast, ← hnsec]
    exact time.of_parts_eq
  · have hnanos : (((NANOS_PER_SEC : Int) - time.tv_nsec) % 2 ^ 32).toNat =
        NANOS_PER_SEC - time.tv_nsec := by
      simp only [NANOS_PER_SEC] at hbelow ⊢
      omega
    have hcast : -((-(time.tv_sec + 1)).toNat : Int) - 1 = time.tv_sec := by omega
    have hless : 0 < NANOS_PER_SEC - time.tv_nsec := by omega
    have hrest : NANOS_PER_SEC - (NANOS_PER_SEC - time.tv_nsec) = time.tv_nsec := by omega
    rw [if_neg hsec, if_neg hnsec, hnanos]
    dsimp only
    rw [Duration.new_of_lt (by omega) (by omega), bind_eq_bind, bind_some,
      epoch_sub_borrowed (by rw [hcast]; exact time.sec_fits) hless, hcast, hrest]
    exact time.of_parts_eq

def CapnpTimestamp.IsFirst (timestamp : CapnpTimestamp) : Prop :=
  timestamp.sec = -2 ^ 63 ∧ timestamp.nsec = 0

/-- Every time but the first one comes back from its timestamp, and every timestamp but
the first one from its time; in a build without overflow checks all do. -/
theorem the_times_come_back (overflow_checks : Bool) :
    (∀ time : SystemTime, (∃ timestamp, convert_time overflow_checks time = some timestamp ∧
        timestamp.nsec < NANOS_PER_SEC ∧
        convert_time_from_capnp overflow_checks timestamp = some time) ↔
      ¬ (overflow_checks = true ∧ time.IsFirst)) ∧
    ∀ timestamp : CapnpTimestamp, timestamp.nsec < NANOS_PER_SEC →
      ∃ time, convert_time_from_capnp overflow_checks timestamp = some time ∧
        (convert_time overflow_checks time = some timestamp ↔
          ¬ (overflow_checks = true ∧ timestamp.IsFirst)) := by
  have hconvert : ∀ time : SystemTime, convert_time overflow_checks time = some time.stamp ↔
      ¬ (overflow_checks = true ∧ time.IsFirst) := by
    intro time
    rw [convert_time_eq]
    split_ifs with hfirst <;> simp [hfirst]
  constructor
  · intro time
    constructor
    · rintro ⟨timestamp, htimestamp, -⟩ hfirst
      rw [convert_time_eq, if_pos hfirst] at htimestamp
      cases htimestamp
    · intro hfirst
      exact ⟨time.stamp, (hconvert time).mpr hfirst, time.nsec_below,
        convert_time_from_capnp_stamp overflow_checks time⟩
  · intro timestamp hnsec
    obtain ⟨time, rfl⟩ : ∃ time : SystemTime, time.stamp = timestamp :=
      ⟨⟨timestamp.sec, timestamp.nsec, timestamp.sec_fits, hnsec⟩, rfl⟩
    exact ⟨time, convert_time_from_capnp_stamp overflow_checks time, hconvert time⟩

/-- The first second is a time, the one of its timestamp, and the conversion back
panics on it. -/
theorem the_first_second_overflows :
    ∃ timestamp : CapnpTimestamp, timestamp.sec = -2 ^ 63 ∧ timestamp.nsec = 0 ∧
      ∃ time, convert_time_from_capnp true timestamp = some time ∧
        convert_time true time = none :=
  ⟨⟨-2 ^ 63, 0, by decide, by decide⟩, rfl, rfl, ⟨-2 ^ 63, 0, by decide, by decide⟩,
    by decide, by decide⟩

end peppy.encoding
