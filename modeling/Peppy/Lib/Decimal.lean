-- Numbers as decimal digits of a fixed count, with zeros in front.
import Mathlib.Data.List.Basic
import Mathlib.Data.Nat.Digits.Defs

open List

namespace decimal

def value (digits : List Char) : Nat := Nat.ofDigitChars 10 digits 0

def padded (width n : Nat) : List Char :=
  List.replicate (width - (Nat.toDigits 10 n).length) '0' ++ Nat.toDigits 10 n

theorem value_append_cons (digit : Char) (digits : List Char) :
    value (digit :: digits) = 10 ^ digits.length * (digit.toNat - '0'.toNat) + value digits := by
  rw [value, Nat.ofDigitChars_cons, Nat.ofDigitChars_eq_ofDigitChars_zero, value]
  simp

theorem value_padded (width n : Nat) : value (padded width n) = n := by
  rw [value, padded, Nat.ofDigitChars_append, Nat.ofDigitChars_replicate_zero]
  simp

variable {width n : Nat} {c : Char}

theorem isDigit_of_mem_padded (h : c ∈ padded width n) : c.isDigit = true := by
  rcases mem_append.mp h with h | h
  · rw [eq_of_mem_replicate h]
    decide
  · exact Nat.isDigit_of_mem_toDigits (by decide) (by decide) h

theorem length_padded (hwidth : 0 < width) (h : n < 10 ^ width) :
    (padded width n).length = width := by
  have hle : (Nat.toDigits 10 n).length ≤ width :=
    (Nat.length_toDigits_le_iff (by decide) hwidth).mpr h
  rw [padded, length_append, length_replicate]
  omega

theorem length_padded_of_le (hwidth : 0 < width) (h : 10 ^ width ≤ n) :
    width < (padded width n).length := by
  have hgt : ¬ (Nat.toDigits 10 n).length ≤ width := by
    rw [Nat.length_toDigits_le_iff (by decide) hwidth]
    omega
  rw [padded, length_append]
  omega

theorem digit_bounds (h : c.isDigit = true) : '0'.toNat ≤ c.toNat ∧ c.toNat ≤ '9'.toNat := by
  simpa [Char.isDigit, UInt32.le_iff_toNat_le] using h

variable {digits : List Char}

theorem value_lt (h : ∀ c ∈ digits, c.isDigit = true) : value digits < 10 ^ digits.length := by
  induction digits with
  | nil => simp [value]
  | cons digit digits ih =>
    obtain ⟨hdigit, hdigits⟩ := forall_mem_cons.mp h
    have hbounds := digit_bounds hdigit
    have hrest := ih hdigits
    have hnine : '9'.toNat = '0'.toNat + 9 := rfl
    have hle : 10 ^ digits.length * (digit.toNat - '0'.toNat) ≤ 10 ^ digits.length * 9 :=
      Nat.mul_le_mul_left _ (by omega)
    rw [value_append_cons, length_cons, pow_succ]
    omega

theorem value_inj {other : List Char} (hlength : digits.length = other.length)
    (hdigits : ∀ c ∈ digits, c.isDigit = true) (hother : ∀ c ∈ other, c.isDigit = true)
    (h : value digits = value other) : digits = other := by
  induction digits generalizing other with
  | nil =>
    symm
    simpa using hlength.symm
  | cons digit digits ih =>
    obtain ⟨digit', other, rfl⟩ := exists_cons_of_length_eq_add_one hlength.symm
    obtain ⟨hdigit, hdigits⟩ := forall_mem_cons.mp hdigits
    obtain ⟨hdigit', hother⟩ := forall_mem_cons.mp hother
    have hlength : digits.length = other.length := by simpa using hlength
    rw [value_append_cons, value_append_cons, hlength] at h
    have hlt := value_lt hdigits
    have hlt' := value_lt hother
    rw [hlength] at hlt
    -- the first digit is the quotient, and the others are the rest
    have hfirst : digit.toNat - '0'.toNat = digit'.toNat - '0'.toNat := by
      have hdiv := congrArg (· / 10 ^ other.length) h
      simpa [Nat.mul_add_div (Nat.pow_pos (n := other.length) (by decide : 0 < 10)),
        Nat.div_eq_of_lt hlt, Nat.div_eq_of_lt hlt'] using hdiv
    have hrest : value digits = value other := by
      rw [hfirst] at h
      omega
    have hchar : digit = digit' := by
      have hlow := (digit_bounds hdigit).1
      have hlow' := (digit_bounds hdigit').1
      exact Char.toNat_inj.mp (by omega)
    rw [hchar, ih hlength hdigits hother hrest]

theorem padded_value (hdigits : ∀ c ∈ digits, c.isDigit = true)
    (hne : digits ≠ []) : padded digits.length (value digits) = digits := by
  refine value_inj ?_ (fun c hc => isDigit_of_mem_padded hc) hdigits (value_padded _ _)
  exact length_padded (length_pos_of_ne_nil hne) (value_lt hdigits)

end decimal
