-- Bytes and the ways to cut them: numbers, the highest byte first, and UTF-8 texts. A
-- cut outside of the bytes panics.
import Mathlib.Algebra.Ring.Nat
import Mathlib.Data.List.Basic

open List

namespace bytes

abbrev Bytes := List UInt8

/-! ## Results -/

inductive Outcome (ε α : Type) where
  | Ok (a : α)
  | Err (e : ε)
  | Panic

namespace Outcome

variable {ε ε' α β : Type}

def bind : Outcome ε α → (α → Outcome ε β) → Outcome ε β
  | .Ok a, f => f a
  | .Err e, _ => .Err e
  | .Panic, _ => .Panic

instance : Monad (Outcome ε) where
  pure := .Ok
  bind

def mapErr (f : ε → ε') : Outcome ε α → Outcome ε' α
  | .Ok a => .Ok a
  | .Err e => .Err (f e)
  | .Panic => .Panic

def okOr (e : ε) : Option α → Outcome ε α
  | some a => .Ok a
  | none => .Err e

@[simp] theorem ok_bind (a : α) (f : α → Outcome ε β) : (.Ok a : Outcome ε α) >>= f = f a := rfl

@[simp] theorem err_bind (e : ε) (f : α → Outcome ε β) :
    (.Err e : Outcome ε α) >>= f = .Err e := rfl

@[simp] theorem pure_eq (a : α) : (pure a : Outcome ε α) = .Ok a := rfl

@[simp] theorem okOr_some (e : ε) (a : α) : okOr e (some a) = .Ok a := rfl

@[simp] theorem okOr_none (e : ε) : okOr e (none : Option α) = .Err e := rfl

@[simp] theorem mapErr_ok (f : ε → ε') (a : α) : (Outcome.Ok a).mapErr f = .Ok a := rfl

variable {x : Outcome ε α}

theorem bind_eq_ok {f : α → Outcome ε β} {b : β} :
    x >>= f = .Ok b ↔ ∃ a, x = .Ok a ∧ f a = .Ok b := by
  cases x with
  | Ok a => simp
  | Err e | Panic => exact ⟨(nomatch ·), fun ⟨_, h, _⟩ => (nomatch h)⟩

theorem okOr_eq_ok {e : ε} {x : Option α} {a : α} : okOr e x = .Ok a ↔ x = some a := by
  cases x with
  | none => exact ⟨(nomatch ·), (nomatch ·)⟩
  | some b => simp

theorem mapErr_eq_ok {f : ε → ε'} {a : α} : x.mapErr f = .Ok a ↔ x = .Ok a := by
  cases x with
  | Ok b => simp
  | Err e | Panic => exact ⟨(nomatch ·), (nomatch ·)⟩

theorem bind_ne_panic {f : α → Outcome ε β} (hx : x ≠ .Panic)
    (hf : ∀ a, x = .Ok a → f a ≠ .Panic) : x >>= f ≠ .Panic := by
  cases x with
  | Ok a => exact hf a rfl
  | Err e => exact (nomatch ·)
  | Panic => exact absurd rfl hx

theorem okOr_ne_panic (e : ε) (x : Option α) : okOr e x ≠ .Panic := by
  cases x with
  | none | some a => exact (nomatch ·)

theorem mapErr_ne_panic {f : ε → ε'} (h : x ≠ .Panic) : x.mapErr f ≠ .Panic := by
  cases x with
  | Ok a | Err e => exact (nomatch ·)
  | Panic => exact absurd rfl h

end Outcome

/-! ## Cuts -/

variable {j m : Nat} {a : Bytes}

section
variable {ε : Type}

/-- `b[i]`. -/
def index (b : Bytes) (i : Nat) : Outcome ε UInt8 :=
  match b[i]? with
  | some x => .Ok x
  | none => .Panic

/-- `b[i..]`. -/
def sliceFrom (b : Bytes) (i : Nat) : Outcome ε Bytes :=
  if i ≤ b.length then .Ok (b.drop i) else .Panic

/-- `b[i..j]`. -/
def slice (b : Bytes) (i j : Nat) : Outcome ε Bytes :=
  if i ≤ j ∧ j ≤ b.length then .Ok ((b.drop i).take (j - i)) else .Panic

/-- `b.get(i..j)`. -/
def getRange (b : Bytes) (i j : Nat) : Option Bytes :=
  if i ≤ j ∧ j ≤ b.length then some ((b.drop i).take (j - i)) else none

/-- The sum of two sizes. A size has 64 bits. -/
def addSize (m n : Nat) : Outcome ε Nat := if m + n < 2 ^ 64 then .Ok (m + n) else .Panic

def subSize (m n : Nat) : Outcome ε Nat := if n ≤ m then .Ok (m - n) else .Panic

variable {i n : Nat} {b : Bytes}

theorem index_ne_panic (h : i < b.length) : index (ε := ε) b i ≠ .Panic := by
  rw [index, getElem?_eq_getElem h]
  exact (nomatch ·)

theorem sliceFrom_of_le (h : i ≤ b.length) : sliceFrom (ε := ε) b i = .Ok (b.drop i) := if_pos h

theorem slice_of_le (h : i ≤ j) (h' : j ≤ b.length) :
    slice (ε := ε) b i j = .Ok ((b.drop i).take (j - i)) := if_pos ⟨h, h'⟩

theorem addSize_of_lt (h : m + n < 2 ^ 64) : addSize (ε := ε) m n = .Ok (m + n) := if_pos h

theorem subSize_of_le (h : n ≤ m) : subSize (ε := ε) m n = .Ok (m - n) := if_pos h

theorem sliceFrom_append (a b : Bytes) : sliceFrom (ε := ε) (a ++ b) a.length = .Ok b := by
  rw [sliceFrom_of_le (by simp), drop_left]

theorem getRange_append (a b c : Bytes) :
    getRange (a ++ (b ++ c)) a.length (a.length + b.length) = some b := by
  simp [getRange]

/-! The cuts of a field that follows one byte. -/

theorem getRange_cons (x : UInt8) (a r : Bytes) :
    getRange (x :: (a ++ r)) 1 (1 + a.length) = some a := by
  have hle : 1 + a.length ≤ (x :: (a ++ r)).length := by simp; omega
  rw [getRange, if_pos ⟨by omega, hle⟩]
  simp

theorem slice_cons (x : UInt8) (a r : Bytes) :
    slice (ε := ε) (x :: (a ++ r)) 1 (1 + a.length) = .Ok a := by
  rw [slice_of_le (by omega) (by simp; omega)]
  simp

theorem sliceFrom_cons (x : UInt8) (a r : Bytes) :
    sliceFrom (ε := ε) (x :: (a ++ r)) (1 + a.length) = .Ok r := by
  rw [sliceFrom_of_le (by simp; omega), Nat.add_comm, drop_succ_cons, drop_left]

theorem length_of_getRange (h : getRange b i j = some a) : j ≤ b.length := by
  rw [getRange] at h
  split at h
  · rename_i hle
    exact hle.2
  · cases h

theorem sliceFrom_ne_panic (h : i ≤ b.length) : sliceFrom (ε := ε) b i ≠ .Panic := by
  rw [sliceFrom_of_le h]
  exact (nomatch ·)

theorem addSize_byte (x : UInt8) : addSize (ε := ε) 1 x.toNat = .Ok (1 + x.toNat) := by
  have hx := x.toNat_lt
  exact addSize_of_lt (by omega)

theorem toNat_ofNat_of_le (h : n ≤ 255) : (UInt8.ofNat n).toNat = n :=
  UInt8.toNat_ofNat_of_lt' (Nat.lt_succ_of_le h)

end

/-! ## Numbers -/

/-- The number in `w` bytes, the highest first. What does not fit is cut
off. -/
def toBe : Nat → Nat → Bytes
  | 0, _ => []
  | w + 1, n => UInt8.ofNat (n / 256 ^ w) :: toBe w n

def fromBe : Bytes → Nat
  | [] => 0
  | b :: l => b.toNat * 256 ^ l.length + fromBe l

@[simp] theorem length_toBe (w n : Nat) : (toBe w n).length = w := by
  induction w with
  | zero => rfl
  | succ w ih => rw [toBe, length_cons, ih]

theorem fromBe_toBe (w n : Nat) : fromBe (toBe w n) = n % 256 ^ w := by
  induction w with
  | zero => simp [toBe, fromBe, Nat.mod_one]
  | succ w ih =>
    have hbyte : (UInt8.ofNat (n / 256 ^ w)).toNat = n / 256 ^ w % 256 := UInt8.toNat_ofNat'
    rw [toBe, fromBe, ih, length_toBe, hbyte, Nat.mod_pow_succ, Nat.mul_comm, Nat.add_comm]

variable {w : Nat} {b : Bytes}

variable {n : Nat}

theorem fromBe_toBe_of_lt (h : n < 256 ^ w) : fromBe (toBe w n) = n := by
  rw [fromBe_toBe, Nat.mod_eq_of_lt h]

theorem fromBe_lt (l : Bytes) : fromBe l < 256 ^ l.length := by
  induction l with
  | nil => simp [fromBe]
  | cons b l ih =>
    have hb : b.toNat + 1 ≤ 256 := b.toNat_lt
    have hmul := Nat.mul_le_mul_right (256 ^ l.length) hb
    rw [Nat.add_mul, Nat.one_mul] at hmul
    rw [fromBe, length_cons, Nat.pow_succ, Nat.mul_comm (256 ^ l.length)]
    omega

theorem fromBe_lt_of_getRange (h : getRange b 0 4 = some a) : fromBe a < 2 ^ 32 := by
  rw [getRange] at h
  split at h
  · cases h
    rename_i hle
    have hlt := fromBe_lt ((b.drop 0).take (4 - 0))
    have hlen : ((b.drop 0).take (4 - 0)).length = 4 := by simp; omega
    rw [hlen] at hlt
    exact hlt
  · cases h

theorem fromBe_inj {l m : Bytes} (hlen : l.length = m.length) (h : fromBe l = fromBe m) :
    l = m := by
  induction l generalizing m with
  | nil => exact (length_eq_zero_iff.mp hlen.symm).symm
  | cons a l ih =>
    cases m with
    | nil => exact nomatch hlen
    | cons b m =>
      have hlen : l.length = m.length := Nat.succ.inj hlen
      have hl := fromBe_lt l
      have hm := fromBe_lt m
      rw [fromBe, fromBe, hlen] at h
      rw [hlen] at hl
      -- the first bytes are the quotients, the rest are the remainders
      have hpos : 0 < 256 ^ m.length := Nat.pow_pos (by decide)
      have hdiv := congrArg (· / 256 ^ m.length) h
      have hmod := congrArg (· % 256 ^ m.length) h
      simp only [Nat.add_comm (_ * _), Nat.add_mul_div_right _ _ hpos,
        Nat.add_mul_mod_self_right, Nat.div_eq_of_lt hl, Nat.div_eq_of_lt hm,
        Nat.mod_eq_of_lt hl, Nat.mod_eq_of_lt hm, Nat.zero_add] at hdiv hmod
      rw [UInt8.toNat_inj.mp hdiv, ih hlen hmod]

theorem toBe_fromBe (l : Bytes) : toBe l.length (fromBe l) = l := by
  apply fromBe_inj (length_toBe _ _)
  exact fromBe_toBe_of_lt (fromBe_lt l)

theorem toBe_fromBe_of_length (h : b.length = w) : toBe w (fromBe b) = b := by
  subst h
  exact toBe_fromBe b

theorem toBe_inj (hm : m < 256 ^ w) (hn : n < 256 ^ w) (h : toBe w m = toBe w n) : m = n := by
  rw [← fromBe_toBe_of_lt hm, ← fromBe_toBe_of_lt hn, h]

theorem ofNat_fromBe_toBe (n : UInt64) : UInt64.ofNat (fromBe (toBe 8 n.toNat)) = n := by
  have hlt : n.toNat < 256 ^ 8 := n.toNat_lt
  rw [fromBe_toBe_of_lt hlt, UInt64.ofNat_toNat]

theorem toBe_toNat_fromBe (h : b.length = 8) : toBe 8 (UInt64.ofNat (fromBe b)).toNat = b := by
  have hlt : fromBe b < 2 ^ 64 := by
    have := fromBe_lt b
    rw [h] at this
    exact this
  rw [UInt64.toNat_ofNat_of_lt' hlt, toBe_fromBe_of_length h]

/-- A field with its length in front, read back with what follows it. -/
theorem field_inj {r s : Bytes} (ha : a.length < 256 ^ w) (hb : b.length < 256 ^ w)
    (h : toBe w a.length ++ (a ++ r) = toBe w b.length ++ (b ++ s)) : a = b ∧ r = s := by
  obtain ⟨hlen, hrest⟩ := append_inj h (by simp)
  exact append_inj hrest (toBe_inj ha hb hlen)

/-! ## Texts -/

def utf8 (s : String) : Bytes := s.toByteArray.data.toList

def fromUtf8 (b : Bytes) : Option String := String.fromUTF8? ⟨b.toArray⟩

theorem fromUtf8_utf8 (s : String) : fromUtf8 (utf8 s) = some s := by
  simp only [fromUtf8, utf8, String.fromUTF8?, Array.toArray_toList]
  exact dif_pos s.isValidUTF8

theorem utf8_inj {s t : String} (h : utf8 s = utf8 t) : s = t := by
  have hs := fromUtf8_utf8 s
  rw [h, fromUtf8_utf8] at hs
  exact (Option.some.inj hs).symm

end bytes
