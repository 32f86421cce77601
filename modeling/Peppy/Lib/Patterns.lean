-- Patterns of pieces: a letter, any one letter, or any number of letters. Two
-- patterns that both begin with a piece have a word in common when shorter patterns
-- do.
import Mathlib.Data.List.Basic

open List

namespace patterns

variable {α : Type}

inductive Piece (α : Type) where
  | letter (a : α)
  | one
  | many
  deriving DecidableEq

/-- One letter that the piece stands for. -/
def Piece.Takes : Piece α → α → Prop
  | .letter a, b => b = a
  | .one, _ => True
  | .many, _ => False

/-- The words that a pattern stands for. -/
inductive Matches : List (Piece α) → List α → Prop where
  | nil : Matches [] []
  | letter {p : List (Piece α)} {w : List α} (a : α) : Matches p w →
      Matches (.letter a :: p) (a :: w)
  | one {p : List (Piece α)} {w : List α} (a : α) : Matches p w → Matches (.one :: p) (a :: w)
  | none {p : List (Piece α)} {w : List α} : Matches p w → Matches (.many :: p) w
  | more {p : List (Piece α)} {w : List α} (a : α) : Matches (.many :: p) w →
      Matches (.many :: p) (a :: w)

section
variable {p q : List (Piece α)} {w : List α} {a b : α}

theorem matches_nil : Matches [] w ↔ w = [] := by
  constructor
  · intro h
    cases h
    rfl
  · rintro rfl
    exact .nil

theorem matches_cons {piece : Piece α} (hone : piece ≠ .many) :
    Matches (piece :: p) w ↔ ∃ a v, w = a :: v ∧ piece.Takes a ∧ Matches p v := by
  cases piece with
  | many => exact absurd rfl hone
  | letter a =>
    constructor
    · intro h
      cases h with
      | letter _ h => exact ⟨a, _, rfl, rfl, h⟩
    · rintro ⟨b, v, rfl, rfl, h⟩
      exact .letter b h
  | one =>
    constructor
    · intro h
      cases h with
      | one b h => exact ⟨b, _, rfl, trivial, h⟩
    · rintro ⟨b, v, rfl, -, h⟩
      exact .one b h

theorem matches_many : Matches (.many :: p) w ↔
    Matches p w ∨ ∃ b v, w = b :: v ∧ Matches (.many :: p) v := by
  constructor
  · intro h
    cases h with
    | none h => exact .inl h
    | more b h => exact .inr ⟨b, _, rfl, h⟩
  · rintro (h | ⟨b, v, rfl, h⟩)
    · exact .none h
    · exact .more b h

theorem matches_empty : Matches p [] ↔ ∀ piece ∈ p, piece = .many := by
  induction p with
  | nil => simp [matches_nil]
  | cons piece p ih =>
    cases piece with
    | letter a => simp [matches_cons]
    | one => simp [matches_cons]
    | many =>
      rw [matches_many]
      simp [ih]

end

/-! ## Words in common -/

/-- A word of both patterns whose letters are all of the kind `C`. -/
def Common (C : α → Prop) (p q : List (Piece α)) : Prop :=
  ∃ w, (∀ a ∈ w, C a) ∧ Matches p w ∧ Matches q w

section
variable {C : α → Prop} {p q : List (Piece α)} {piece : Piece α}

theorem Common.symm (h : Common C p q) : Common C q p := by
  obtain ⟨w, hw, hp, hq⟩ := h
  exact ⟨w, hw, hq, hp⟩

theorem common_comm : Common C p q ↔ Common C q p := ⟨.symm, .symm⟩

theorem common_nil : Common C [] q ↔ ∀ piece ∈ q, piece = .many := by
  constructor
  · rintro ⟨w, -, hnil, hq⟩
    rw [matches_nil.mp hnil] at hq
    exact matches_empty.mp hq
  · intro h
    exact ⟨[], by simp, .nil, matches_empty.mpr h⟩

/-- A word of `piece :: q` is one of `q`, but for what the piece takes. -/
theorem Common.drop_piece (h : ∃ w, (∀ a ∈ w, C a) ∧ Matches (.many :: p) w ∧
    Matches (piece :: q) w) : Common C p (piece :: q) ∨ Common C (.many :: p) q := by
  obtain ⟨w, hw, hp, hq⟩ := h
  -- on the word: `many` takes its first letter, or none
  induction w with
  | nil =>
    rcases matches_many.mp hp with hp | ⟨b, v, hnil, -⟩
    · exact .inl ⟨[], hw, hp, hq⟩
    · cases hnil
  | cons a w ih =>
    have hrest : ∀ b ∈ w, C b := fun b hb => hw b (mem_cons_of_mem a hb)
    rcases matches_many.mp hp with hp' | ⟨b, v, hcons, hp'⟩
    · exact .inl ⟨a :: w, hw, hp', hq⟩
    cases hcons
    by_cases hmany : piece = .many
    · subst hmany
      rcases matches_many.mp hq with hq' | ⟨c, v, hv, hq'⟩
      · exact .inr ⟨a :: w, hw, hp, hq'⟩
      · cases hv
        exact ih hrest hp' hq'
    · obtain ⟨c, v, hv, -, hq'⟩ := (matches_cons hmany).mp hq
      cases hv
      exact .inr ⟨w, hrest, hp', hq'⟩

theorem common_many (hpiece : piece ≠ .many → ∃ a, C a ∧ piece.Takes a) :
    Common C (.many :: p) (piece :: q) ↔ Common C p (piece :: q) ∨ Common C (.many :: p) q := by
  constructor
  · exact Common.drop_piece
  rintro (⟨w, hw, hp, hq⟩ | ⟨w, hw, hp, hq⟩)
  · exact ⟨w, hw, .none hp, hq⟩
  by_cases hmany : piece = .many
  · subst hmany
    exact ⟨w, hw, hp, .none hq⟩
  · obtain ⟨a, hfirst, ha⟩ := hpiece hmany
    exact ⟨a :: w, forall_mem_cons.mpr ⟨hfirst, hw⟩, .more a hp,
      (matches_cons hmany).mpr ⟨a, w, rfl, ha, hq⟩⟩

theorem common_cons {other : Piece α} (hone : piece ≠ .many) (hone' : other ≠ .many) :
    Common C (piece :: p) (other :: q) ↔
      (∃ a, C a ∧ piece.Takes a ∧ other.Takes a) ∧ Common C p q := by
  constructor
  · rintro ⟨w, hw, hp, hq⟩
    obtain ⟨a, v, rfl, ha, hp'⟩ := (matches_cons hone).mp hp
    obtain ⟨b, u, hu, hb, hq'⟩ := (matches_cons hone').mp hq
    cases hu
    obtain ⟨hfirst, hrest⟩ := forall_mem_cons.mp hw
    exact ⟨⟨a, hfirst, ha, hb⟩, v, hrest, hp', hq'⟩
  · rintro ⟨⟨a, hfirst, ha, hb⟩, v, hrest, hp, hq⟩
    exact ⟨a :: v, forall_mem_cons.mpr ⟨hfirst, hrest⟩,
      (matches_cons hone).mpr ⟨a, v, rfl, ha, hp⟩, (matches_cons hone').mpr ⟨a, v, rfl, hb, hq⟩⟩

end

end patterns
