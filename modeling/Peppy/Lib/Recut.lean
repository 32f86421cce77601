-- Lists that are cut into parts. Two ways to cut one list differ first where a part
-- of the one goes on for longer than the part of the other.
import Mathlib.Data.List.Basic

open List

namespace recut

variable {α : Type} {p q : List (List α)}

/-- After the same parts, a part of `q` starts as that of `p` and takes in `more` of the rest. -/
def Recut (p q : List (List α)) : Prop :=
  ∃ way part rest more rest', p = way ++ part :: rest ∧ q = way ++ (part ++ more) :: rest' ∧
    more ≠ [] ∧ rest.flatten = more ++ rest'.flatten

theorem Recut.flatten (h : Recut p q) : p.flatten = q.flatten := by
  obtain ⟨way, part, rest, more, rest', rfl, rfl, -, hrest⟩ := h
  simp [hrest]

theorem Recut.ne (h : Recut p q) : p ≠ q := by
  obtain ⟨way, part, rest, more, rest', rfl, rfl, hmore, -⟩ := h
  simp [hmore]

theorem Recut.cons (part : List α) (h : Recut p q) : Recut (part :: p) (part :: q) := by
  obtain ⟨way, part', rest, more, rest', rfl, rfl, hrest⟩ := h
  exact ⟨part :: way, part', rest, more, rest', rfl, rfl, hrest⟩

theorem recut_of_ne {a b : List α} (hne : a ≠ b) (h : (a :: p).flatten = (b :: q).flatten) :
    Recut (a :: p) (b :: q) ∨ Recut (b :: q) (a :: p) := by
  rcases append_eq_append_iff.mp h with ⟨more, rfl, hrest⟩ | ⟨more, rfl, hrest⟩
  · refine .inl ⟨[], a, p, more, q, rfl, rfl, ?_, hrest⟩
    exact fun hnil => hne (by rw [hnil, append_nil])
  · refine .inr ⟨[], b, q, more, p, rfl, rfl, ?_, hrest⟩
    exact fun hnil => hne (by rw [hnil, append_nil])

/-- Parts that are not empty make one list exactly when they are the same or cut again. -/
theorem flatten_eq_iff (hp : [] ∉ p) (hq : [] ∉ q) :
    p.flatten = q.flatten ↔ p = q ∨ Recut p q ∨ Recut q p := by
  constructor
  · intro h
    induction p generalizing q with
    | nil =>
      cases q with
      | nil => exact .inl rfl
      | cons b q => simp_all
    | cons a p ih =>
      cases q with
      | nil => simp_all
      | cons b q =>
        by_cases hab : a = b
        · subst hab
          rw [mem_cons, not_or] at hp hq
          rcases ih hp.2 hq.2 (append_cancel_left h) with rfl | h | h
          · exact .inl rfl
          · exact .inr (.inl (h.cons a))
          · exact .inr (.inr (h.cons a))
        · exact .inr (recut_of_ne hab h)
  · rintro (rfl | h | h)
    · rfl
    · exact h.flatten
    · exact h.flatten.symm

end recut
