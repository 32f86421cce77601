-- Lists of tasks that take their steps one at a time. The task at an index
-- goes to its next phase or ends, the other tasks stay, and what the tasks
-- hold is counted over all of them.
import Peppy.Lib.Changes
import Mathlib.Data.List.Count

open changes List

namespace tasks

variable {α β κ : Type}

/-- The task at the index is `x` from here on, or ends. -/
def put (l : List α) (i : Nat) (x : Option α) : List α :=
  match x with
  | none => l.eraseIdx i
  | some a => l.set i a

section
variable {l : List α} {i : Nat} {a : α} {x : Option α}

theorem mem_put {b : α} (h : b ∈ put l i x) : b ∈ l ∨ x = some b := by
  cases x with
  | none => exact .inl (mem_of_mem_eraseIdx h)
  | some c =>
    rcases mem_or_eq_of_mem_set h with h | rfl
    · exact .inl h
    · exact .inr rfl

theorem mem_put_map {π : Type} {g : π → α} {phase : Option π} {b : α}
    (h : b ∈ put l i (phase.map g)) : b ∈ l ∨ ∃ p, phase = some p ∧ b = g p := by
  rcases mem_put h with h | h
  · exact .inl h
  · obtain ⟨p, hp, rfl⟩ := Option.map_eq_some_iff.mp h
    exact .inr ⟨p, hp, rfl⟩

theorem put_perm (h : l[i]? = some a) : (put l i x).Perm (x.toList ++ l.eraseIdx i) := by
  cases x with
  | none => exact .refl _
  | some b => exact set_perm_cons h b

theorem mem_put_self (h : l[i]? = some a) (b : α) : b ∈ put l i (some b) :=
  (put_perm h).mem_iff.mpr (by simp)

theorem eq_or_mem_put (h : l[i]? = some a) {b : α} (hb : b ∈ l) : b = a ∨ b ∈ put l i x := by
  rcases mem_cons.mp ((perm_cons_eraseIdx h).mem_iff.mp hb) with hb | hb
  · exact .inl hb
  · exact .inr ((put_perm h).mem_iff.mpr (mem_append_right _ hb))

variable [DecidableEq β]

theorem count_flatMap_put {f : α → List β} (h : l[i]? = some a) (b : β) :
    ((put l i x).flatMap f).count b + (f a).count b =
      (l.flatMap f).count b + (x.toList.flatMap f).count b := by
  have hold := ((perm_cons_eraseIdx h).flatMap_right f).count_eq b
  have hnew := ((put_perm (x := x) h).flatMap_right f).count_eq b
  rw [flatMap_cons, count_append] at hold
  rw [flatMap_append, count_append] at hnew
  omega

theorem count_flatMap_put_map {π : Type} {f : α → List β} {g : π → α} {w : π → List β}
    (h : l[i]? = some a) (hw : ∀ p, f (g p) = w p) (phase : Option π) (b : β) :
    ((put l i (phase.map g)).flatMap f).count b + (f a).count b =
      (l.flatMap f).count b + (phase.toList.flatMap w).count b := by
  have hput := count_flatMap_put (x := phase.map g) (f := f) h b
  cases phase with
  | none => exact hput
  | some p =>
    rw [Option.map_some, Option.toList_some, flatMap_singleton, hw p] at hput
    rw [Option.map_some, Option.toList_some, flatMap_singleton]
    exact hput

/-- Two tasks that hold an item which is held once are one task. -/
theorem eq_of_count_flatMap_le_one {f : α → List β} {b : β} (hcount : (l.flatMap f).count b ≤ 1)
    {a c : α} (ha : a ∈ l) (hc : c ∈ l) (hba : b ∈ f a) (hbc : b ∈ f c) : a = c := by
  obtain ⟨i, hi⟩ := getElem?_of_mem ha
  have hperm := perm_cons_eraseIdx hi
  rcases mem_cons.mp (hperm.mem_iff.mp hc) with rfl | hc
  · rfl
  have hsplit := (hperm.flatMap_right f).count_eq b
  rw [flatMap_cons, count_append] at hsplit
  have hone : 0 < (f a).count b := count_pos_iff.mpr hba
  have hother : 0 < ((l.eraseIdx i).flatMap f).count b :=
    count_pos_iff.mpr (mem_flatMap.mpr ⟨c, hc, hbc⟩)
  omega

end

end tasks
