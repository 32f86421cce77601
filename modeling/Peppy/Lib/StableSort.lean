-- Stable sorts by a key. A stable sort depends on its input only through the
-- order of the entries of each key.
import Mathlib.Data.List.Sort

open List

namespace stable_sort

variable {α κ : Type} [LinearOrder κ]

variable (key : α → κ)

def sortByKey (l : List α) : List α := l.insertionSort fun a b => key a ≤ key b

theorem sortByKey_perm (l : List α) : (sortByKey key l).Perm l :=
  perm_insertionSort _ l

theorem mem_sortByKey {key : α → κ} {l : List α} {a : α} : a ∈ sortByKey key l ↔ a ∈ l :=
  (sortByKey_perm key l).mem_iff

theorem pairwise_sortByKey (l : List α) : (sortByKey key l).Pairwise fun a b => key a ≤ key b := by
  have : Std.Total fun a b : α => key a ≤ key b := ⟨fun a b => le_total (key a) (key b)⟩
  have : IsTrans α fun a b => key a ≤ key b := ⟨fun _ _ _ => le_trans⟩
  exact pairwise_insertionSort _ l

theorem filter_sortByKey (l : List α) (k : κ) :
    (sortByKey key l).filter (fun a => key a = k) = l.filter fun a => key a = k := by
  have hsame : (l.filter fun a => key a = k).Pairwise fun a b => key a ≤ key b := by
    refine List.Pairwise.imp_of_mem ?_ (pairwise_of_forall fun _ _ => trivial)
    intro a b ha hb _
    have hkey : key a = k ∧ key b = k :=
      ⟨by simpa using (mem_filter.mp ha).2, by simpa using (mem_filter.mp hb).2⟩
    rw [hkey.1, hkey.2]
  have hsub : (l.filter fun a => key a = k).Sublist (sortByKey key l) :=
    sublist_insertionSort hsame filter_sublist
  have hsub := hsub.filter fun a => key a = k
  rw [filter_filter] at hsub
  refine (List.Sublist.eq_of_length ?_ ?_).symm
  · simpa using hsub
  · exact ((sortByKey_perm key l).filter _).length_eq.symm

/-- Sorted lists with the same entries of each key, in the same order, are the
same. -/
theorem eq_of_pairwise {key : α → κ} {l l' : List α} (hl : l.Pairwise fun a b => key a ≤ key b)
    (hl' : l'.Pairwise fun a b => key a ≤ key b)
    (h : ∀ k, l.filter (fun a => key a = k) = l'.filter fun a => key a = k) : l = l' := by
  have hmem : ∀ a, a ∈ l ↔ a ∈ l' := by
    intro a
    have hiff : a ∈ l.filter (fun b => key b = key a) ↔ a ∈ l'.filter (fun b => key b = key a) := by
      rw [h]
    simpa using hiff
  induction l generalizing l' with
  | nil =>
    cases l' with
    | nil => rfl
    | cons b l' => exact absurd ((hmem b).mpr (by simp)) (by simp)
  | cons a l ih =>
    cases l' with
    | nil => exact absurd ((hmem a).mp (by simp)) (by simp)
    | cons b l' =>
      -- The first entries have the least key, which is one.
      have hkey : key a = key b := by
        refine le_antisymm ?_ ?_
        · rcases mem_cons.mp ((hmem b).mpr (by simp)) with rfl | hb
          · exact le_refl _
          · exact (pairwise_cons.mp hl).1 b hb
        · rcases mem_cons.mp ((hmem a).mp (by simp)) with rfl | ha
          · exact le_refl _
          · exact (pairwise_cons.mp hl').1 a ha
      have hhead := h (key a)
      simp only [filter_cons, decide_true, if_true, ← hkey] at hhead
      obtain ⟨rfl, -⟩ := List.cons.inj hhead
      have hrest : ∀ k, l.filter (fun c => key c = k) = l'.filter fun c => key c = k := by
        intro k
        have hk := h k
        simp only [filter_cons] at hk
        split at hk
        · exact (List.cons.inj hk).2
        · exact hk
      have hmem' : ∀ c, c ∈ l ↔ c ∈ l' := by
        intro c
        have hiff : c ∈ l.filter (fun d => key d = key c) ↔
            c ∈ l'.filter (fun d => key d = key c) := by rw [hrest]
        simpa using hiff
      rw [ih (pairwise_cons.mp hl).2 (pairwise_cons.mp hl').2 hrest hmem']

theorem sortByKey_congr {key : α → κ} {l l' : List α}
    (h : ∀ k, l.filter (fun a => key a = k) = l'.filter fun a => key a = k) :
    sortByKey key l = sortByKey key l' :=
  eq_of_pairwise (pairwise_sortByKey key l) (pairwise_sortByKey key l') fun k => by
    rw [filter_sortByKey, filter_sortByKey, h]

/-- Blocks with keys of their own, in another order, keep the entries of each
key. -/
theorem filter_flatMap_perm {β : Type} {key : α → κ} {f : β → List α} {blocks blocks' : List β}
    (h : blocks.Perm blocks')
    (hdistinct : blocks.Pairwise fun x y => ∀ a ∈ f x, ∀ b ∈ f y, key a ≠ key b) (k : κ) :
    (blocks.flatMap f).filter (fun a => key a = k) =
      (blocks'.flatMap f).filter fun a => key a = k := by
  induction h with
  | nil => rfl
  | cons x _ ih =>
    simp only [flatMap_cons, filter_append]
    rw [ih (pairwise_cons.mp hdistinct).2]
  | swap x y l =>
    have hxy := (pairwise_cons.mp hdistinct).1 x (by simp)
    -- The key is the one of at most one of the two blocks.
    have hempty : (f y).filter (fun a => key a = k) = [] ∨ (f x).filter (fun a => key a = k) = [] := by
      by_contra hne
      obtain ⟨hy, hx⟩ := not_or.mp hne
      obtain ⟨a, ha⟩ := exists_mem_of_ne_nil _ hy
      obtain ⟨b, hb⟩ := exists_mem_of_ne_nil _ hx
      simp only [mem_filter, decide_eq_true_eq] at ha hb
      exact hxy a ha.1 b hb.1 (ha.2.trans hb.2.symm)
    simp only [flatMap_cons, filter_append]
    rcases hempty with hempty | hempty <;> simp [hempty]
  | trans h1 _ ih1 ih2 =>
    refine (ih1 hdistinct).trans (ih2 ?_)
    exact hdistinct.perm h1 fun hab a ha b hb => (hab b hb a ha).symm

end stable_sort
