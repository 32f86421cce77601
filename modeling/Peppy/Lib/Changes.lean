-- Lists that change one entry at a time: an entry joins at the end, leaves,
-- or moves. A rule of the entries that each move keeps is a rule of the
-- list, and an entry is found again by a key that no move changes.
import Mathlib.Data.List.Nodup
import Mathlib.Data.List.Perm.Basic

open List

namespace changes

variable {α κ : Type}

/-- A list after one change of one entry. -/
inductive Change (New : List α → α → Prop) (Move : α → α → Prop) : List α → List α → Prop
  | keep (l : List α) : Change New Move l l
  | add (l : List α) (a : α) (hnew : New l a) : Change New Move l (l ++ [a])
  | drop (l : List α) (a : α) (l' : List α) : Change New Move (l ++ a :: l') (l ++ l')
  | edit (l : List α) (a b : α) (l' : List α) (hmove : Move a b) :
      Change New Move (l ++ a :: l') (l ++ b :: l')

section
variable {New : List α → α → Prop} {Move : α → α → Prop} {l l' : List α}

/-- An entry is new, or from before and kept still or moved. -/
theorem Change.mem (h : Change New Move l l') {b : α} (hb : b ∈ l') :
    New l b ∨ ∃ a ∈ l, a = b ∨ Move a b := by
  cases h with
  | keep => exact .inr ⟨b, hb, .inl rfl⟩
  | add _ a ha =>
    rcases mem_append.mp hb with hb | hb
    · exact .inr ⟨b, hb, .inl rfl⟩
    · rw [mem_singleton.mp hb]
      exact .inl ha
  | drop l1 a l2 =>
    refine Or.inr ⟨b, ?_, .inl rfl⟩
    rcases mem_append.mp hb with hb | hb
    · exact mem_append_left _ hb
    · exact mem_append_right _ (mem_cons_of_mem _ hb)
  | edit l1 a c l2 hac =>
    rcases mem_append.mp hb with hb | hb
    · exact .inr ⟨b, mem_append_left _ hb, .inl rfl⟩
    · rcases mem_cons.mp hb with rfl | hb
      · exact .inr ⟨a, by simp, .inr hac⟩
      · exact .inr ⟨b, mem_append_right _ (mem_cons_of_mem _ hb), .inl rfl⟩

theorem Change.forall {P : α → Prop} (h : Change New Move l l') (hP : ∀ a ∈ l, P a)
    (hnew : ∀ a, New l a → P a) (hmove : ∀ a b, P a → Move a b → P b) : ∀ b ∈ l', P b := by
  intro b hb
  rcases h.mem hb with hb | ⟨a, ha, rfl | hab⟩
  · exact hnew b hb
  · exact hP a ha
  · exact hmove a b (hP a ha) hab

theorem Change.nodup {key : α → κ} (h : Change New Move l l') (hl : (l.map key).Nodup)
    (hnew : ∀ a, New l a → key a ∉ l.map key) (hmove : ∀ a b, Move a b → key b = key a) :
    (l'.map key).Nodup := by
  cases h with
  | keep => exact hl
  | add _ a ha =>
    rw [map_append, map_singleton, nodup_append]
    refine ⟨hl, nodup_singleton _, ?_⟩
    intro k hk k' hk' heq
    rw [mem_singleton.mp hk'] at heq
    exact hnew a ha (heq ▸ hk)
  | drop l1 a l2 =>
    refine hl.sublist (List.Sublist.map key ?_)
    exact List.Sublist.append_left (sublist_cons_self a l2) l1
  | edit l1 a b l2 hab =>
    rw [map_append, map_cons] at hl ⊢
    rw [hmove a b hab]
    exact hl

end

variable {a b : α} {l l1 l2 : List α} {i k : Nat} {p : α → Bool}

theorem mem_edit {key : α → κ} {x : α}
    (hl : ((l1 ++ a :: l2).map key).Nodup) (hx : x ∈ l1 ++ b :: l2) :
    x = b ∨ (x ∈ l1 ++ a :: l2 ∧ key x ≠ key a) := by
  rw [map_append, map_cons, nodup_append, nodup_cons] at hl
  obtain ⟨_, ⟨ha, _⟩, hdisj⟩ := hl
  rcases mem_append.mp hx with hx | hx
  · exact .inr ⟨mem_append_left _ hx,
      hdisj _ (mem_map_of_mem hx) _ mem_cons_self⟩
  · rcases mem_cons.mp hx with hx | hx
    · exact .inl hx
    · refine Or.inr ⟨mem_append_right _ (mem_cons_of_mem _ hx), fun heq => ?_⟩
      exact ha (heq ▸ mem_map_of_mem hx)

theorem perm_cons_eraseIdx (h : l[i]? = some a) : l.Perm (a :: l.eraseIdx i) := by
  obtain ⟨hi, rfl⟩ := List.getElem?_eq_some_iff.mp h
  exact (getElem_cons_eraseIdx_perm hi).symm

theorem set_perm_cons (h : l[i]? = some a) (b : α) : (l.set i b).Perm (b :: l.eraseIdx i) := by
  obtain ⟨hi, rfl⟩ := List.getElem?_eq_some_iff.mp h
  exact set_perm_cons_eraseIdx hi b

theorem mem_push (h : a ∈ l ++ [b]) : a ∈ l ∨ a = b := by
  simpa using h

theorem getElem?_push (h : l[k]? = some a) (b : α) : (l ++ [b])[k]? = some a := by
  rw [getElem?_append_left (List.getElem?_eq_some_iff.mp h).1]
  exact h

theorem getElem?_push_cases (h : (l ++ [b])[k]? = some a) :
    l[k]? = some a ∨ (k = l.length ∧ a = b) := by
  rcases Nat.lt_trichotomy k l.length with hk | rfl | hk
  · rw [getElem?_append_left hk] at h
    exact .inl h
  · rw [getElem?_concat_length] at h
    cases h
    exact .inr ⟨rfl, rfl⟩
  · rw [getElem?_eq_none (by simpa using Nat.succ_le_of_lt hk)] at h
    cases h

theorem getElem?_set_cases (h : (l.set i b)[k]? = some a) :
    (k = i ∧ a = b) ∨ (k ≠ i ∧ l[k]? = some a) := by
  by_cases hk : k = i
  · subst hk
    have hlt : k < (l.set k b).length := (List.getElem?_eq_some_iff.mp h).1
    rw [getElem?_set_self (by simpa using hlt)] at h
    cases h
    exact .inl ⟨rfl, rfl⟩
  · rw [getElem?_set_ne (Ne.symm hk)] at h
    exact .inr ⟨hk, h⟩

/-! ## The first entry that passes a test -/

def editFirst (p : α → Bool) (f : α → α) : List α → List α
  | [] => []
  | a :: as => if p a then f a :: as else a :: editFirst p f as

theorem find?_split (h : l.find? p = some a) :
    ∃ l1 l2, l = l1 ++ a :: l2 ∧ p a ∧ ∀ b ∈ l1, ¬ p b := by
  obtain ⟨ha, l1, l2, hl, hl1⟩ := find?_eq_some_iff_append.mp h
  exact ⟨l1, l2, hl, ha, by simpa using hl1⟩

theorem editFirst_split (hl1 : ∀ b ∈ l1, ¬ p b)
    (ha : p a) (f : α → α) : editFirst p f (l1 ++ a :: l2) = l1 ++ f a :: l2 := by
  induction l1 with
  | nil => simp [editFirst, ha]
  | cons b l1 ih =>
    have hb : ¬ p b := hl1 b (by simp)
    simp [editFirst, hb, ih fun c hc => hl1 c (mem_cons_of_mem _ hc)]

theorem eraseP_split (hl1 : ∀ b ∈ l1, ¬ p b) (ha : p a) : (l1 ++ a :: l2).eraseP p = l1 ++ l2 := by
  rw [eraseP_append_right _ hl1, eraseP_cons_of_pos ha]

theorem find?_key [DecidableEq κ] {key : α → κ} (hl : (l.map key).Nodup)
    (ha : a ∈ l) : l.find? (fun b => key b = key a) = some a := by
  obtain ⟨b, hb⟩ : ∃ b, l.find? (fun b => key b = key a) = some b := by
    rw [← Option.isSome_iff_exists, find?_isSome]
    exact ⟨a, ha, by simp⟩
  have hkey : key b = key a := by simpa using find?_some hb
  rw [hb, inj_on_of_nodup_map hl (mem_of_find?_eq_some hb) ha hkey]

end changes
